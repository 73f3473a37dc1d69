import ScriptBridge.Number.Index
import ScriptBridge.Value

/-!
Searching a list of values from a position given by a number.
-/

namespace ScriptBridge.Sequence

/-- The position the backward search starts at, if it lies in the list. -/
def lastStart? (length : Nat) (start : Option Double) : Option Nat :=
  if length = 0 then none
  else
    match start with
    | none => some (length - 1)
    | some raw =>
      let relative := Number.toIntegerOrInfinity raw
      if relative.lt (.zero false) then
        let fromEnd := (Double.ofNat length).add relative
        if fromEnd.lt (.zero false) then none else some (fromEnd.toWord 64)
      else some ((relative.min ((Double.ofNat length).sub (.ofNat 1))).toWord 64)

/-- The first position from `start` on whose element is strictly equal. -/
def indexOf? (xs : List Value) (target : Value) (start : Option Double) : Option Nat :=
  let first := Number.relativeIndex start xs.length 0
  ((xs.drop first).findIdx? (·.strictEquals target)).map (first + ·)

/-- The last position up to `start` whose element is strictly equal. -/
def lastIndexOf? (xs : List Value) (target : Value) (start : Option Double) : Option Nat :=
  (lastStart? xs.length start).bind fun last =>
    ((xs.take (last + 1)).reverse.findIdx? (·.strictEquals target)).map (last - ·)

/-- Whether an element from `start` on is the same, not-a-number counting as itself. -/
def includes (xs : List Value) (target : Value) (start : Option Double) : Bool :=
  (xs.drop (Number.relativeIndex start xs.length 0)).any (·.sameValueZero target)

end ScriptBridge.Sequence
