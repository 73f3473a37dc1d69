import ScriptBridge.Double.Basic

/-!
Numbers as positions in a sequence.
-/

namespace ScriptBridge.Number

/-- Drops the fraction; not-a-number becomes zero. -/
def toIntegerOrInfinity (x : Double) : Double := if x.isNaN then Double.zero false else x.trunc

/-- A position given relative to a length: a negative one counts from the end, the result lies
between 0 and the length, and a missing one is `default`. -/
def relativeIndex (argument : Option Double) (length default : Nat) : Nat :=
  match argument with
  | none => default
  | some raw =>
    let relative := toIntegerOrInfinity raw
    if relative.lt (.zero false) then
      (((Double.ofNat length).add relative).max (.zero false)).toWord 64
    else (relative.min (Double.ofNat length)).toWord 64

/-- The largest length of a sequence. -/
def lengthLimit : Nat := 2 ^ 32 - 1

/-- The length a number stands for, if it is a whole number in range. -/
def arrayLength? (x : Double) : Option Nat :=
  if x.isIntegral && !x.lt (.zero false) && decide (x.magnitude ≤ lengthLimit) then
    some x.magnitude
  else none

end ScriptBridge.Number
