import ScriptBridge.Number.Index

/-!
Operations on a range of a list, its ends given by numbers relative to the length.
-/

namespace ScriptBridge.Sequence

open Number (relativeIndex)

variable {α : Type}

/-- The elements from `start` up to `stop`. -/
def slice (xs : List α) (start stop : Option Double) : List α :=
  let first := relativeIndex start xs.length 0
  let last := relativeIndex stop xs.length xs.length
  (xs.take last).drop first

/-- Overwrites the elements from `start` up to `stop`. -/
def fill (xs : List α) (value : α) (start stop : Option Double) : List α :=
  let first := relativeIndex start xs.length 0
  let last := relativeIndex stop xs.length xs.length
  if first < last then
    xs.take first ++ List.replicate (last - first) value ++ xs.drop last
  else xs

/-- Copies the elements from `start` up to `stop` onto those from `target`, as far as there is
room. -/
def copyWithin (xs : List α) (target start stop : Option Double) : List α :=
  let onto := relativeIndex target xs.length 0
  let first := relativeIndex start xs.length 0
  let last := relativeIndex stop xs.length xs.length
  let count := min (last - first) (xs.length - onto)
  xs.take onto ++ (xs.drop first).take count ++ xs.drop (onto + count)

/-- The number of elements a splice at `start` removes: all that remain where no count is given. -/
def spliceCount (length start : Nat) (count : Option Double) : Nat :=
  match count with
  | none => length - start
  | some raw =>
    (((Number.toIntegerOrInfinity raw).max (.zero false)).min (.ofNat (length - start))).toWord 64

/-- Replaces elements from `start` on by `items`: the elements removed, and the new list. -/
def splice (xs : List α) (start : Double) (count : Option Double) (items : List α) :
    List α × List α :=
  let first := relativeIndex (some start) xs.length 0
  let removed := spliceCount xs.length first count
  ((xs.drop first).take removed, xs.take first ++ items ++ xs.drop (first + removed))

def resize (xs : List α) (length : Nat) (filler : α) : List α :=
  xs.take length ++ List.replicate (length - xs.length) filler

/-- Writes a position, filling up to it where it lies past the end. -/
def write (xs : List α) (index : Nat) (value filler : α) : List α :=
  (resize xs (max xs.length (index + 1)) filler).set index value

end ScriptBridge.Sequence
