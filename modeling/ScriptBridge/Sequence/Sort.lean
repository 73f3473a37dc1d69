import ScriptBridge.Text.Utf16
import ScriptBridge.World.Act

/-!
Stable sorting by a comparison that may have effects and may fail.
-/

namespace ScriptBridge.Sequence

variable {m : Type → Type} [Monad m] {α : Type}

/-- Merges two runs; an element of the right one goes first only when it is asked for and
found smaller. -/
def merge (after : α → α → m Bool) : List α → List α → m (List α)
  | [], right => pure right
  | left, [] => pure left
  | l :: left, r :: right => do
    if ← after l r then
      let rest ← merge after (l :: left) right
      pure (r :: rest)
    else
      let rest ← merge after left (r :: right)
      pure (l :: rest)
termination_by left right => left.length + right.length

/-- Stable merge sort; `after l r` says that `l` belongs behind `r`. The left half is sorted first. -/
def mergeSort (after : α → α → m Bool) (xs : List α) : m (List α) :=
  if _ : xs.length ≤ 1 then pure xs
  else do
    let left ← mergeSort after (xs.take (xs.length / 2))
    let right ← mergeSort after (xs.drop (xs.length / 2))
    merge after left right
termination_by xs.length
decreasing_by
  · simp only [List.length_take]; omega
  · simp only [List.length_drop]; omega

/-- Sorts all but the undefined values, which go last and are never compared. -/
def sortDefined (after : Value → Value → m Bool) (xs : List Value) : m (List Value) := do
  let sorted ← mergeSort after (xs.filter (!·.isUndefined))
  pure (sorted ++ xs.filter (·.isUndefined))

/-- Sorts by a comparison that gives a number: positive puts the first value behind. -/
def sortBy (compare : Value → Value → m Double) (xs : List Value) : m (List Value) :=
  sortDefined (fun a b => do return (Double.zero false).lt (← compare a b)) xs

/-- Sorts by the code units of texts. -/
def sortByText (key : Value → Utf16) (xs : List Value) : List Value :=
  let keyed := (xs.filter (!·.isUndefined)).map fun v => (key v, v)
  let sorted : Id _ := mergeSort (fun a b => pure (b.1.lt a.1)) keyed
  sorted.run.map Prod.snd ++ xs.filter (·.isUndefined)

/-- Puts a list over the front of another, which keeps what it has beyond. -/
def overwriteFront {α : Type} (front xs : List α) : List α := front ++ xs.drop front.length

end ScriptBridge.Sequence
