import ScriptBridge.World.Act

/-!
Walks over a list that may change between steps. The length is read once, an element when its turn
comes. The functions are written over any monad: `at?` reads a position, `visit` is the callback.
-/

namespace ScriptBridge.Sequence

variable {m : Type → Type} [Monad m] {α β : Type}

/-- Steps through positions `index`, `index + 1`, … as long as there are elements and `step` says to
go on; `left` positions remain. -/
def walkFrom (at? : Nat → m (Option α)) (step : β → Nat → α → m (β × Bool)) (state : β)
    (index : Nat) : Nat → m β
  | 0 => pure state
  | left + 1 => do
    match ← at? index with
    | none => pure state
    | some x =>
      let (state, goOn) ← step state index x
      if goOn then walkFrom at? step state (index + 1) left else pure state

/-- Walks over the first `length` positions, stopping at the first that is missing. -/
def walk (at? : Nat → m (Option α)) (length : Nat) (start : β)
    (step : β → Nat → α → m (β × Bool)) : m β :=
  walkFrom at? step start 0 length

def forEach (at? : Nat → m (Option α)) (length : Nat) (visit : α → Nat → m Unit) : m Unit :=
  walk at? length () fun _ i x => do
    visit x i
    pure ((), true)

def map (at? : Nat → m (Option α)) (length : Nat) (visit : α → Nat → m β) : m (List β) :=
  walk at? length [] fun out i x => do
    let y ← visit x i
    pure (out ++ [y], true)

/-- The elements, as they were before their own call, for which the callback says yes. -/
def filter (at? : Nat → m (Option α)) (length : Nat) (visit : α → Nat → m Bool) : m (List α) :=
  walk at? length [] fun out i x => do
    let keep ← visit x i
    pure (if keep then out ++ [x] else out, true)

/-- Whether the callback says yes to an element; it is not asked further. -/
def any (at? : Nat → m (Option α)) (length : Nat) (visit : α → Nat → m Bool) : m Bool :=
  walk at? length false fun _ i x => do
    let found ← visit x i
    pure (found, !found)

/-- Whether the callback says yes to all elements; it is not asked further. -/
def every (at? : Nat → m (Option α)) (length : Nat) (visit : α → Nat → m Bool) : m Bool :=
  walk at? length true fun _ i x => do
    let holds ← visit x i
    pure (holds, holds)

/-- The callback's results, each a list, in one list. -/
def flatMap (at? : Nat → m (Option α)) (length : Nat) (visit : α → Nat → m (List β)) :
    m (List β) :=
  walk at? length [] fun out i x => do
    let ys ← visit x i
    pure (out ++ ys, true)

/-- Visits every position, a missing one as `default`, until the callback says yes. -/
def findFrom (at? : Nat → m (Option α)) (default : α) (visit : α → Nat → m Bool)
    (index : Nat) : Nat → m (Option (Nat × α))
  | 0 => pure none
  | left + 1 => do
    let x := (← at? index).getD default
    if ← visit x index then pure (some (index, x))
    else findFrom at? default visit (index + 1) left

def find (at? : Nat → m (Option α)) (default : α) (length : Nat) (visit : α → Nat → m Bool) :
    m (Option (Nat × α)) :=
  findFrom at? default visit 0 length

/-- Folds over positions in a given order, skipping those that are missing at their turn. -/
def foldOver (at? : Nat → m (Option α)) (visit : β → α → Nat → m β) (acc : β) :
    List Nat → m β
  | [] => pure acc
  | i :: rest => do
    match ← at? i with
    | none => foldOver at? visit acc rest
    | some x =>
      let acc ← visit acc x i
      foldOver at? visit acc rest

/-- Folds with the first position's element as the start where none is given; `none` when there is
no such element. -/
def fold (at? : Nat → m (Option α)) (visit : α → α → Nat → m α) (start : Option α)
    (positions : List Nat) : m (Option α) := do
  match start with
  | some a => some <$> foldOver at? visit a positions
  | none =>
    match positions with
    | [] => pure none
    | i :: rest =>
      match ← at? i with
      | none => pure none
      | some a => some <$> foldOver at? visit a rest

end ScriptBridge.Sequence
