import Mathlib.Data.List.Basic
import ScriptBridge.Sequence.Sort

/-!
Sorting. A comparison may be inconsistent, have effects or fail: the sorted list is a permutation of
the given one all the same, and only elements of that list are compared.
-/

namespace ScriptBridge

/-! ### Results of computations -/

/-- A way to say what holds of the result of a computation, whatever else it does. -/
structure Postcondition (m : Type → Type) [Monad m] where
  holds {α : Type} (P : α → Prop) (x : m α) : Prop
  pure {α : Type} {P : α → Prop} {a : α} (h : P a) : holds P (Pure.pure a)
  bind {α β : Type} {P : α → Prop} {Q : β → Prop} {x : m α} {f : α → m β} (hx : holds P x)
    (hf : ∀ a, P a → holds Q (f a)) : holds Q (x >>= f)

def Postcondition.ofPure : Postcondition Id where
  holds P x := P x.run
  pure h := h
  bind hx hf := hf _ hx

namespace Sequence

open scoped List

/-! ### Merge sort -/

section MergeSort

variable {m : Type → Type} [Monad m] {α : Type} {L : Postcondition m} {S : α → Prop}
  {after : α → α → m Bool}

theorem merge_perm (asks : ∀ x y, S x → S y → L.holds (fun _ => True) (after x y))
    {left right target : List α} (inLeft : ∀ x ∈ left, S x) (inRight : ∀ x ∈ right, S x)
    (perm : (left ++ right).Perm target) : L.holds (·.Perm target) (merge after left right) := by
  fun_induction merge after left right generalizing target with
  | case1 right => exact L.pure perm
  | case2 left =>
    rw [List.append_nil] at perm
    exact L.pure perm
  | case3 l left r right ihRight ihLeft =>
    have asked := asks l r (inLeft l List.mem_cons_self) (inRight r List.mem_cons_self)
    refine L.bind asked fun behind _ => ?_
    split
    · refine L.bind (ihRight inLeft (fun x mem => inRight x (List.mem_cons_of_mem r mem)) .rfl) ?_
      intro rest arranged
      apply L.pure
      calc r :: rest
        _ ~ r :: (l :: left ++ right) := arranged.cons r
        _ ~ l :: left ++ r :: right := List.perm_middle.symm
        _ ~ target := perm
    · refine L.bind (ihLeft (fun x mem => inLeft x (List.mem_cons_of_mem l mem)) inRight .rfl) ?_
      intro rest arranged
      apply L.pure
      exact (arranged.cons l).trans perm

theorem forall_mem_parts {xs : List α} (inside : ∀ x ∈ xs, S x) (n : Nat) :
    (∀ x ∈ xs.take n, S x) ∧ ∀ x ∈ xs.drop n, S x :=
  ⟨fun x mem => inside x (List.mem_of_mem_take mem),
    fun x mem => inside x (List.mem_of_mem_drop mem)⟩

theorem mergeSort_perm (asks : ∀ x y, S x → S y → L.holds (fun _ => True) (after x y))
    {xs : List α} (inside : ∀ x ∈ xs, S x) : L.holds (·.Perm xs) (mergeSort after xs) := by
  fun_induction mergeSort after xs with
  | case1 xs => exact L.pure .rfl
  | case2 xs _ ihLeft ihRight =>
    obtain ⟨inLeft, inRight⟩ := forall_mem_parts inside (xs.length / 2)
    refine L.bind (ihLeft inLeft) fun left arrangedLeft => ?_
    refine L.bind (ihRight inRight) fun right arrangedRight => ?_
    have perm := arrangedLeft.append arrangedRight
    rw [List.take_append_drop] at perm
    exact merge_perm asks (fun x mem => inLeft x (arrangedLeft.mem_iff.1 mem))
      (fun x mem => inRight x (arrangedRight.mem_iff.1 mem)) perm

end MergeSort

/-! ### Arrangements -/

/-- The values of a list in some order, the undefined ones last. -/
structure Arranges (items sorted : List Value) : Prop where
  perm : sorted.Perm items
  undefinedLast : sorted.Pairwise fun a b => a.isUndefined → b.isUndefined

theorem Arranges.of_front {items front : List Value}
    (perm : front.Perm (items.filter (!·.isUndefined))) :
    Arranges items (front ++ items.filter (·.isUndefined)) where
  perm := calc front ++ items.filter (·.isUndefined)
    _ ~ items.filter (!·.isUndefined) ++ items.filter (·.isUndefined) := perm.append_right _
    _ ~ items.filter (·.isUndefined) ++ items.filter (!·.isUndefined) := List.perm_append_comm
    _ ~ items := List.filter_append_perm _ _
  undefinedLast := by
    have defined : ∀ v ∈ front, v.isUndefined = false := by
      intro v mem
      simpa using (List.mem_filter.1 (perm.mem_iff.1 mem)).2
    have undefined : ∀ v ∈ items.filter (·.isUndefined), v.isUndefined := by
      intro v mem
      exact (List.mem_filter.1 mem).2
    refine List.pairwise_append.2 ⟨?_, ?_, ?_⟩
    · refine List.pairwise_of_forall_mem_list fun a ma b _ => ?_
      simp [defined a ma]
    · exact List.pairwise_of_forall_mem_list fun a _ b mb _ => undefined b mb
    · exact fun a _ b mb _ => undefined b mb

/-- Only defined values of the list are compared. -/
theorem sortDefined_arranges {m : Type → Type} [Monad m] {L : Postcondition m} {items : List Value}
    {after : Value → Value → m Bool}
    (asks : ∀ a ∈ items, ∀ b ∈ items, a.isUndefined = false → b.isUndefined = false →
      L.holds (fun _ => True) (after a b)) :
    L.holds (Arranges items) (sortDefined after items) := by
  refine L.bind (mergeSort_perm (S := fun v => v ∈ items ∧ v.isUndefined = false) ?_ ?_) ?_
  · rintro a b ⟨ma, da⟩ ⟨mb, db⟩
    exact asks a ma b mb da db
  · intro v mem
    simpa using mem
  · exact fun front perm => L.pure (.of_front perm)

theorem sortByText_arranges (key : Value → Utf16) (items : List Value) :
    Arranges items (sortByText key items) := by
  let keyed := (items.filter (!·.isUndefined)).map fun v => (key v, v)
  let sorted : Id _ := mergeSort (fun a b => pure (b.1.lt a.1)) keyed
  have perm : sorted.run.Perm keyed :=
    mergeSort_perm (L := .ofPure) (S := fun _ => True) (fun _ _ _ _ => trivial) fun _ _ => trivial
  have values : keyed.map Prod.snd = items.filter (!·.isUndefined) := by
    rw [List.map_map]
    exact List.map_id _
  have back := perm.map Prod.snd
  rw [values] at back
  exact .of_front back

end Sequence

end ScriptBridge
