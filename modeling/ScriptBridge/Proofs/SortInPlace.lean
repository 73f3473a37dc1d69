import ScriptBridge.Proofs.CallbackMethods
import ScriptBridge.Proofs.Runs

/-!
Sorting in place. The elements are taken before the first comparison and put back after the last, so
what the comparisons do to the sequence meanwhile loses none of them.
-/

namespace ScriptBridge

namespace Ran

variable {C : HostAct Value → Prop}

theorem steps {w w' : World} (h : Ran C w w') : Steps w w' := by
  induction h with
  | refl w => exact .refl w
  | step _ here _ ih => exact (Act.steps_of here).trans ih

end Ran

namespace Sequence

/-- A call of the comparator for two of the elements, neither of them undefined. -/
inductive Compares (r : Reentry) (comparator : Option Callback) (items : List Value) :
    HostAct Value → Prop where
  | call {f : Callback} {a b : Value} (given : comparator = some f) (left : a ∈ items)
      (right : b ∈ items) (leftDefined : a.isUndefined = false)
      (rightDefined : b.isUndefined = false) :
    Compares r comparator items (Bridge.invoke r f .undefined [a, b])

/-! ### Sorting in place -/

/-- What sorting in place does once it has an arrangement of what the sequence held. -/
structure PutBack (s : SequenceId) (items sorted : List Value) (w w' : World) : Prop where
  arranges : Arranges items sorted
  front : (w'.heap.sequence s).take items.length = sorted
  beyond : ∀ i, items.length ≤ i → (w'.heap.sequence s)[i]? = (w.heap.sequence s)[i]?
  length : (w'.heap.sequence s).length = max items.length (w.heap.sequence s).length
  elsewhere : ∃ written, w' = { w with heap := w.heap.setSequence s written }

theorem putBack {s : SequenceId} {items sorted : List Value} {w : World}
    (arranges : Arranges items sorted) (made : s.index < w.heap.sequences.size) :
    PutBack s items sorted w
      { w with heap := w.heap.setSequence s (overwriteFront sorted (w.heap.sequence s)) } := by
  have same := arranges.perm.length_eq
  have written := Heap.sequence_setSequence_self made (overwriteFront sorted (w.heap.sequence s))
  refine ⟨arranges, ?_, ?_, ?_, _, rfl⟩
  · rw [written, overwriteFront, ← same, List.take_left]
  · intro i past
    rw [← same] at past
    rw [written, overwriteFront, List.getElem?_append_right past, List.getElem?_drop,
      Nat.add_sub_cancel' past]
  · rw [written, overwriteFront, List.length_append, List.length_drop, same]
    omega

section InPlace

variable {r : Reentry} {s : SequenceId} {args : List Value} {comparator : Option Callback}

theorem call_sort (passes : comparatorArg args = .ok comparator) (w : World) :
    call r s .sort args w =
      (arranged r comparator (w.heap.sequence s) >>= fun sorted => do
        Act.setElements s (overwriteFront sorted (← Act.elements s))
        return .value (.sequence s)) w := by
  have value : callValue r s .sort args =
      sortInPlace r s comparator >>= fun _ => pure (.sequence s) := by
    unfold callValue
    rw [passes]
    rfl
  change (callValue r s .sort args >>= fun v => pure (Answer.value v)) w = _
  rw [value, sortInPlace]
  simp only [bind_assoc, pure_bind]
  rfl

/-- Whatever the comparator does, sorting puts an arrangement of what the sequence held at the start
over the front of what the comparator left; where a comparison fails, it writes nothing. -/
theorem sort_rearranges_snapshot (passes : comparatorArg args = .ok comparator) {w : World}
    (made : s.index < w.heap.sequences.size) :
    (∀ answer w', call r s .sort args w = (.value answer, w') →
      answer = .value (.sequence s) ∧ ∃ sorted w₁,
        arranged r comparator (w.heap.sequence s) w = (.value sorted, w₁) ∧
        Ran (Compares r comparator (w.heap.sequence s)) w w₁ ∧
        PutBack s (w.heap.sequence s) sorted w₁ w') ∧
    (∀ e w', call r s .sort args w = (.failure e, w') → ∃ w₁ compare,
      Ran (Compares r comparator (w.heap.sequence s)) w w₁ ∧
      Compares r comparator (w.heap.sequence s) compare ∧ compare w₁ = (.failure e, w')) ∧
    ∀ w', call r s .sort args w = (.exhausted, w') → ∃ w₁ compare,
      Ran (Compares r comparator (w.heap.sequence s)) w w₁ ∧
      Compares r comparator (w.heap.sequence s) compare ∧ compare w₁ = (.exhausted, w') := by
  have makes : (arranged r comparator (w.heap.sequence s)).Makes
      (Compares r comparator (w.heap.sequence s)) (Arranges (w.heap.sequence s)) :=
    arranged_makes fun f given a ma b mb da db => .call given ma mb da db
  rw [call_sort passes w]
  refine ⟨fun answer w' gives => ?_, fun e w' fails => ?_, fun w' stuck => ?_⟩
  · obtain ⟨sorted, w₁, here, rest⟩ := Act.of_bind_value gives
    obtain ⟨arranges, ran⟩ := makes.value w sorted w₁ here
    cases rest
    have still := Nat.lt_of_lt_of_le made ran.steps.sequences_le
    exact ⟨rfl, sorted, w₁, here, ran, putBack arranges still⟩
  · cases Act.of_bind_failure fails with
    | inl here => exact makes.failure w e w' here
    | inr later =>
      obtain ⟨_, _, _, rest⟩ := later
      cases rest
  · cases Act.of_bind_exhausted stuck with
    | inl here => exact makes.exhausted w w' here
    | inr later =>
      obtain ⟨_, _, _, rest⟩ := later
      cases rest

end InPlace

end Sequence

/-- A comparator that leaves one element of a sequence does not take the others away: the two that
are compared and the undefined one are all put back. -/
theorem sort_rearranges_snapshot_cut :
    let args := [Value.function (.host ⟨0⟩)]
    let items := [Value.bool true, .null, .undefined]
    let w : World := { heap.sequences := Arena.empty.push items }
    Sequence.comparatorArg args = .ok (some (.host ⟨0⟩)) ∧ 0 < w.heap.sequences.size ∧
      ∃ w₁, w₁.heap.sequence ⟨0⟩ = [.null] ∧ Sequence.PutBack ⟨0⟩ items items w₁ w := by
  intro args items w
  have passes : Sequence.comparatorArg args = .ok (some (.host ⟨0⟩)) := rfl
  have made : 0 < w.heap.sequences.size := Nat.zero_lt_one
  let cut : World := { heap.sequences := Arena.empty.push [.null] }
  have sorts : Sequence.call .cutting ⟨0⟩ .sort args w = (.value (.value (.sequence ⟨0⟩)), w) := by
    cbv
  have arranges : Sequence.arranged .cutting (some (.host ⟨0⟩)) items w = (.value items, cut) := by
    cbv
  obtain ⟨done, _⟩ := Sequence.sort_rearranges_snapshot (r := .cutting) (s := ⟨0⟩) passes made
  obtain ⟨_, sorted, w₁, arranges', _, back⟩ := done _ _ sorts
  obtain ⟨rfl, rfl⟩ : items = sorted ∧ cut = w₁ := by
    have same := arranges.symm.trans arranges'
    exact ⟨Outcome.value.inj (Prod.mk.inj same).1, (Prod.mk.inj same).2⟩
  exact ⟨passes, made, cut, rfl, back⟩

end ScriptBridge
