import ScriptBridge.Proofs.Positions
import ScriptBridge.Sequence.Method

/-!
What a splice does, for every start and count: the elements in one range, which lies inside the
sequence, give way to the items, and become a sequence of their own. Spliced back in, they make the
sequence what it was.
-/

namespace ScriptBridge.Sequence

/-- The number of elements a splice removes of those that are left from its start on. -/
def removal (count : Option Double) (left : Nat) : Nat :=
  match count with
  | none => left
  | some x => Number.clamped x left

theorem removal_le (count : Option Double) (left : Nat) : removal count left ≤ left := by
  cases count with
  | none => exact Nat.le_refl left
  | some x => exact Number.clamped_le x left

section Lists

variable {α : Type} {xs : List α}

theorem splice_eq (start : Double) (count : Option Double) (items : List α)
    (small : xs.length ≤ 2 ^ 53) :
    splice xs start count items =
      let first := Number.position start xs.length
      let removed := removal count (xs.length - first)
      ((xs.drop first).take removed, xs.take first ++ items ++ xs.drop (first + removed)) := by
  have counted (first : Nat) :
      spliceCount xs.length first count = removal count (xs.length - first) := by
    cases count with
    | none => rfl
    | some x => exact Number.toWord_clamped x (Nat.le_trans (Nat.sub_le _ _) small)
  rw [splice, Number.relativeIndex_some start small]
  dsimp only
  rw [counted]

/-- What was removed is put back in for the items that it gave way to. -/
theorem splice_back {front items : List α} (back removed : List α) (small : front.length ≤ 2 ^ 53)
    (fits : Representable (items.length * Double.one)) (short : items.length < 2 ^ 64) :
    splice (front ++ items ++ back) (.ofNat front.length) (some (.ofNat items.length)) removed =
      (items, front ++ removed ++ back) := by
  have length : (front ++ items ++ back).length = front.length + items.length + back.length := by
    rw [List.length_append, List.length_append]
  have first : Number.relativeIndex (some (.ofNat front.length)) (front ++ items ++ back).length 0 =
      front.length := by
    refine Number.relativeIndex_ofNat small ?_ 0
    omega
  have counted : spliceCount (front ++ items ++ back).length front.length
      (some (.ofNat items.length)) = items.length := by
    unfold spliceCount
    dsimp only
    rw [Number.toIntegerOrInfinity_ofNat fits, Double.max, if_neg (Number.not_ofNat_lt_zero fits)]
    refine Number.toWord_min_whole fits ?_ short
    omega
  have inside : ((front ++ items ++ back).drop front.length).take items.length = items := by
    rw [List.append_assoc, List.drop_left, List.take_left]
  have before : (front ++ items ++ back).take front.length = front := by
    rw [List.append_assoc, List.take_left]
  have after : (front ++ items ++ back).drop (front.length + items.length) = back := by
    rw [← List.length_append, List.drop_left]
  rw [splice, first, counted, inside, before, after]

end Lists

/-- A sequence has new elements, others are those of a sequence that was not there, and no other
sequence is any different. -/
structure Replaced (s : SequenceId) (elements removed : List Value) (w : World)
    (copy : SequenceId) (w' : World) : Prop where
  own : w'.heap.sequence s = elements
  fresh : copy.index = w.heap.sequences.size
  grows : w'.heap.sequences.size = w.heap.sequences.size + 1
  taken : w'.heap.sequence copy = removed
  others : ∀ t : SequenceId, t.index < w.heap.sequences.size → t ≠ s →
    w'.heap.sequence t = w.heap.sequence t

theorem spliceInPlace_replaces {w : World} {s : SequenceId} (made : s.index < w.heap.sequences.size)
    {start : Double} {count : Option Double} {items elements removed : List Value}
    (spliced : splice (w.heap.sequence s) start count items = (removed, elements)) :
    ∃ copy w', spliceInPlace s start count items w = (.value (.sequence copy), w') ∧
      Replaced s elements removed w copy w' := by
  have run : spliceInPlace s start count items w =
      (.value (.sequence (w.heap.setSequence s elements).nextSequence),
        { w with heap := (w.heap.setSequence s elements).pushSequence removed }) := by
    rw [spliceInPlace, Act.bind_of_value (x := Act.elements s) rfl, spliced]
    rfl
  have size : (w.heap.setSequence s elements).sequences.size = w.heap.sequences.size :=
    Arena.size_set _ _ _
  have there : s.index < (w.heap.setSequence s elements).sequences.size := by rwa [size]
  refine ⟨_, _, run, ?_⟩
  constructor
  case own =>
    exact (Heap.sequence_pushSequence_of_lt there removed).trans
      (Heap.sequence_setSequence_self made elements)
  case fresh => exact size
  case grows => exact (Arena.size_push _ _).trans (congrArg (· + 1) size)
  case taken => exact Heap.sequence_pushSequence_next _ removed
  case others =>
    intro t old other
    exact (Heap.sequence_pushSequence_of_lt (by rwa [size]) removed).trans
      (Heap.sequence_setSequence_of_ne _ other.symm elements)

/-- A call splices as the numbers of its first two arguments say; what follows them is put in. -/
theorem callValue_splice_cons (r : Reentry) (s : SequenceId) (start : Value) (args : List Value)
    (w : World) :
    callValue r s .splice (start :: args) w =
      spliceInPlace s (w.heap.number start) (args.head?.map w.heap.number) (args.drop 1) w := by
  cases args <;> rfl

/-- A splice of a sequence of at most 2^53 elements replaces exactly the elements in its range,
which lies inside the sequence, and gives them in a new sequence. Splicing these elements back in
for the items restores the sequence, wherever the number of items is a double and fits a word. -/
theorem splice_replaces_range {w : World} {s : SequenceId}
    (made : s.index < w.heap.sequences.size) (small : (w.heap.sequence s).length ≤ 2 ^ 53)
    (start : Double) (count : Option Double) (items : List Value) :
    let xs := w.heap.sequence s
    let first := Number.position start xs.length
    let removed := removal count (xs.length - first)
    first + removed ≤ xs.length ∧
      ∃ copy w', spliceInPlace s start count items w = (.value (.sequence copy), w') ∧
        Replaced s (xs.take first ++ items ++ xs.drop (first + removed))
          ((xs.drop first).take removed) w copy w' ∧
        (Representable (items.length * Double.one) → items.length < 2 ^ 64 →
          ∃ copy' w'', spliceInPlace s (.ofNat first) (some (.ofNat items.length))
              ((xs.drop first).take removed) w' = (.value (.sequence copy'), w'') ∧
            Replaced s xs items w' copy' w'') := by
  intro xs first removed
  have inside : first ≤ xs.length := Number.position_le start xs.length
  have left : removed ≤ xs.length - first := removal_le count _
  have spliced := splice_eq start count items small
  obtain ⟨copy, w', run, replaced⟩ := spliceInPlace_replaces made spliced
  refine ⟨by omega, copy, w', run, replaced, ?_⟩
  intro fits short
  apply spliceInPlace_replaces
  case made =>
    rw [replaced.grows]
    exact Nat.lt_succ_of_lt made
  case spliced =>
    have front : (xs.take first).length = first := by
      rw [List.length_take]
      exact Nat.min_eq_left inside
    have restored : xs.take first ++ (xs.drop first).take removed ++ xs.drop (first + removed) =
        xs := by
      rw [List.append_assoc, ← List.drop_drop, List.take_append_drop, List.take_append_drop]
    have back := splice_back (xs.drop (first + removed)) ((xs.drop first).take removed)
      (Nat.le_trans (Nat.le_of_eq front) (Nat.le_trans inside small)) fits short
    rw [front, restored] at back
    rw [replaced.own]
    exact back

/-- A sequence put into itself for the second of three elements, and taken out again. -/
theorem splice_replaces_range_itself :
    let w : World := { heap := Heap.pushSequence {} [.null, .bool true, .undefined] }
    ∃ copy w', spliceInPlace ⟨0⟩ (.ofInt (-2)) (some (.ofNat 1)) [.sequence ⟨0⟩] w =
        (.value (.sequence copy), w') ∧
      w'.heap.sequence ⟨0⟩ = [.null, .sequence ⟨0⟩, .undefined] ∧
      w'.heap.sequence copy = [.bool true] ∧
      ∃ copy' w'', spliceInPlace ⟨0⟩ (.ofNat 1) (some (.ofNat 1)) [.bool true] w' =
          (.value (.sequence copy'), w'') ∧
        w''.heap.sequence ⟨0⟩ = [.null, .bool true, .undefined] := by
  intro w
  have first : Number.position (.ofInt (-2)) 3 = 1 := by
    rw [Number.position, Double.toInt_ofInt (by decide)]
    rfl
  have removed : removal (some (.ofNat 1)) (3 - 1) = 1 := by
    rw [removal, Double.ofNat_eq (by decide), Number.clamped_finite, Double.whole_div]
    rfl
  have three : (w.heap.sequence ⟨0⟩).length = 3 := rfl
  obtain ⟨-, copy, w', run, replaced, back⟩ := splice_replaces_range (w := w) (s := ⟨0⟩)
    Nat.zero_lt_one (by rw [three]; decide) (.ofInt (-2)) (some (.ofNat 1)) [.sequence ⟨0⟩]
  rw [three, first, removed] at replaced back
  obtain ⟨copy', w'', run', restored⟩ :=
    back (Double.representable_whole (n := [Value.sequence ⟨0⟩].length) (by decide)) (by decide)
  exact ⟨copy, w', run, replaced.own, replaced.taken, copy', w'', run', restored.own⟩

end ScriptBridge.Sequence
