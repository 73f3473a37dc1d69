import ScriptBridge.Proofs.Copies
import ScriptBridge.Proofs.Positions

/-!
Operations on a range of a sequence, for all numbers that its ends may be given by: which elements
are taken, which slots are written and with what, and that nothing else is read or written.
-/

namespace ScriptBridge.Sequence

open Number (positionOr)

section Lists

variable {α : Type} {xs ys : List α} {first last count : Nat} {source source' : Nat → Option α}

/-- The elements of a list from position `first` to before `last`, in order. -/
structure Cut (xs : List α) (first last : Nat) (ys : List α) : Prop where
  length : ys.length = last - first
  taken : ∀ j < last - first, ys[j]? = xs[first + j]?

/-- A list with `count` slots written from position `first` on; all others are as they were. -/
structure Overwritten (xs : List α) (first count : Nat) (source : Nat → Option α)
    (ys : List α) : Prop where
  length : ys.length = xs.length
  inside : ∀ j < count, ys[first + j]? = source j
  outside : ∀ i, i < first ∨ first + count ≤ i → ys[i]? = xs[i]?

theorem Overwritten.nothing (xs : List α) (first : Nat) (source : Nat → Option α) :
    Overwritten xs first 0 source xs :=
  ⟨rfl, fun _ none => absurd none (Nat.not_lt_zero _), fun _ _ => rfl⟩

theorem Overwritten.congr (h : Overwritten xs first count source ys)
    (same : ∀ j < count, source j = source' j) : Overwritten xs first count source' ys :=
  ⟨h.length, fun j less => (h.inside j less).trans (same j less), h.outside⟩

/-- A piece put in the place of as many elements. -/
theorem overwritten_of_parts (piece : List α) (room : first + piece.length ≤ xs.length) :
    Overwritten xs first piece.length (piece[·]?)
      (xs.take first ++ piece ++ xs.drop (first + piece.length)) := by
  have front : (xs.take first).length = first := by
    rw [List.length_take]
    omega
  constructor
  case length =>
    rw [List.length_append, List.length_append, front, List.length_drop]
    omega
  case inside =>
    intro j less
    rw [List.append_assoc, List.getElem?_append_right (by omega), front, Nat.add_sub_cancel_left,
      List.getElem?_append_left less]
  case outside =>
    intro i apart
    obtain before | after := apart
    · rw [List.append_assoc, List.getElem?_append_left (by omega), List.getElem?_take_of_lt before]
    · have both : (xs.take first ++ piece).length = first + piece.length := by
        rw [List.length_append, front]
      rw [List.getElem?_append_right (by omega), both, List.getElem?_drop,
        Nat.add_sub_cancel' after]

variable (start stop target : Option Double)

theorem slice_cut (small : xs.length ≤ 2 ^ 53) :
    Cut xs (positionOr start xs.length 0) (positionOr stop xs.length xs.length)
      (slice xs start stop) := by
  have last := Number.positionOr_le (Nat.le_refl xs.length) stop
  rw [slice, Number.relativeIndex_eq start small, Number.relativeIndex_eq stop small]
  constructor
  case length =>
    rw [List.length_drop, List.length_take, Nat.min_eq_left last]
  case taken =>
    intro j less
    rw [List.getElem?_drop, List.getElem?_take_of_lt (by omega)]

theorem fill_overwrites (value : α) (small : xs.length ≤ 2 ^ 53) :
    let first := positionOr start xs.length 0
    let last := positionOr stop xs.length xs.length
    Overwritten xs first (last - first) (fun _ => some value) (fill xs value start stop) := by
  intro first last
  have inside : last ≤ xs.length := Number.positionOr_le (Nat.le_refl xs.length) stop
  rw [fill, Number.relativeIndex_eq start small, Number.relativeIndex_eq stop small]
  by_cases some : first < last
  · have piece : (List.replicate (last - first) value).length = last - first :=
      List.length_replicate
    have written : Overwritten xs first _ _ _ :=
      overwritten_of_parts (List.replicate (last - first) value) (by omega)
    rw [piece, Nat.add_sub_cancel' some.le] at written
    rw [if_pos some]
    refine written.congr fun j less => ?_
    rw [List.getElem?_replicate, if_pos less]
  · rw [if_neg some, Nat.sub_eq_zero_of_le (Nat.le_of_not_lt some)]
    exact .nothing xs first _

/-- The elements are taken before the first slot is written, so the ranges may overlap. -/
theorem copyWithin_overwrites (small : xs.length ≤ 2 ^ 53) :
    let onto := positionOr target xs.length 0
    let first := positionOr start xs.length 0
    let last := positionOr stop xs.length xs.length
    Overwritten xs onto (min (last - first) (xs.length - onto)) (fun j => xs[first + j]?)
      (copyWithin xs target start stop) := by
  intro onto first last
  have there : onto ≤ xs.length := Number.positionOr_le (Nat.zero_le _) target
  have inside : last ≤ xs.length := Number.positionOr_le (Nat.le_refl xs.length) stop
  rw [copyWithin, Number.relativeIndex_eq target small, Number.relativeIndex_eq start small,
    Number.relativeIndex_eq stop small]
  generalize count_eq : min (last - first) (xs.length - onto) = count
  have piece : ((xs.drop first).take count).length = count := by
    rw [List.length_take, List.length_drop]
    omega
  have written : Overwritten xs onto _ _ _ :=
    overwritten_of_parts ((xs.drop first).take count) (by omega)
  rw [piece] at written
  refine written.congr fun j less => ?_
  rw [List.getElem?_take_of_lt less, List.getElem?_drop]

end Lists

/-! ### Calls -/

/-- The number of an argument; a missing one has none. -/
def numberOf (w : World) (args : List Value) (i : Nat) : Option Double :=
  args[i]?.map w.heap.number

/-- The number of an argument that ends a range; undefined counts as missing. -/
def boundOf (w : World) (args : List Value) (i : Nat) : Option Double :=
  (args[i]?.filter (!·.isUndefined)).map w.heap.number

/-- A call answers a new sequence of the given elements, and no sequence is any different. -/
def AnswersNew (items : List Value) (w : World) (ran : Outcome Error Answer × World) : Prop :=
  ∃ copy w', ran = (.value (.value (.sequence copy)), w') ∧
    w.heap.sequences.size ≤ copy.index ∧ w'.heap.sequence copy = items ∧
    ∀ t : SequenceId, t.index < w.heap.sequences.size → w'.heap.sequence t = w.heap.sequence t

/-- A call answers the sequence itself, which has the given elements then, and no other sequence is
any different. -/
def AnswersItself (s : SequenceId) (items : List Value) (w : World)
    (ran : Outcome Error Answer × World) : Prop :=
  ∃ w', ran = (.value (.value (.sequence s)), w') ∧ w'.heap.sequence s = items ∧
    ∀ t : SequenceId, t ≠ s → w'.heap.sequence t = w.heap.sequence t

theorem answersNew_pushSequence (items : List Value) (w : World) :
    AnswersNew items w (.value (.value (.sequence w.heap.nextSequence)),
      { w with heap := w.heap.pushSequence items }) :=
  ⟨_, _, rfl, Nat.le_refl _, w.heap.sequence_pushSequence_next items,
    fun _ made => Heap.sequence_pushSequence_of_lt made items⟩

theorem answersItself_setSequence {s : SequenceId} {w : World}
    (made : s.index < w.heap.sequences.size) (items : List Value) :
    AnswersItself s items w (.value (.value (.sequence s)),
      { w with heap := w.heap.setSequence s items }) :=
  ⟨_, rfl, Heap.sequence_setSequence_self made items,
    fun _ other => w.heap.sequence_setSequence_of_ne other.symm items⟩

/-- In a sequence of at most 2^53 elements, the ends of a range are where exact arithmetic on the
given numbers puts them, inside the sequence. Exactly the elements in the range are taken into a new
sequence, overwritten, or copied to another place in the same sequence. -/
theorem ranges_follow_positions {w : World} {s : SequenceId}
    (made : s.index < w.heap.sequences.size) (small : (w.heap.sequence s).length ≤ 2 ^ 53) :
    let xs := w.heap.sequence s
    let n := xs.length
    (∀ target start stop value,
      let onto := positionOr target n 0
      let first := positionOr start n 0
      let last := positionOr stop n n
      let count := min (last - first) (n - onto)
      (last ≤ n ∧ first + count ≤ n ∧ onto + count ≤ n) ∧
      Cut xs first last (slice xs start stop) ∧
      Overwritten xs first (last - first) (fun _ => some value) (fill xs value start stop) ∧
      Overwritten xs onto count (fun j => xs[first + j]?) (copyWithin xs target start stop)) ∧
    ∀ r args,
      AnswersNew (slice xs (numberOf w args 0) (boundOf w args 1)) w (call r s .slice args w) ∧
      AnswersItself s (fill xs (arg args 0) (numberOf w args 1) (boundOf w args 2)) w
        (call r s .fill args w) ∧
      AnswersItself s
        (copyWithin xs (numberOf w args 0) (numberOf w args 1) (boundOf w args 2)) w
        (call r s .copyWithin args w) := by
  intro xs n
  constructor
  · intro target start stop value onto first last count
    have there : onto ≤ n := Number.positionOr_le (Nat.zero_le _) target
    have begins : first ≤ n := Number.positionOr_le (Nat.zero_le _) start
    have inside : last ≤ n := Number.positionOr_le (Nat.le_refl _) stop
    refine ⟨by omega, ?_, ?_, ?_⟩
    · exact slice_cut start stop small
    · exact fill_overwrites start stop value small
    · exact copyWithin_overwrites start stop target small
  · intro r args
    exact ⟨answersNew_pushSequence _ w, answersItself_setSequence made _,
      answersItself_setSequence made _⟩

/-- Two of three elements copied one place on, over the second of them. -/
theorem ranges_follow_positions_overlapping :
    let w : World := { heap := Heap.pushSequence {} [.null, .bool true, .undefined] }
    AnswersItself ⟨0⟩ [.null, .null, .bool true] w
      (call .cutting ⟨0⟩ .copyWithin [.number (.ofInt (-2)), .number .nan] w) := by
  intro w
  have three : (w.heap.sequence ⟨0⟩).length = 3 := rfl
  obtain ⟨lists, calls⟩ := ranges_follow_positions (w := w) (s := ⟨0⟩) Nat.zero_lt_one
    (by rw [three]; decide)
  obtain ⟨-, -, -, length, inside, outside⟩ := lists (some (.ofInt (-2))) (some .nan) none .null
  obtain ⟨-, -, copies⟩ := calls .cutting [.number (.ofInt (-2)), .number .nan]
  have onto : positionOr (some (.ofInt (-2))) 3 0 = 1 := by
    rw [positionOr, Number.position, Double.toInt_ofInt (by decide)]
    rfl
  rw [three, onto] at inside outside
  have elements : copyWithin (w.heap.sequence ⟨0⟩) (some (.ofInt (-2))) (some .nan) none =
      [.null, .null, .bool true] := by
    apply List.ext_getElem?
    intro i
    obtain _ | _ | _ | i := i
    · exact outside 0 (.inl Nat.zero_lt_one)
    · exact inside 0 (by decide)
    · exact inside 1 (by decide)
    · exact outside (i + 3) (.inr (Nat.le_add_left 3 i))
  rwa [← elements]

end ScriptBridge.Sequence
