import ScriptBridge.Proofs.Numbers
import ScriptBridge.Sequence.Search

/-!
What searches find: forwards the first position from the start on, backwards the last one up to it,
whose element is strictly equal to the target.
-/

namespace ScriptBridge

namespace Sequence

/-! ### Where the backward search starts -/

theorem of_toIntegerOrInfinity_lt_zero {raw : Double}
    (h : (Number.toIntegerOrInfinity raw).lt (.zero false)) :
    Number.toIntegerOrInfinity raw = .infinity true ∨ ∃ m fits, 0 < m ∧
      Number.toIntegerOrInfinity raw = .finite true (m * Double.one) fits := by
  cases raw with
  | nan => cases h
  | infinity negative =>
    cases negative with
    | true => exact .inl rfl
    | false => cases h
  | finite negative units fits =>
    have below := (Number.toIntegerOrInfinity_lt_zero_iff negative fits).1 h
    cases negative with
    | false => exact absurd below (Int.not_lt.2 (Int.natCast_nonneg _))
    | true =>
      refine .inr ⟨_, _, ?_, Number.toIntegerOrInfinity_finite fits⟩
      rw [Double.toInt, Double.signed, if_pos rfl] at below
      generalize units / Double.one = k at below ⊢
      omega

/-- The backward search starts inside the list. -/
theorem lastStart?_lt {length last : Nat} {start : Option Double} (small : length ≤ 2 ^ 53)
    (h : lastStart? length start = some last) : last < length := by
  unfold lastStart? at h
  split at h
  · cases h
  rename_i some
  split at h
  · cases h
    omega
  rename_i raw
  simp only at h
  split at h
  · -- counted from the end
    rename_i negative
    split at h
    · cases h
    · rename_i inside
      obtain rfl := Option.some.inj h
      obtain infinite | ⟨m, fits, positive, whole⟩ := of_toIntegerOrInfinity_lt_zero negative
      · rw [infinite, Double.ofNat_eq small] at inside
        exact absurd rfl inside
      · rw [whole, Double.toWord_ofNat_add_negative small fits]
        omega
  · -- counted from the front, up to the last position
    obtain rfl := Option.some.inj h
    have one : Double.ofNat 1 = .finite false (1 * Double.one)
        (Double.representable_whole (by decide)) := Double.ofNat_eq (by decide)
    have largest : ((Double.ofNat length).sub (.ofNat 1)).toWord 64 = length - 1 := by
      rw [Double.sub, one]
      exact Double.toWord_ofNat_add_negative small _
    unfold Double.min
    split
    · have le := Double.toWord_le_of_lt ‹_› 64
      omega
    · omega

/-! ### Positions found -/

/-- A strictly equal element stands at a position. -/
def EqualAt (xs : List Value) (target : Value) (i : Nat) : Prop :=
  ∃ x, xs[i]? = some x ∧ x.strictEquals target

theorem findIdx?_eq_some_iff {xs : List Value} {target : Value} {i : Nat} :
    xs.findIdx? (·.strictEquals target) = some i ↔
      EqualAt xs target i ∧ ∀ j < i, ¬EqualAt xs target j := by
  rw [List.findIdx?_eq_some_iff_getElem]
  constructor
  · rintro ⟨inside, equal, first⟩
    refine ⟨⟨xs[i], List.getElem?_eq_getElem inside, equal⟩, ?_⟩
    rintro j before ⟨x, there, equal'⟩
    obtain ⟨_, rfl⟩ := List.getElem?_eq_some_iff.1 there
    exact first j before equal'
  · rintro ⟨⟨x, there, equal⟩, first⟩
    obtain ⟨inside, rfl⟩ := List.getElem?_eq_some_iff.1 there
    exact ⟨inside, equal, fun j before equal' =>
      first j before ⟨_, List.getElem?_eq_getElem (Nat.lt_trans before inside), equal'⟩⟩

theorem equalAt_drop {xs : List Value} {target : Value} {first i : Nat} :
    EqualAt (xs.drop first) target i ↔ EqualAt xs target (first + i) := by
  rw [EqualAt, EqualAt, List.getElem?_drop]

theorem equalAt_take_reverse {xs : List Value} {target : Value} {last i : Nat}
    (inside : last < xs.length) (le : i ≤ last) :
    EqualAt (xs.take (last + 1)).reverse target i ↔ EqualAt xs target (last - i) := by
  have length : (xs.take (last + 1)).length = last + 1 := by
    rw [List.length_take]
    omega
  rw [EqualAt, EqualAt, List.getElem?_reverse (by omega), length, Nat.add_sub_cancel,
    List.getElem?_take_of_lt (by omega)]

theorem lt_length_of_equalAt {xs : List Value} {target : Value} {i : Nat}
    (h : EqualAt xs target i) : i < xs.length := by
  obtain ⟨x, there, _⟩ := h
  exact (List.getElem?_eq_some_iff.1 there).1

theorem indexOf?_eq_some_iff {xs : List Value} {target : Value} {start : Option Double} {i : Nat} :
    indexOf? xs target start = some i ↔
      Number.relativeIndex start xs.length 0 ≤ i ∧ EqualAt xs target i ∧
        ∀ j, Number.relativeIndex start xs.length 0 ≤ j → j < i → ¬EqualAt xs target j := by
  unfold indexOf?
  generalize Number.relativeIndex start xs.length 0 = first
  simp only [Option.map_eq_some_iff, findIdx?_eq_some_iff, equalAt_drop]
  constructor
  · rintro ⟨n, ⟨equal, none⟩, rfl⟩
    refine ⟨Nat.le_add_right _ _, equal, fun j le lt => ?_⟩
    obtain ⟨m, rfl⟩ := Nat.exists_eq_add_of_le le
    exact none m (by omega)
  · rintro ⟨le, equal, none⟩
    obtain ⟨n, rfl⟩ := Nat.exists_eq_add_of_le le
    exact ⟨n, ⟨equal, fun m lt => none _ (by omega) (by omega)⟩, rfl⟩

theorem lastIndexOf?_eq_some_iff {xs : List Value} (small : xs.length ≤ 2 ^ 53) {target : Value}
    {start : Option Double} {i : Nat} :
    lastIndexOf? xs target start = some i ↔
      ∃ last, lastStart? xs.length start = some last ∧ i ≤ last ∧ EqualAt xs target i ∧
        ∀ j, i < j → j ≤ last → ¬EqualAt xs target j := by
  unfold lastIndexOf?
  simp only [Option.bind_eq_some_iff, Option.map_eq_some_iff, findIdx?_eq_some_iff]
  refine exists_congr fun last => and_congr_right fun starts => ?_
  have inside := lastStart?_lt small starts
  constructor
  · rintro ⟨n, ⟨equal, none⟩, rfl⟩
    have within := lt_length_of_equalAt equal
    rw [List.length_reverse, List.length_take] at within
    have le : n ≤ last := by omega
    refine ⟨Nat.sub_le _ _, (equalAt_take_reverse inside le).1 equal, fun j after le' there => ?_⟩
    refine none (last - j) (by omega) ((equalAt_take_reverse inside (by omega)).2 ?_)
    rwa [Nat.sub_sub_self le']
  · rintro ⟨le, equal, none⟩
    have back : EqualAt (xs.take (last + 1)).reverse target (last - i) := by
      rw [equalAt_take_reverse inside (Nat.sub_le _ _), Nat.sub_sub_self le]
      exact equal
    refine ⟨last - i, ⟨back, fun m lt there => ?_⟩, Nat.sub_sub_self le⟩
    exact none (last - m) (by omega) (Nat.sub_le _ _)
      ((equalAt_take_reverse inside (by omega)).1 there)

theorem includes_iff {xs : List Value} {target : Value} {start : Option Double} :
    includes xs target start ↔ ∃ i x, Number.relativeIndex start xs.length 0 ≤ i ∧
      xs[i]? = some x ∧ x.sameValueZero target := by
  unfold includes
  generalize Number.relativeIndex start xs.length 0 = first
  rw [List.any_eq_true]
  constructor
  · rintro ⟨x, mem, same⟩
    obtain ⟨n, there⟩ := List.mem_iff_getElem?.1 mem
    rw [List.getElem?_drop] at there
    exact ⟨first + n, x, Nat.le_add_right _ _, there, same⟩
  · rintro ⟨i, x, le, there, same⟩
    obtain ⟨n, rfl⟩ := Nat.exists_eq_add_of_le le
    rw [← List.getElem?_drop] at there
    exact ⟨x, List.mem_of_getElem? there, same⟩

end Sequence

end ScriptBridge
