import Mathlib.Data.Nat.SuccPred
import ScriptBridge.Proofs.Ranges
import ScriptBridge.Proofs.StrictEquality

/-!
Searches along a sequence, for all numbers that they may be told to start from: which positions they
come to, and which of those they answer.
-/

namespace ScriptBridge

/-! ### Where the backward search starts -/

namespace Double

theorem nearest_true_lt_zero {num : Nat} (some : 0 < num) :
    (nearest true num 1).lt (zero false) := by
  obtain ⟨units, rounds, made⟩ := nearest_rounds true num Nat.one_pos
  have positive : 2 ^ 0 ≤ units := by
    refine rounds.two_pow_le ?_
    rw [Nat.cast_one, div_one]
    exact_mod_cast some
  rw [made, ofUnits]
  split
  · refine decide_eq_true ?_
    rw [signed, if_pos rfl, signed_zero]
    omega
  · rfl

/-- Whether a whole number taken off one of up to 53 bits leaves less than nothing. -/
theorem add_negative_lt_zero_iff {n m : Nat} (small : n ≤ 2 ^ 53)
    (fits : Representable (m * one)) :
    ((ofNat n).add (.finite true (m * one) fits)).lt (zero false) ↔ n < m := by
  by_cases le : m ≤ n
  · obtain ⟨k, rfl⟩ := Nat.exists_eq_add_of_le le
    rw [ofNat_add_negative small]
    have least := Number.not_ofNat_lt_zero (representable_whole (show k ≤ 2 ^ 53 by omega))
    exact ⟨fun less => absurd less least, fun less => absurd less (Nat.not_lt_of_le le)⟩
  · have less : n * one < m * one := Nat.mul_lt_mul_of_pos_right (Nat.lt_of_not_le le) one_pos
    rw [ofNat_eq small]
    simp only [add, signed, Bool.false_eq_true, if_false, if_true]
    rw [if_neg (by omega), decide_eq_true (by omega)]
    exact ⟨fun _ => Nat.lt_of_not_le le, fun _ => nearest_true_lt_zero (by omega)⟩

end Double

namespace Number

/-- The last position that a search backwards may come to: the last one there is where no number is
given; a negative number counts from the end, and may lie before the beginning. -/
def lastPosition? (x : Option Double) (length : Nat) : Option Nat :=
  match x with
  | none => some (length - 1)
  | some (.infinity true) => none
  | some x =>
    if x.toInt < 0 then
      if length + x.toInt < 0 then none else some (length + x.toInt).toNat
    else some (clamped x (length - 1))

end Number

namespace Sequence

open Number (toIntegerOrInfinity lastPosition? positionOr)

variable {n : Nat}

theorem lastStart?_of_not_lt {x : Double} (small : n + 1 ≤ 2 ^ 53)
    (above : ¬(toIntegerOrInfinity x).lt (.zero false)) :
    lastStart? (n + 1) (some x) = some (Number.clamped x n) := by
  rw [lastStart?, if_neg (Nat.succ_ne_zero n)]
  dsimp only
  rw [if_neg above, Double.ofNat_sub_one small,
    Number.toWord_min_of_not_lt (Nat.le_of_succ_le small) above]

theorem lastStart?_of_lt {x : Double} (below : (toIntegerOrInfinity x).lt (.zero false)) :
    lastStart? (n + 1) (some x) =
      if ((Double.ofNat (n + 1)).add (toIntegerOrInfinity x)).lt (.zero false) then none
      else some (((Double.ofNat (n + 1)).add (toIntegerOrInfinity x)).toWord 64) := by
  rw [lastStart?, if_neg (Nat.succ_ne_zero n)]
  dsimp only
  rw [if_pos below]

theorem lastStart?_eq (small : n + 1 ≤ 2 ^ 53) (start : Option Double) :
    lastStart? (n + 1) start = lastPosition? start (n + 1) := by
  cases start with
  | none => rfl
  | some x =>
    cases x with
    | nan => exact lastStart?_of_not_lt small Bool.false_ne_true
    | infinity negative =>
      cases negative with
      | true =>
        rw [lastStart?_of_lt rfl, Double.ofNat_eq small]
        rfl
      | false => exact lastStart?_of_not_lt small Bool.false_ne_true
    | finite negative units fits =>
      have sign := Number.toIntegerOrInfinity_lt_zero_iff negative fits
      unfold lastPosition?
      dsimp only
      by_cases below : (Double.finite negative units fits).toInt < 0
      · rw [lastStart?_of_lt (sign.2 below), Number.toIntegerOrInfinity_finite, if_pos below]
        cases negative with
        | false => exact absurd below (Int.not_lt.2 (Int.natCast_nonneg _))
        | true =>
          simp only [Double.add_negative_lt_zero_iff small,
            Double.toWord_ofNat_add_negative small, Double.toInt, Double.signed, if_true]
          generalize units / Double.one = k
          by_cases before : n + 1 < k
          · rw [if_pos before, if_pos (by omega)]
          · rw [if_neg before, if_neg (by omega)]
            congr 1
            omega
      · rw [lastStart?_of_not_lt small (mt sign.1 below), if_neg below]
        rfl

/-! ### What searches find -/

/-- The best of the candidates is found, if there are any. -/
def Finds (Best : Set Nat → Nat → Prop) (candidates : Set Nat) : Option Nat → Prop
  | some i => Best candidates i
  | none => candidates = ∅

theorem Finds.eq_some {Best : Set Nat → Nat → Prop} {S : Set Nat} {found : Option Nat} {i : Nat}
    (h : Finds Best S found) (mem : i ∈ S) (best : ∀ j, Best S j → j = i) : found = some i := by
  cases found with
  | none => exact absurd mem (Set.eq_empty_iff_forall_notMem.1 h i)
  | some j => rw [best j h]

theorem Finds.eq_none {Best : Set Nat → Nat → Prop} {S : Set Nat} {found : Option Nat}
    (h : Finds Best S found) (inside : ∀ i, Best S i → i ∈ S) (nowhere : ∀ i, i ∉ S) :
    found = none := by
  cases found with
  | none => rfl
  | some i => exact absurd (inside i h) (nowhere i)

/-- The positions from where a search starts on whose elements are strictly equal to the target. -/
def candidates (xs : List Value) (target : Value) (start : Option Double) : Set Nat :=
  {i | positionOr start xs.length 0 ≤ i ∧ EqualAt xs target i}

/-- The positions up to where a search backwards starts whose elements are strictly equal to the
target. -/
def candidatesBack (xs : List Value) (target : Value) (start : Option Double) : Set Nat :=
  {i | (∃ last, lastPosition? start xs.length = some last ∧ i ≤ last) ∧ EqualAt xs target i}

section Lists

variable {xs : List Value} {target : Value} {start : Option Double}

theorem finds_indexOf? (small : xs.length ≤ 2 ^ 53) :
    Finds IsLeast (candidates xs target start) (indexOf? xs target start) := by
  have found (i : Nat) : indexOf? xs target start = some i ↔
      IsLeast (candidates xs target start) i := by
    rw [indexOf?_eq_some_iff, Number.relativeIndex_eq start small]
    constructor
    · rintro ⟨after, equal, first⟩
      refine ⟨⟨after, equal⟩, fun j there => Nat.le_of_not_lt fun less => ?_⟩
      exact first j there.1 less there.2
    · rintro ⟨⟨after, equal⟩, least⟩
      exact ⟨after, equal, fun j after' less there =>
        Nat.not_le_of_lt less (least ⟨after', there⟩)⟩
  cases result : indexOf? xs target start with
  | some i => exact (found i).1 result
  | none =>
    refine Set.not_nonempty_iff_eq_empty.1 fun some => ?_
    obtain ⟨i, least⟩ := (OrderBot.bddBelow _).exists_isLeast_of_nonempty some
    rw [(found i).2 least] at result
    cases result

theorem finds_lastIndexOf? (small : xs.length ≤ 2 ^ 53) :
    Finds IsGreatest (candidatesBack xs target start) (lastIndexOf? xs target start) := by
  have starts (i : Nat) (there : EqualAt xs target i) :
      lastStart? xs.length start = lastPosition? start xs.length := by
    have inside := lt_length_of_equalAt there
    obtain ⟨n, length⟩ : ∃ n, xs.length = n + 1 := ⟨xs.length - 1, by omega⟩
    rw [length] at small ⊢
    exact lastStart?_eq small start
  have found (i : Nat) : lastIndexOf? xs target start = some i ↔
      IsGreatest (candidatesBack xs target start) i := by
    rw [lastIndexOf?_eq_some_iff small]
    constructor
    · rintro ⟨last, begins, before, equal, greatest⟩
      rw [starts i equal] at begins
      refine ⟨⟨⟨last, begins, before⟩, equal⟩, fun j there => Nat.le_of_not_lt fun less => ?_⟩
      obtain ⟨⟨last', begins', before'⟩, equal'⟩ := there
      cases begins.symm.trans begins'
      exact greatest j less before' equal'
    · rintro ⟨⟨⟨last, begins, before⟩, equal⟩, greatest⟩
      refine ⟨last, (starts i equal).trans begins, before, equal, fun j after before' there => ?_⟩
      exact Nat.not_le_of_lt after (greatest ⟨⟨last, begins, before'⟩, there⟩)
  cases result : lastIndexOf? xs target start with
  | some i => exact (found i).1 result
  | none =>
    refine Set.not_nonempty_iff_eq_empty.1 fun some => ?_
    have bounded : BddAbove (candidatesBack xs target start) :=
      ⟨xs.length, fun _ there => (lt_length_of_equalAt there.2).le⟩
    obtain ⟨i, greatest⟩ := bounded.exists_isGreatest_of_nonempty some
    rw [(found i).2 greatest] at result
    cases result

/-- What is included is found by its position, and not-a-number only so. -/
theorem includes_iff_indexOf? (small : xs.length ≤ 2 ^ 53) :
    includes xs target start ↔ (indexOf? xs target start).isSome ∨ target = .number .nan ∧
      ∃ i, positionOr start xs.length 0 ≤ i ∧ xs[i]? = some (.number .nan) := by
  have finds : Finds IsLeast (candidates xs target start) (indexOf? xs target start) :=
    finds_indexOf? small
  rw [includes_iff, Number.relativeIndex_eq start small]
  constructor
  · rintro ⟨i, x, after, there, same⟩
    obtain equal | ⟨rfl, nan⟩ := Value.sameValueZero_iff.1 same
    · refine .inl (Option.isSome_iff_ne_none.2 fun none => ?_)
      rw [none] at finds
      exact Set.eq_empty_iff_forall_notMem.1 finds i ⟨after, x, there, equal⟩
    · exact .inr ⟨nan, i, after, there⟩
  · rintro (found | ⟨rfl, i, after, there⟩)
    · obtain ⟨i, found⟩ := Option.isSome_iff_exists.1 found
      rw [found] at finds
      obtain ⟨after, x, there, equal⟩ := finds.1
      exact ⟨i, x, after, there, Value.sameValueZero_iff.2 (.inl equal)⟩
    · exact ⟨i, _, after, there, Value.sameValueZero_iff.2 (.inr ⟨rfl, rfl⟩)⟩

theorem not_equalAt_nan (i : Nat) : ¬EqualAt xs (.number .nan) i := by
  rintro ⟨x, -, equal⟩
  cases x with
  | number d => cases d <;> cases equal
  | _ => cases equal

end Lists

/-! ### Calls -/

/-- Searches in a sequence of at most 2^53 elements start where exact arithmetic on the given number
says, always inside the sequence. `indexOf` answers the first candidate and `lastIndexOf` the last,
or -1 where there is none. `includes` says whether an element from the start on is the same, which
for all targets but not-a-number is whether `indexOf` finds one. -/
theorem searches_find_nearest {w : World} {s : SequenceId}
    (small : (w.heap.sequence s).length ≤ 2 ^ 53) (r : Reentry) (args : List Value) :
    let xs := w.heap.sequence s
    let target := arg args 0
    let start := numberOf w args 1
    (∀ last, lastStart? xs.length start = some last → last < xs.length) ∧
    ∃ found foundBack,
      call r s .indexOf args w = (.value (.value (positionValue found)), w) ∧
      call r s .lastIndexOf args w = (.value (.value (positionValue foundBack)), w) ∧
      Finds IsLeast (candidates xs target start) found ∧
      Finds IsGreatest (candidatesBack xs target start) foundBack ∧
      (args ≠ [] → ∃ included,
        call r s .includes args w = (.value (.value (.bool included)), w) ∧
        (included ↔ ∃ i x, positionOr start xs.length 0 ≤ i ∧ xs[i]? = some x ∧
          x.sameValueZero target) ∧
        (target ≠ .number .nan → included = found.isSome) ∧
        (target = .number .nan → found = none ∧ foundBack = none)) := by
  intro xs target start
  have finds : Finds IsLeast (candidates xs target start) (indexOf? xs target start) :=
    finds_indexOf? small
  have findsBack : Finds IsGreatest (candidatesBack xs target start)
      (lastIndexOf? xs target start) := finds_lastIndexOf? small
  refine ⟨fun last => lastStart?_lt small, indexOf? xs target start, lastIndexOf? xs target start,
    rfl, rfl, finds, findsBack, fun given => ?_⟩
  have same : includes xs target start ↔ _ := includes_iff
  rw [Number.relativeIndex_eq start small] at same
  refine ⟨includes xs target start, ?_, same, fun other => ?_, fun nan => ?_⟩
  · cases args with
    | nil => exact absurd rfl given
    | cons => rfl
  · have found : includes xs target start ↔ (indexOf? xs target start).isSome :=
      (includes_iff_indexOf? small).trans (or_iff_left fun both => other both.1)
    exact Bool.eq_iff_iff.2 found
  · rw [nan] at finds findsBack ⊢
    exact ⟨finds.eq_none (fun _ best => best.1) fun i there => not_equalAt_nan i there.2,
      findsBack.eq_none (fun _ best => best.1) fun i there => not_equalAt_nan i there.2⟩

/-- From the second of three elements on the last one is found, and back from there the first. -/
theorem searches_find_nearest_around :
    let w : World := { heap := Heap.pushSequence {} [.bool true, .number .nan, .bool true] }
    let args := [Value.bool true, .number (.ofInt (-2))]
    call .cutting ⟨0⟩ .indexOf args w = (.value (.value (.ofNat 2)), w) ∧
      call .cutting ⟨0⟩ .lastIndexOf args w = (.value (.value (.ofNat 0)), w) ∧
      call .cutting ⟨0⟩ .includes args w = (.value (.value (.bool true)), w) := by
  intro w args
  have three : (w.heap.sequence ⟨0⟩).length = 3 := rfl
  obtain ⟨-, found, foundBack, calls, callsBack, finds, findsBack, rest⟩ :=
    searches_find_nearest (w := w) (s := ⟨0⟩) (by rw [three]; decide) .cutting args
  obtain ⟨included, includes, -, agrees, -⟩ := rest (List.cons_ne_nil _ _)
  have start : positionOr (numberOf w args 1) 3 0 = 1 := by
    change positionOr (some (.ofInt (-2))) 3 0 = 1
    rw [positionOr, Number.position, Double.toInt_ofInt (by decide)]
    rfl
  have startBack : lastPosition? (numberOf w args 1) 3 = some 1 := by
    have whole : (Double.ofInt (-2)).toInt = -2 := Double.toInt_ofInt (by decide)
    change lastPosition? (some (.ofInt (-2))) 3 = some 1
    rw [Double.ofInt_eq (by decide)] at whole ⊢
    unfold lastPosition?
    dsimp only
    rw [whole]
    rfl
  have second : ¬EqualAt (w.heap.sequence ⟨0⟩) (.bool true) 1 := by
    rintro ⟨x, there, equal⟩
    cases there
    cases equal
  have least : IsLeast (candidates (w.heap.sequence ⟨0⟩) (.bool true) (numberOf w args 1)) 2 := by
    refine ⟨⟨by rw [three, start]; decide, .bool true, rfl, rfl⟩, fun j there => ?_⟩
    obtain ⟨after, equal⟩ := there
    rw [three, start] at after
    obtain rfl | more := Nat.eq_or_lt_of_le after
    · exact absurd equal second
    · exact more
  have greatest :
      IsGreatest (candidatesBack (w.heap.sequence ⟨0⟩) (.bool true) (numberOf w args 1)) 0 := by
    refine ⟨⟨⟨1, by rw [three, startBack], Nat.zero_le 1⟩, .bool true, rfl, rfl⟩, fun j there => ?_⟩
    obtain ⟨⟨last, begins, before⟩, equal⟩ := there
    rw [three, startBack] at begins
    cases begins
    obtain rfl | less := Nat.eq_or_lt_of_le before
    · exact absurd equal second
    · exact Nat.le_of_lt_succ less
  obtain rfl := finds.eq_some least.1 fun j best => best.unique least
  obtain rfl := findsBack.eq_some greatest.1 fun j best => best.unique greatest
  rw [agrees fun same => by cases same] at includes
  exact ⟨calls, callsBack, includes⟩

end Sequence

end ScriptBridge
