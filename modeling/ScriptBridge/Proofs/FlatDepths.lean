import Mathlib.Data.ENat.Basic
import ScriptBridge.Proofs.Positions

/-!
Depths of flattening. A depth is a double from which one is taken for each level; it counts down to
nothing from 2^53 exactly, and from above it lets at least as many levels be opened.
-/

namespace ScriptBridge

namespace Number

open Double (one)

/-- The number of levels that a depth stands for: its whole part, none of them where it is negative,
and all of them where it is infinite. A missing depth stands for one. -/
def levels : Option Double → ℕ∞
  | none => 1
  | some (.infinity false) => ⊤
  | some x => (x.toInt.toNat : ℕ)

/-- The depth that flattening starts with. -/
def flatDepth : Option Double → Double
  | none => .ofNat 1
  | some x => (toIntegerOrInfinity x).max (.zero false)

/-- For `k` levels down, a depth lets open as many as `n` counts. -/
def CountsDown : Nat → Double → Nat → Prop
  | 0, _, _ => True
  | k + 1, d, n =>
    ((Double.ofNat 1).le d ↔ n ≠ 0) ∧ (n ≠ 0 → CountsDown k (d.sub (.ofNat 1)) (n - 1))

/-- A depth is at least that whole number. -/
def AtLeast (k : Nat) (d : Double) : Prop :=
  d = .infinity false ∨ ∃ units fits, d = .finite false units fits ∧ k * one ≤ units

variable {k n units : Nat} {d : Double}

theorem atLeast_ofUnits (h : k * one ≤ units) : AtLeast k (.ofUnits false units) := by
  unfold Double.ofUnits
  split
  case isTrue fits => exact .inr ⟨units, fits, rfl, h⟩
  case isFalse => exact .inl rfl

theorem atLeast_ofNat (small : k ≤ 2 ^ 53) (le : k ≤ n) : AtLeast k (.ofNat n) := by
  obtain ⟨units, rounds, made⟩ := Double.rounded_ofNat n
  rw [made]
  refine atLeast_ofUnits (rounds.le (Double.spacing_dvd (Double.representable_whole small)) ?_)
  exact_mod_cast Nat.mul_le_mul_right one le

theorem one_le_of_atLeast (h : AtLeast (k + 1) d) : (Double.ofNat 1).le d := by
  rw [Double.ofNat_eq (show 1 ≤ 2 ^ 53 by decide)]
  obtain rfl | ⟨units, fits, rfl, enough⟩ := h
  · rfl
  · refine Double.le_finite.2 (Nat.le_trans ?_ enough)
    exact Nat.mul_le_mul_right one (Nat.succ_le_succ (Nat.zero_le k))

theorem infinity_sub_one : (Double.infinity false).sub (.ofNat 1) = .infinity false := by
  rw [Double.sub, Double.ofNat_eq (show 1 ≤ 2 ^ 53 by decide)]
  simp only [Double.neg, Double.add]

/-- Taking one away leaves at least the next smaller whole number, however it is rounded. -/
theorem atLeast_sub_one (small : k ≤ 2 ^ 53) (h : AtLeast (k + 1) d) :
    AtLeast k (d.sub (.ofNat 1)) := by
  obtain rfl | ⟨units, fits, rfl, enough⟩ := h
  · exact .inl infinity_sub_one
  · rw [Nat.succ_mul] at enough
    have some : one ≤ units := Nat.le_of_add_left_le enough
    have left : k * one ≤ units - one := Nat.le_sub_of_add_le enough
    have sum : (units : Int) + -((1 * one : Nat) : Int) = (units - one : Nat) := by
      rw [Nat.one_mul]
      omega
    generalize units - one = rest at left sum
    rw [Double.sub, Double.ofNat_eq (show 1 ≤ 2 ^ 53 by decide)]
    simp only [Double.neg, Double.add, Double.signed, Bool.false_eq_true, if_false, Bool.not_false,
      if_true]
    rw [sum]
    split
    · rename_i none
      rw [Int.natCast_eq_zero.1 none] at left
      exact .inr ⟨0, _, rfl, left⟩
    · obtain ⟨units, rounds, made⟩ := Double.nearest_rounds false rest Nat.one_pos
      rw [Nat.cast_one, div_one] at rounds
      rw [decide_eq_false (Int.not_lt.2 (Int.natCast_nonneg _)), Int.natAbs_natCast, made]
      refine atLeast_ofUnits (rounds.le ?_ (Nat.cast_le.2 left))
      exact Double.spacing_dvd (Double.representable_whole small)

theorem countsDown_of_atLeast (small : k ≤ 2 ^ 53) (h : AtLeast k d) (le : k ≤ n) :
    CountsDown k d n := by
  induction k generalizing d n with
  | zero => trivial
  | succ k ih =>
    have some : n ≠ 0 := by omega
    refine ⟨iff_of_true (one_le_of_atLeast h) some, fun _ => ?_⟩
    exact ih (by omega) (atLeast_sub_one (by omega) h) (by omega)

theorem countsDown_ofNat (k : Nat) (small : n ≤ 2 ^ 53) : CountsDown k (.ofNat n) n := by
  induction k generalizing n with
  | zero => trivial
  | succ k ih =>
    cases n with
    | zero =>
      refine ⟨iff_of_false ?_ (fun some => some rfl), fun some => absurd rfl some⟩
      rw [Double.ofNat_eq (show 1 ≤ 2 ^ 53 by decide), Double.ofNat_eq small, Double.le_finite]
      rw [Nat.zero_mul, Nat.one_mul]
      exact Nat.not_le_of_lt Double.one_pos
    | succ n =>
      rw [CountsDown, Double.ofNat_sub_one small]
      have some := one_le_of_atLeast (atLeast_ofNat small (Nat.le_refl (n + 1)))
      exact ⟨iff_of_true some (Nat.succ_ne_zero n), fun _ => ih (Nat.le_of_succ_le small)⟩

theorem countsDown_zero (k : Nat) (negative : Bool) : CountsDown k (.zero negative) 0 := by
  cases k with
  | zero => trivial
  | succ k =>
    refine ⟨iff_of_false ?_ (fun some => some rfl), fun some => absurd rfl some⟩
    rw [Double.ofNat_eq (show 1 ≤ 2 ^ 53 by decide)]
    have positive := Double.one_pos
    simp only [Double.le, Double.lt, Double.eq, Double.zero, Double.signed, Bool.false_eq_true,
      if_false, Nat.one_mul, Bool.or_eq_true, decide_eq_true_eq, beq_iff_eq]
    omega

theorem max_zero_whole (m : Nat) (fits : Representable (m * one)) :
    (Double.finite false (m * one) fits).max (.zero false) = .finite false (m * one) fits :=
  if_neg (mt Double.lt_finite.1 (Nat.not_lt_zero _))

theorem flatDepth_finite (fits : Representable units) :
    flatDepth (some (.finite false units fits)) =
      .finite false (units / one * one) (Double.representable_whole_part fits) := by
  rw [flatDepth, toIntegerOrInfinity_finite, max_zero_whole]

theorem flatDepth_infinity : flatDepth (some (.infinity false)) = .infinity false := rfl

theorem atLeast_flatDepth (h : AtLeast k d) : AtLeast k (flatDepth (some d)) := by
  obtain rfl | ⟨units, fits, rfl, enough⟩ := h
  · exact .inl flatDepth_infinity
  · rw [flatDepth_finite]
    refine .inr ⟨_, _, rfl, Nat.mul_le_mul_right one ?_⟩
    exact (Nat.le_div_iff_mul_le Double.one_pos).2 enough

theorem flatDepth_of_levels_eq_top {x : Option Double} (all : levels x = ⊤) :
    flatDepth x = .infinity false := by
  cases x with
  | none => cases all
  | some d =>
    cases d with
    | nan => cases all
    | infinity negative =>
      cases negative with
      | true => cases all
      | false => rfl
    | finite => cases all

theorem countsDown_whole (fits : Representable (n * one)) (small : n ≤ 2 ^ 53 ∨ k ≤ 2 ^ 53) :
    CountsDown k (.finite false (n * one) fits) n := by
  by_cases short : n ≤ 2 ^ 53
  · rw [← Double.ofNat_eq short]
    exact countsDown_ofNat k short
  · have few : k ≤ 2 ^ 53 := small.resolve_left short
    refine countsDown_of_atLeast few (.inr ⟨_, _, rfl, ?_⟩) (by omega)
    exact Nat.mul_le_mul_right one (by omega)

theorem countsDown_of_levels {x : Option Double} (counted : levels x = n)
    (small : n ≤ 2 ^ 53 ∨ k ≤ 2 ^ 53) : CountsDown k (flatDepth x) n := by
  cases x with
  | none =>
    obtain rfl : 1 = n := ENat.natCast_inj.1 counted
    exact countsDown_ofNat k (by decide)
  | some d =>
    cases d with
    | nan =>
      obtain rfl : 0 = n := ENat.natCast_inj.1 counted
      have zero : toIntegerOrInfinity .nan = .zero false := rfl
      rw [flatDepth, zero, Double.max, ite_self]
      exact countsDown_zero k false
    | infinity negative =>
      cases negative with
      | true =>
        obtain rfl : 0 = n := ENat.natCast_inj.1 counted
        exact countsDown_zero k false
      | false => exact absurd counted (ENat.top_ne_natCast n)
    | finite negative units fits =>
      have whole := ENat.natCast_inj.1 counted
      cases negative with
      | true =>
        rw [Double.toInt, Double.signed, if_pos rfl, Int.toNat_neg_natCast] at whole
        obtain ⟨negative, zero⟩ :=
          Double.max_zero_of_negative (Double.representable_whole_part fits)
        rw [flatDepth, toIntegerOrInfinity_finite, zero, ← whole]
        exact countsDown_zero k negative
      | false =>
        rw [Double.toInt, Double.signed, if_neg Bool.false_ne_true, Int.toNat_natCast] at whole
        rw [flatDepth_finite, ← whole]
        exact countsDown_whole _ (by rwa [whole])

theorem levels_ofNat (small : n ≤ 2 ^ 53) : levels (some (.ofNat n)) = n := by
  rw [Double.ofNat_eq small]
  simp only [levels, Double.toInt, Double.signed, Double.whole_div, Bool.false_eq_true, if_false,
    Int.toNat_natCast]

/-- Beyond 53 bits a number may be rounded to a double that is no less than 2^53. -/
theorem countsDown_flatDepth_ofNat (small : n ≤ 2 ^ 53 ∨ k ≤ 2 ^ 53) :
    CountsDown k (flatDepth (some (.ofNat n))) n := by
  by_cases short : n ≤ 2 ^ 53
  · exact countsDown_of_levels (levels_ofNat short) small
  · have few : k ≤ 2 ^ 53 := small.resolve_left short
    exact countsDown_of_atLeast few (atLeast_flatDepth (atLeast_ofNat few (by omega))) (by omega)

end Number
end ScriptBridge
