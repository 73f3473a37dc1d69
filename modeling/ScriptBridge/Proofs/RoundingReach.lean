import Mathlib.Algebra.Order.Field.Basic
import Mathlib.Data.Rat.Cast.Order
import ScriptBridge.Proofs.WholeNumberTexts

/-!
The numbers that round to a double, as an interval of rational numbers of steps: exactly these do.
So a number lies in the interval of at most one double, and greater doubles have greater numbers.
-/

namespace ScriptBridge

namespace Double

/-! ### What rounds to a double -/

theorem ofUnits_eq_finite {negative negative' : Bool} {units n : Nat} {fits : Representable units}
    (h : ofUnits negative n = .finite negative' units fits) : n = units := by
  unfold ofUnits at h
  split at h
  · injection h
  · cases h

/-- Rounding up to a power of two changes the spacing. -/
theorem near_power {num den shift : Nat} (low : 2 * (2 ^ 53 * (den * 2 ^ shift)) ≤
      2 * num + den * 2 ^ shift) (below : num < 2 ^ 53 * (den * 2 ^ shift)) :
    Near (2 ^ 53 * 2 ^ shift) num den := by
  have power : 2 ^ 53 * 2 ^ shift = 2 ^ (shift + 1 + 52) := by
    rw [← Nat.pow_add]
    congr 1
    omega
  have bits : (2 ^ (shift + 1 + 52)).log2 - 52 = shift + 1 := by
    rw [Nat.log2_two_pow, Nat.add_sub_cancel]
  have gap : spacing (2 ^ (shift + 1 + 52)) = 2 ^ (shift + 1) := by rw [spacing, bits]
  have down : slack (2 ^ (shift + 1 + 52)) = 2 ^ (shift + 1) := by
    rw [slack, bits, gap, if_pos ⟨Nat.succ_ne_zero shift, rfl⟩]
  have scaled : 2 ^ (shift + 1 + 52) * den = 2 ^ 53 * (den * 2 ^ shift) := by rw [← power]; ring
  have scaled' : 2 ^ (shift + 1) * den = 2 * (den * 2 ^ shift) := by ring
  rw [power]
  refine ⟨?_, ?_, fun odd => absurd ?_ odd⟩
  · rw [down, scaled, scaled']
    omega
  · rw [gap, scaled, scaled']
    omega
  · rw [gap, Nat.pow_add, Nat.mul_div_cancel_left _ (Nat.two_pow_pos _)]

theorem log2_scaled {m shift : Nat} (enough : shift ≠ 0 → 2 ^ 52 ≤ m) (short : m < 2 ^ 53) :
    (m * 2 ^ shift).log2 - 52 = shift := by
  refine log2_sub_eq (fun shifted => ?_) ?_ <;> rw [Nat.add_comm, Nat.pow_add]
  · exact Nat.mul_le_mul_right _ (enough shifted)
  · exact Nat.mul_lt_mul_of_pos_right short (Nat.two_pow_pos _)

/-- Rounding that needs no further bit keeps the spacing. -/
theorem near_short {num den shift m : Nat} (rounded : HalfEven num (den * 2 ^ shift) m)
    (least : shift ≠ 0 → 2 ^ 52 * (den * 2 ^ shift) ≤ num) (enough : shift ≠ 0 → 2 ^ 52 ≤ m)
    (short : m < 2 ^ 53) : Near (m * 2 ^ shift) num den := by
  obtain ⟨low, high, tie⟩ := rounded
  have log := log2_scaled enough short
  have gap : spacing (m * 2 ^ shift) = 2 ^ shift := by rw [spacing, log]
  have scaled : m * 2 ^ shift * den = m * (den * 2 ^ shift) := by ring
  have scaled' : 2 ^ shift * den = den * 2 ^ shift := Nat.mul_comm _ _
  generalize den * 2 ^ shift = step at *
  refine ⟨?_, ?_, fun odd => ?_⟩
  · rw [slack, log, gap, scaled]
    split
    · rename_i first
      obtain ⟨shifted, edge⟩ := first
      rw [Nat.pow_add, Nat.mul_comm, Nat.mul_right_inj (Nat.two_pow_pos shift).ne'] at edge
      have := least shifted
      subst edge
      omega
    · rw [Nat.mul_assoc, scaled']
      omega
  · rw [gap, scaled, scaled']
    exact high
  · rw [gap, Nat.mul_div_cancel _ (Nat.two_pow_pos shift)] at odd
    rw [gap, scaled, scaled']
    omega

section Rounded

variable {num den shift : Nat}

/-- A quotient lies between two powers of two whose doubles are spaced alike. -/
theorem quotient_bounds (whole : 0 < den) (log : (num / den).log2 - 52 = shift) :
    num < 2 ^ 53 * (den * 2 ^ shift) ∧ (shift ≠ 0 → 2 ^ 52 * (den * 2 ^ shift) ≤ num) := by
  have power (k : Nat) : 2 ^ k * (den * 2 ^ shift) = 2 ^ (shift + k) * den := by
    rw [Nat.pow_add]
    ring
  rw [power, power, ← Nat.div_lt_iff_lt_mul whole, ← Nat.le_div_iff_mul_le whole]
  constructor
  · exact Nat.lt_of_lt_of_le Nat.lt_log2_self (Nat.pow_le_pow_right (by decide) (by omega))
  · intro shifted
    have bits : shift + 52 = (num / den).log2 := by omega
    rw [bits]
    refine Nat.log2_self_le fun zero => shifted ?_
    rw [← log, zero]
    rfl

/-- The bounds of the quotient are those of the rounded one, give or take the edges. -/
theorem rounded_bounds (whole : 0 < den) (log : (num / den).log2 - 52 = shift) :
    roundHalfEven num (den * 2 ^ shift) ≤ 2 ^ 53 ∧
      (shift ≠ 0 → 2 ^ 52 ≤ roundHalfEven num (den * 2 ^ shift)) := by
  obtain ⟨most, least⟩ := quotient_bounds whole log
  obtain ⟨low, high, _⟩ :=
    halfEven_roundHalfEven num (Nat.mul_pos whole (Nat.two_pow_pos shift))
  generalize roundHalfEven num (den * 2 ^ shift) = m at *
  constructor
  · by_contra many
    have := Nat.mul_le_mul_right (den * 2 ^ shift) (Nat.lt_of_not_le many)
    rw [Nat.succ_mul] at this
    omega
  · intro shifted
    by_contra less
    have := Nat.mul_le_mul_right (den * 2 ^ shift) (Nat.lt_of_not_le less)
    rw [Nat.succ_mul] at this
    have := least shifted
    omega

/-- A quotient is near to what it is rounded to, also where that is beyond the doubles. -/
theorem near_rounded (whole : 0 < den) (log : (num / den).log2 - 52 = shift) :
    Near (roundHalfEven num (den * 2 ^ shift) * 2 ^ shift) num den := by
  obtain ⟨most, least⟩ := quotient_bounds whole log
  obtain ⟨few, enough⟩ := rounded_bounds whole log
  have rounded := halfEven_roundHalfEven num (Nat.mul_pos whole (Nat.two_pow_pos shift))
  generalize roundHalfEven num (den * 2 ^ shift) = m at *
  obtain rfl | short : m = 2 ^ 53 ∨ m < 2 ^ 53 := by omega
  · exact near_power rounded.low most
  · exact near_short rounded least enough short

/-- What rounds to a finite double is near to it. -/
theorem near_of_nearest {units : Nat} {negative negative' : Bool} {fits : Representable units}
    (whole : 0 < den) (rounds : nearest negative num den = .finite negative' units fits) :
    Near units num den := by
  rw [← ofUnits_eq_finite rounds]
  exact near_rounded whole rfl

end Rounded

/-! ### As an interval -/

/-- The interval of the numbers that round to a count of steps. -/
structure Reaches (units : Nat) (q : ℚ) : Prop where
  low : 4 * (units : ℚ) ≤ 4 * q + slack units
  high : 2 * q ≤ 2 * units + spacing units
  strict : units / spacing units % 2 ≠ 0 →
    2 * (units : ℚ) < 2 * q + spacing units ∧ 2 * q < 2 * units + spacing units

theorem reaches_iff_near {units num den : Nat} (whole : 0 < den) :
    Reaches units (num / den) ↔ Near units num den := by
  have positive : (0 : ℚ) < den := by exact_mod_cast whole
  have quotient : (num : ℚ) / den * den = num := div_mul_cancel₀ _ positive.ne'
  generalize (num : ℚ) / den = q at quotient ⊢
  -- the bounds of the one are those of the other times the denominator
  have low : 4 * (units : ℚ) ≤ 4 * q + slack units ↔
      4 * (units * den) ≤ 4 * num + slack units * den := by
    rw [← mul_le_mul_iff_of_pos_right positive, add_mul, mul_assoc 4 q, quotient, mul_assoc]
    norm_cast
  have high : 2 * q ≤ 2 * (units : ℚ) + spacing units ↔
      2 * num ≤ 2 * (units * den) + spacing units * den := by
    rw [← mul_le_mul_iff_of_pos_right positive, add_mul, mul_assoc 2 q, quotient, mul_assoc]
    norm_cast
  have above : 2 * (units : ℚ) < 2 * q + spacing units ↔
      2 * (units * den) < 2 * num + spacing units * den := by
    rw [← mul_lt_mul_iff_of_pos_right positive, add_mul, mul_assoc 2 q, quotient, mul_assoc]
    norm_cast
  have below : 2 * q < 2 * (units : ℚ) + spacing units ↔
      2 * num < 2 * (units * den) + spacing units * den := by
    rw [← mul_lt_mul_iff_of_pos_right positive, add_mul, mul_assoc 2 q, quotient, mul_assoc]
    norm_cast
  constructor
  · intro h
    exact ⟨low.1 h.low, high.1 h.high, fun odd => (h.strict odd).imp above.1 below.1⟩
  · intro h
    exact ⟨low.2 h.low, high.2 h.high, fun odd => (h.strict odd).imp above.2 below.2⟩

namespace Reaches

variable {units units' : Nat} {p q r : ℚ}

theorem self (units : Nat) : Reaches units units := by
  have gap : (0 : ℚ) < spacing units := by exact_mod_cast Nat.two_pow_pos _
  have down : (0 : ℚ) ≤ slack units := Nat.cast_nonneg _
  constructor
  case low => linarith
  case high => linarith
  case strict => exact fun _ => ⟨by linarith, by linarith⟩

theorem between (first : Reaches units p) (last : Reaches units r) (low : p ≤ q) (high : q ≤ r) :
    Reaches units q where
  low := by linarith [first.low]
  high := by linarith [last.high]
  strict odd := ⟨by linarith [(first.strict odd).1], by linarith [(last.strict odd).2]⟩

theorem pos (fits : Representable units) (positive : 0 < units) (h : Reaches units q) : 0 < q := by
  have wide : (spacing units : ℚ) ≤ units := by
    exact_mod_cast Nat.le_of_dvd positive (spacing_dvd fits)
  have close : (slack units : ℚ) ≤ 2 * spacing units := by exact_mod_cast slack_le units
  have some : (0 : ℚ) < units := by exact_mod_cast positive
  linarith [h.low]

/-- No number rounds to two doubles. -/
theorem unique (fits : Representable units) (fits' : Representable units')
    (h : Reaches units q) (h' : Reaches units' q) (positive : 0 ≤ q) : units = units' := by
  have quotient : q = q.num.toNat / q.den := by
    have num : ((q.num.toNat : ℤ) : ℚ) = q.num := by
      rw [Int.toNat_of_nonneg (Rat.num_nonneg.2 positive)]
    rw [← Int.cast_natCast, num, Rat.num_div_den]
  rw [quotient, reaches_iff_near q.den_pos] at h h'
  have rounds := nearest_of_near fits q.den_pos h false
  rw [nearest_of_near fits' q.den_pos h' false] at rounds
  injection rounds with _ same
  exact same.symm

/-- Greater doubles have greater numbers. -/
theorem lt (fits : Representable units) (fits' : Representable units') (h : Reaches units p)
    (h' : Reaches units' q) (positive : 0 ≤ q) (less : units < units') : p < q := by
  have less' : (units : ℚ) < units' := by exact_mod_cast less
  by_contra not
  rw [not_lt] at not
  refine less.ne ?_
  obtain inside | outside := le_total (units' : ℚ) p
  · exact unique fits fits' ((self units).between h less'.le inside) (self units')
      (Nat.cast_nonneg _)
  · exact unique fits fits' h (h'.between (self units') not outside) (positive.trans not)

end Reaches

end Double

namespace Decimal

/-- How many steps a power of ten is. -/
def place (exponent : Int) : ℚ := 10 ^ exponent * Double.one

/-- How many steps a decimal is. -/
def steps (d : Decimal) : ℚ := d.significand * place d.exponent

theorem num_div_den (d : Decimal) : (d.num : ℚ) / d.den = d.steps := by
  unfold num den steps place
  generalize Double.one = step
  push_cast
  obtain ⟨n, whole | whole⟩ := Int.eq_nat_or_neg d.exponent <;> rw [whole]
  · simp [mul_assoc]
  · simp [div_eq_mul_inv, mul_assoc, mul_comm (step : ℚ)]

/-- A decimal is read as a positive double exactly if it is in the interval of that double. -/
theorem toDouble_iff {d : Decimal} {units : Nat} (fits : Representable units) (positive : 0 < units)
    (negative : Bool) :
    d.toDouble negative = .finite negative units fits ↔ Double.Reaches units d.steps := by
  rw [← num_div_den, Double.reaches_iff_near d.den_pos]
  constructor
  · intro reads
    rw [toDouble_eq] at reads
    split at reads
    · injection reads with _ none
      omega
    · split at reads
      · cases reads
      · exact Double.near_of_nearest d.den_pos reads
  · exact fun near => toDouble_of_near near fits positive negative

end Decimal

end ScriptBridge
