import ScriptBridge.Proofs.FewestDigits

/-!
Correct rounding: of all numbers of steps with 53 significant bits the nearest one, and of two
equally near ones the one whose last bit is zero. Every number is rounded to exactly one, which is a
double below 2^1024 and infinity from there on. Decimals and whole numbers are read as the doubles
that they are rounded to.
-/

namespace ScriptBridge

theorem Representable.lt_two_pow {units k : Nat} (fits : Representable units) (le : 2098 ≤ k) :
    units < 2 ^ k := by
  obtain ⟨less, -⟩ := fits
  generalize 2098 = limit at less le
  exact Nat.lt_of_lt_of_le less (Nat.pow_le_pow_right (by decide) le)

namespace Double

variable {a b units units' : Nat} {p q : ℚ}

/-! ### Neighbours -/

theorem spacing_pos (units : Nat) : 0 < spacing units := Nat.two_pow_pos _

theorem spacing_two_pow (k : Nat) : spacing (2 ^ k) = 2 ^ (k - 52) := by
  rw [spacing, Nat.log2_two_pow]

theorem two_pow_le_spacing {k : Nat} (low : 2 ^ (k + 52) ≤ a) : 2 ^ k ≤ spacing a := by
  have nonzero : a ≠ 0 := (Nat.lt_of_lt_of_le (Nat.two_pow_pos _) low).ne'
  have log : k + 52 ≤ a.log2 := (Nat.le_log2 nonzero).2 low
  exact Nat.pow_le_pow_right (by decide) (by omega)

theorem spacing_dvd_spacing (le : a ≤ b) : spacing a ∣ spacing b :=
  Nat.pow_dvd_pow 2 (Nat.sub_le_sub_right (log2_le_log2 le) 52)

theorem add_le_of_dvd {gap : Nat} (left : gap ∣ a) (right : gap ∣ b) (less : a < b) :
    a + gap ≤ b := by
  obtain ⟨m, rfl⟩ := left
  obtain ⟨n, rfl⟩ := right
  rw [← Nat.mul_succ]
  exact Nat.mul_le_mul_left gap (Nat.lt_of_mul_lt_mul_left less)

/-- Between a count of 53 bits and the next one there is no other. -/
theorem add_spacing_le (bits : spacing a ∣ a) (bits' : spacing b ∣ b) (less : a < b) :
    a + spacing a ≤ b :=
  add_le_of_dvd bits ((spacing_dvd_spacing less.le).trans bits') less

theorem add_two_pow_le {k : Nat} (bits : spacing a ∣ a) (bits' : spacing b ∣ b) (less : a < b)
    (low : 2 ^ (k + 52) + 2 ^ k ≤ b) : a + 2 ^ k ≤ b := by
  by_cases high : 2 ^ (k + 52) ≤ a
  · have wide := two_pow_le_spacing high
    have next := add_spacing_le bits bits' less
    omega
  · omega

/-- The next lower count is twice as far away as numbers round down to a count. -/
theorem add_slack_le (bits : spacing a ∣ a) (bits' : spacing units ∣ units) (less : a < units) :
    2 * a + slack units ≤ 2 * units := by
  unfold slack
  obtain ⟨k, log⟩ : ∃ k, units.log2 - 52 = k := ⟨_, rfl⟩
  have gap : spacing units = 2 ^ k := by rw [spacing, log]
  rw [log, gap]
  cases k with
  | zero =>
    rw [if_neg (by simp)]
    omega
  | succ k =>
    split
    · rename_i edge
      have small : 2 ^ k ≤ 2 ^ (k + 52) := Nat.pow_le_pow_right (by decide) (Nat.le_add_right k 52)
      have double : 2 ^ (k + 1 + 52) = 2 ^ (k + 52) * 2 := by
        rw [Nat.add_right_comm, Nat.pow_succ]
      have low : 2 ^ (k + 52) + 2 ^ k ≤ units := by
        rw [edge.2, double]
        omega
      have next := add_two_pow_le bits bits' less low
      rw [Nat.pow_succ]
      omega
    · rename_i inside
      have least : 2 ^ (k + 1 + 52) ≤ units := by
        have bits : k + 1 + 52 = units.log2 := by omega
        rw [bits]
        exact Nat.log2_self_le (by omega)
      have more : 2 ^ (k + 1 + 52) < units :=
        Nat.lt_of_le_of_ne least fun same => inside ⟨Nat.succ_ne_zero k, same.symm⟩
      have power : spacing (2 ^ (k + 1 + 52)) = 2 ^ (k + 1) := spacing_two_pow _
      have bits'' : spacing (2 ^ (k + 1 + 52)) ∣ 2 ^ (k + 1 + 52) := by
        rw [power]
        exact Nat.pow_dvd_pow 2 (Nat.le_add_right _ _)
      have low := add_spacing_le bits'' bits' more
      rw [power] at low
      have next := add_two_pow_le bits bits' less low
      omega

/-- The next higher count has the same spacing, or is a power of two. -/
theorem spacing_next (bits : spacing a ∣ a) :
    spacing (a + spacing a) = spacing a ∨
      ∃ k, a + spacing a = 2 ^ (k + 1) ∧ spacing a ∣ 2 ^ k := by
  have fine : spacing a ∣ 2 ^ a.log2 := Nat.pow_dvd_pow 2 (Nat.sub_le _ 52)
  have next : a + spacing a ≤ 2 ^ (a.log2 + 1) :=
    add_le_of_dvd bits (fine.trans ⟨2, Nat.pow_succ ..⟩) Nat.lt_log2_self
  obtain inside | edge := Nat.lt_or_eq_of_le next
  · left
    by_cases zero : a = 0
    · subst zero
      rfl
    · have low := Nat.log2_self_le zero
      have log : (a + spacing a).log2 = a.log2 :=
        (Nat.log2_eq_iff (by omega)).2 ⟨by omega, inside⟩
      rw [spacing, log]
      rfl
  · exact .inr ⟨a.log2, edge, fine⟩

theorem spacing_dvd_next (bits : spacing a ∣ a) : spacing (a + spacing a) ∣ a + spacing a := by
  obtain same | ⟨k, power, -⟩ := spacing_next bits
  · rw [same]
    exact Nat.dvd_add bits (Nat.dvd_refl _)
  · rw [power, spacing_two_pow]
    exact Nat.pow_dvd_pow 2 (Nat.sub_le _ _)

/-- Of two neighbours one is an odd multiple of its spacing. -/
theorem odd_of_next (bits : spacing a ∣ a) (even : a / spacing a % 2 = 0) :
    (a + spacing a) / spacing (a + spacing a) % 2 ≠ 0 := by
  have odd : (a + spacing a) / spacing a % 2 = 1 := by
    rw [Nat.add_div_right a (spacing_pos a)]
    omega
  obtain same | ⟨k, power, n, half⟩ := spacing_next bits
  · rw [same]
    omega
  · -- a power of two is an even multiple of what divides its half
    rw [power, Nat.pow_succ, half, Nat.mul_assoc, Nat.mul_div_cancel_left _ (spacing_pos a)] at odd
    omega

/-! ### Rounding -/

/-- A number is rounded to a count of steps: one of 53 significant bits, none of these is nearer,
and of two equally near ones it is the one whose last bit is zero. -/
structure RoundsTo (q : ℚ) (units : Nat) : Prop where
  bits : spacing units ∣ units
  nearest : ∀ other, spacing other ∣ other → |q - units| ≤ |q - other|
  even : ∀ other, spacing other ∣ other → other ≠ units → |q - units| = |q - other| →
    units / spacing units % 2 = 0

/-- The double that a number is rounded to: infinity where there is none of that many steps. -/
def Rounded (negative : Bool) (q : ℚ) (d : Double) : Prop :=
  ∃ units, RoundsTo (q * one) units ∧ d = ofUnits negative units

/-- The numbers in the interval around a count are rounded to it. -/
theorem RoundsTo.of_reaches (bits : spacing units ∣ units) (h : Reaches units q) :
    RoundsTo q units := by
  have far (other : Nat) (bits' : spacing other ∣ other) (apart : other ≠ units) :
      (other : ℚ) < units ∧ 2 * other + slack units ≤ 2 * (units : ℚ) ∨
        (units : ℚ) < other ∧ units + spacing units ≤ (other : ℚ) := by
    obtain below | above := Nat.lt_or_gt_of_ne apart
    · exact .inl ⟨by exact_mod_cast below, by exact_mod_cast add_slack_le bits' bits below⟩
    · exact .inr ⟨by exact_mod_cast above, by exact_mod_cast add_spacing_le bits bits' above⟩
  obtain ⟨low, high, strict⟩ := h
  have gap : (0 : ℚ) < spacing units := by exact_mod_cast spacing_pos units
  have down : (0 : ℚ) ≤ slack units := Nat.cast_nonneg _
  refine ⟨bits, fun other bits' => ?_, fun other bits' apart same => ?_⟩
  · by_cases apart : other = units
    · rw [apart]
    · refine abs_le.2 ?_
      obtain ⟨below, least⟩ | ⟨above, most⟩ := far other bits' apart
      · have near := le_abs_self (q - other)
        constructor <;> linarith
      · have near := neg_le_abs (q - other)
        constructor <;> linarith
  · by_contra odd
    obtain ⟨less, more⟩ := strict odd
    have wide : (slack units : ℚ) = 2 * spacing units := by exact_mod_cast slack_of_odd odd
    have close : |q - units| < spacing units / 2 := abs_lt.2 ⟨by linarith, by linarith⟩
    rw [same] at close
    obtain ⟨left, right⟩ := abs_lt.1 close
    obtain ⟨below, least⟩ | ⟨above, most⟩ := far other bits' apart <;> linarith

/-- A number halfway between two counts is not rounded to both. -/
theorem RoundsTo.not_both (h : RoundsTo q a) (h' : RoundsTo q b) : ¬a < b := by
  intro less
  have same : |q - a| = |q - b| := le_antisymm (h.nearest b h'.bits) (h'.nearest a h.bits)
  have even := h.even b h'.bits less.ne' same
  have even' := h'.even a h.bits less.ne same.symm
  have less' : (a : ℚ) < b := by exact_mod_cast less
  have middle : 2 * q = a + b := by
    obtain equal | opposite := abs_eq_abs.1 same <;> linarith
  obtain rfl | between := Nat.eq_or_lt_of_le (add_spacing_le h.bits h'.bits less)
  · exact odd_of_next h.bits even even'
  · -- the neighbour of the one would be nearer
    have near := h.nearest _ (spacing_dvd_next h.bits)
    have gap : (0 : ℚ) < spacing a := by exact_mod_cast spacing_pos a
    have inside : ((a + spacing a : Nat) : ℚ) < b := by exact_mod_cast between
    push_cast at near inside
    have away : |q - a| = (b - a) / 2 := by
      rw [abs_of_pos (by linarith)]
      linarith
    have closer : |q - (a + spacing a)| < (b - a) / 2 := abs_lt.2 ⟨by linarith, by linarith⟩
    linarith

theorem RoundsTo.unique (h : RoundsTo q a) (h' : RoundsTo q b) : a = b := by
  obtain less | same | more := Nat.lt_trichotomy a b
  · exact absurd less (h.not_both h')
  · exact same
  · exact absurd more (h'.not_both h)

theorem Rounded.unique {negative : Bool} {d d' : Double} (h : Rounded negative q d)
    (h' : Rounded negative q d') : d = d' := by
  obtain ⟨units, rounds, same⟩ := h
  obtain ⟨units', rounds', same'⟩ := h'
  rw [same, same', rounds.unique rounds']

/-! ### What rounds correctly -/

theorem spacing_dvd_rounded {num den shift : Nat} (whole : 0 < den)
    (log : (num / den).log2 - 52 = shift) :
    spacing (roundHalfEven num (den * 2 ^ shift) * 2 ^ shift) ∣
      roundHalfEven num (den * 2 ^ shift) * 2 ^ shift := by
  obtain ⟨few, enough⟩ := rounded_bounds whole log
  generalize roundHalfEven num (den * 2 ^ shift) = m at *
  obtain rfl | short : m = 2 ^ 53 ∨ m < 2 ^ 53 := by omega
  · rw [← Nat.pow_add, spacing_two_pow]
    exact Nat.pow_dvd_pow 2 (Nat.sub_le _ _)
  · rw [spacing, log2_scaled enough short]
    exact Nat.dvd_mul_left _ _

theorem nearest_rounds (negative : Bool) (num : Nat) {den : Nat} (whole : 0 < den) :
    ∃ units, RoundsTo (num / den) units ∧ nearest negative num den = ofUnits negative units := by
  have near := near_rounded whole (Eq.refl ((num / den).log2 - 52))
  have bits := spacing_dvd_rounded whole (Eq.refl ((num / den).log2 - 52))
  exact ⟨_, .of_reaches bits ((reaches_iff_near whole).2 near), rfl⟩

/-- Less than half a step is rounded to nothing. -/
theorem RoundsTo.of_small (positive : 0 ≤ q) (small : 2 * q ≤ 1) : RoundsTo q 0 := by
  have gap : spacing 0 = 1 := rfl
  refine .of_reaches (Nat.dvd_zero _) ⟨?_, ?_, fun odd => absurd (by rw [Nat.zero_div]) odd⟩
  · have down : (0 : ℚ) ≤ slack 0 := Nat.cast_nonneg _
    push_cast
    linarith
  · rw [gap]
    push_cast
    linarith

/-- What is at least a power of two is not rounded below it. -/
theorem RoundsTo.two_pow_le {k : Nat} (h : RoundsTo q units) (large : ((2 ^ k : Nat) : ℚ) ≤ q) :
    2 ^ k ≤ units := by
  have bits : spacing (2 ^ k) ∣ 2 ^ k := by
    rw [spacing_two_pow]
    exact Nat.pow_dvd_pow 2 (Nat.sub_le _ _)
  have near := h.nearest _ bits
  by_contra less
  have less' : (units : ℚ) < (2 ^ k : Nat) := by exact_mod_cast Nat.lt_of_not_le less
  rw [abs_of_nonneg (by linarith), abs_of_nonneg (by linarith)] at near
  linarith

end Double

open Double

namespace Decimal

/-- The number that a decimal is. -/
def value (d : Decimal) : ℚ := d.significand * 10 ^ d.exponent

theorem value_mul_one (d : Decimal) : d.value * one = d.steps := mul_assoc _ _ _

theorem steps_nonneg (d : Decimal) : 0 ≤ d.steps :=
  mul_nonneg (Nat.cast_nonneg _) (place_pos _).le

theorem steps_small {d : Decimal}
    (tiny : d.exponent + (decimalDigits d.significand).length < -largestPower) :
    2 * d.steps ≤ 1 := by
  obtain ⟨m, largest, above, -⟩ := exists_power
  have less : d.steps < place (-m) :=
    d.steps_lt_place.trans_le (place_le_place.2 (by omega))
  have small : 2 * place (-m) ≤ 1 := by
    rw [place, zpow_neg, zpow_natCast, mul_left_comm, ← div_eq_inv_mul, div_le_one (by positivity)]
    exact_mod_cast above.le
  linarith

theorem steps_large {d : Decimal} (nonzero : d.significand ≠ 0)
    (huge : largestPower < d.exponent + (decimalDigits d.significand).length) :
    ((2 ^ 2099 : Nat) : ℚ) ≤ d.steps := by
  obtain ⟨m, largest, -, beyond⟩ := exists_power
  have least : place m ≤ d.steps :=
    (place_le_place.2 (by omega)).trans (place_le_steps nonzero)
  refine le_trans ?_ least
  rw [place, zpow_natCast]
  exact_mod_cast beyond.le

/-- A decimal is read as the double that it is rounded to. -/
theorem rounded_toDouble (negative : Bool) (d : Decimal) :
    Rounded negative d.value (d.toDouble negative) := by
  have rounds := nearest_rounds negative d.num d.den_pos
  rw [num_div_den] at rounds
  rw [Rounded, value_mul_one]
  rw [toDouble_eq]
  split
  · rename_i nothing
    refine ⟨0, .of_small d.steps_nonneg ?_, by rw [ofUnits, dif_pos representable_zero]; rfl⟩
    obtain zero | tiny := nothing
    · rw [steps, zero, Nat.cast_zero, zero_mul, mul_zero]
      exact zero_le_one
    · exact steps_small tiny
  · rename_i some
    rw [not_or] at some
    split
    · rename_i huge
      obtain ⟨units, rounds, -⟩ := rounds
      refine ⟨units, rounds, ?_⟩
      have large := rounds.two_pow_le (steps_large some.1 huge)
      rw [ofUnits, dif_neg fun fits => Nat.not_le_of_lt (fits.lt_two_pow (by decide)) large]
    · exact rounds

end Decimal

theorem Double.rounded_ofNat (n : Nat) : Rounded false n (ofNat n) := by
  have rounds := nearest_rounds false (n * one) Nat.one_pos
  rw [Nat.cast_one, div_one, Nat.cast_mul] at rounds
  exact rounds

end ScriptBridge
