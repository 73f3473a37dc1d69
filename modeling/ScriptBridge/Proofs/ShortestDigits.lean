import Mathlib.Tactic.Linarith
import Mathlib.Tactic.Ring
import ScriptBridge.Double.Decimal
import ScriptBridge.Proofs.Numbers

/-!
The shortest digits of a double read back. A decimal in the reach of a double is rounded to it,
seventeen digits always reach it, and zeros that are moved into the exponent change nothing.
-/

namespace ScriptBridge

/-- A whole number is within a half of a quotient, and even if it is just a half away. -/
structure HalfEven (num den m : Nat) : Prop where
  low : 2 * (m * den) ≤ 2 * num + den
  high : 2 * num ≤ 2 * (m * den) + den
  tie : 2 * (m * den) = 2 * num + den ∨ 2 * num = 2 * (m * den) + den → m % 2 = 0

theorem halfEven_roundHalfEven (num : Nat) {den : Nat} (positive : 0 < den) :
    HalfEven num den (roundHalfEven num den) := by
  have parts : num / den * den + num % den = num := Nat.div_add_mod' num den
  have rest : num % den < den := Nat.mod_lt num positive
  unfold roundHalfEven
  generalize num / den = q at parts ⊢
  generalize num % den = rest' at parts rest ⊢
  have next : (q + 1) * den = q * den + den := Nat.succ_mul q den
  simp only
  split
  · constructor <;> omega
  · split
    · constructor <;> rw [next] <;> omega
    · split
      · constructor <;> omega
      · constructor <;> rw [next] <;> omega

namespace HalfEven

variable {num den m n : Nat}

/-- Of two such numbers the greater would be just one more, and only one of them is even. -/
theorem le (h : HalfEven num den m) (h' : HalfEven num den n) (positive : 0 < den) : m ≤ n := by
  by_contra less
  obtain ⟨k, rfl⟩ := Nat.exists_eq_add_of_lt (Nat.lt_of_not_le less)
  obtain ⟨low, _, tie⟩ := h
  obtain ⟨_, high, tie'⟩ := h'
  have apart : (n + k + 1) * den = n * den + k * den + den := by ring
  rw [apart] at low tie
  obtain rfl : k = 0 := by
    by_contra more
    have := Nat.le_mul_of_pos_left den (Nat.pos_of_ne_zero more)
    omega
  rw [Nat.zero_mul] at low tie
  have odd := tie (by omega)
  have even := tie' (by omega)
  omega

theorem roundHalfEven_eq (h : HalfEven num den m) (positive : 0 < den) :
    roundHalfEven num den = m :=
  have rounded := halfEven_roundHalfEven num positive
  Nat.le_antisymm (rounded.le h positive) (h.le rounded positive)

end HalfEven

namespace Double

/-! ### What rounds to a double -/

/-- A count of steps between two powers of two has the spacing of the lower one, and small counts
have the least spacing. -/
theorem log2_sub_eq {n k : Nat} (least : k ≠ 0 → 2 ^ (k + 52) ≤ n) (most : n < 2 ^ (k + 53)) :
    n.log2 - 52 = k := by
  by_cases zero : n = 0
  · subst zero
    have first : k = 0 := by
      by_contra shifted
      exact Nat.not_lt.2 (least shifted) (Nat.two_pow_pos _)
    rw [first]
    decide
  · have above : n.log2 < k + 53 := (Nat.log2_lt zero).2 most
    by_cases first : k = 0
    · omega
    · have below : k + 52 ≤ n.log2 := (Nat.le_log2 zero).2 (least first)
      omega

/-- How far apart doubles are from a count of steps on. -/
def spacing (units : Nat) : Nat := 2 ^ (units.log2 - 52)

/-- How far down numbers round to a count of steps, in quarter steps: below a power of two doubles
are twice as close. -/
def slack (units : Nat) : Nat :=
  if units.log2 - 52 ≠ 0 ∧ units = 2 ^ (units.log2 - 52 + 52) then spacing units
  else 2 * spacing units

theorem slack_le (units : Nat) : slack units ≤ 2 * spacing units := by
  unfold slack
  split <;> omega

theorem spacing_dvd {units : Nat} (fits : Representable units) : spacing units ∣ units :=
  Nat.dvd_of_mod_eq_zero fits.2

/-- A quotient lies between the two ends of the numbers that round to a count of steps, which
themselves do for an even multiple of the spacing. -/
structure Near (units num den : Nat) : Prop where
  low : 4 * (units * den) ≤ 4 * num + slack units * den
  high : 2 * num ≤ 2 * (units * den) + spacing units * den
  strict : units / spacing units % 2 ≠ 0 →
    2 * (units * den) < 2 * num + spacing units * den ∧
      2 * num < 2 * (units * den) + spacing units * den

/-- Powers of two are even multiples of their spacing. -/
theorem slack_of_odd {units : Nat} (odd : units / spacing units % 2 ≠ 0) :
    slack units = 2 * spacing units := by
  refine if_neg fun ⟨_, power⟩ => odd ?_
  unfold spacing
  generalize units.log2 - 52 = shift at power ⊢
  rw [power, Nat.pow_add, Nat.mul_div_cancel_left _ (Nat.two_pow_pos shift)]

theorem contains_reach_iff {units num den : Nat} : (reach units).contains (4 * num) den ↔
    if units / spacing units % 2 = 0 then
      4 * (units * den) - slack units * den ≤ 4 * num ∧
        2 * num ≤ 2 * (units * den) + spacing units * den
    else
      4 * (units * den) - 2 * (spacing units * den) < 4 * num ∧
        2 * num < 2 * (units * den) + spacing units * den := by
  have opened : reach units = ⟨4 * units - slack units, 4 * units + 2 * spacing units,
    units / spacing units % 2 = 0⟩ := rfl
  have upper : (4 * units + 2 * spacing units) * den =
      2 * (2 * (units * den) + spacing units * den) := by ring
  rw [opened, Reach.contains]
  simp only [decide_eq_true_eq, upper, Nat.sub_mul, Nat.mul_assoc]
  split
  · simp only [Bool.and_eq_true, decide_eq_true_eq]
    omega
  · rename_i odd
    simp only [Bool.and_eq_true, decide_eq_true_eq, slack_of_odd odd, Nat.mul_assoc]
    omega

theorem near_of_contains {units num den : Nat} (h : (reach units).contains (4 * num) den) :
    Near units num den := by
  rw [contains_reach_iff] at h
  split at h
  · rename_i even
    exact ⟨by omega, h.2, fun odd => absurd even odd⟩
  · rename_i odd
    refine ⟨?_, h.2.le, fun _ => ⟨by omega, h.2⟩⟩
    rw [slack_of_odd odd, Nat.mul_assoc]
    omega

theorem contains_of_near {units num den : Nat} (positive : 0 < num) (near : Near units num den) :
    (reach units).contains (4 * num) den := by
  rw [contains_reach_iff]
  split
  · exact ⟨by have := near.low; omega, near.high⟩
  · rename_i odd
    obtain ⟨above, below⟩ := near.strict odd
    exact ⟨by omega, below⟩

/-- The numbers from the count on that round to it. -/
theorem near_of_between {units num den : Nat} (whole : 0 < den) (low : units * den ≤ num)
    (high : 2 * num < 2 * (units * den) + spacing units * den) : Near units num den := by
  have step : 0 < spacing units * den := Nat.mul_pos (Nat.two_pow_pos _) whole
  exact ⟨by omega, by omega, fun _ => ⟨by omega, by omega⟩⟩

/-- Where the quotient has the spacing of the count, it is rounded to it. -/
theorem nearest_of_spacing {units num den m shift : Nat} (fits : Representable units)
    (parts : m * 2 ^ shift = units) (whole : 0 < den) (same : (num / den).log2 - 52 = shift)
    (rounded : HalfEven num (den * 2 ^ shift) m) (negative : Bool) :
    nearest negative num den = .finite negative units fits := by
  have positive : 0 < den * 2 ^ shift := Nat.mul_pos whole (Nat.two_pow_pos _)
  subst parts
  simp only [nearest, same, rounded.roundHalfEven_eq positive, ofUnits, fits, dite_true]

/-- A count that is a double is a multiple of its spacing by 53 bits, all of them used unless the
spacing is the least. -/
theorem exists_multiple {units : Nat} (fits : Representable units) :
    ∃ m shift, m * 2 ^ shift = units ∧ units.log2 - 52 = shift ∧ m < 2 ^ 53 ∧
      (shift ≠ 0 → 2 ^ 52 ≤ m) := by
  refine ⟨units / spacing units, units.log2 - 52, Nat.div_mul_cancel (spacing_dvd fits), rfl, ?_,
    fun shifted => ?_⟩
  · rw [spacing, Nat.div_lt_iff_lt_mul (Nat.two_pow_pos _), ← Nat.pow_add]
    exact Nat.lt_of_lt_of_le Nat.lt_log2_self (Nat.pow_le_pow_right (by decide) (by omega))
  · have bits : 52 + (units.log2 - 52) = units.log2 := by omega
    rw [spacing, Nat.le_div_iff_mul_le (Nat.two_pow_pos _), ← Nat.pow_add, bits]
    exact Nat.log2_self_le fun zero => by simp [zero] at shifted

section Multiple

variable {num den m shift : Nat}

/-- What is near to a multiple of the spacing is rounded to this multiple. -/
theorem Near.halfEven (near : Near (m * 2 ^ shift) num den)
    (log : (m * 2 ^ shift).log2 - 52 = shift) : HalfEven num (den * 2 ^ shift) m := by
  have gap : spacing (m * 2 ^ shift) = 2 ^ shift := by rw [spacing, log]
  have multiple : m * 2 ^ shift / 2 ^ shift = m := Nat.mul_div_cancel m (Nat.two_pow_pos shift)
  have scaled : m * 2 ^ shift * den = m * (den * 2 ^ shift) := by ring
  have scaled' : 2 ^ shift * den = den * 2 ^ shift := Nat.mul_comm _ _
  have close := Nat.mul_le_mul_right den (slack_le (m * 2 ^ shift))
  obtain ⟨low, high, strict⟩ := near
  rw [gap, Nat.mul_assoc, scaled'] at close
  rw [gap, scaled, scaled'] at high
  rw [gap, multiple, scaled, scaled'] at strict
  rw [scaled] at low
  constructor <;> omega

/-- Just below a power of two the doubles are twice as close as from there on, and only the power
itself is near to what lies there. -/
theorem nearest_below_power (fits : Representable (m * 2 ^ shift)) (whole : 0 < den)
    (near : Near (m * 2 ^ shift) num den) (log : (m * 2 ^ shift).log2 - 52 = shift)
    (shifted : shift ≠ 0) (least : 2 ^ 52 ≤ m) (below : num / den < 2 ^ (shift + 52))
    (negative : Bool) : nearest negative num den = .finite negative (m * 2 ^ shift) fits := by
  obtain ⟨k, rfl⟩ : ∃ k, shift = k + 1 := ⟨shift - 1, by omega⟩
  have exponent : k + 1 + 52 = k + 53 := by omega
  have powers (c : Nat) : 2 ^ (k + c) * den = 2 ^ c * (den * 2 ^ k) := by rw [Nat.pow_add]; ring
  have double : den * 2 ^ (k + 1) = 2 * (den * 2 ^ k) := by ring
  have positive : 0 < den * 2 ^ k := Nat.mul_pos whole (Nat.two_pow_pos k)
  have close := (near.halfEven log).low
  rw [exponent] at below
  have short := (Nat.div_lt_iff_lt_mul whole).1 below
  rw [powers] at short
  obtain rfl : m = 2 ^ 52 := by
    by_contra other
    have next := Nat.mul_le_mul_right (den * 2 ^ (k + 1)) (Nat.lt_of_le_of_ne least (Ne.symm other))
    rw [Nat.succ_eq_add_one, double] at next
    rw [double] at close
    omega
  have edge : 2 ^ 53 * 2 ^ k = 2 ^ 52 * 2 ^ (k + 1) := by ring
  have power : 2 ^ 52 * 2 ^ (k + 1) = 2 ^ (k + 53) := by ring
  have low := near.low
  rw [slack, spacing, log, exponent, if_pos ⟨shifted, power⟩, power, powers, powers] at low
  refine nearest_of_spacing fits edge whole (log2_sub_eq (fun _ => ?_) ?_)
    ⟨by omega, by omega, fun _ => by decide⟩ negative
  · rw [Nat.le_div_iff_mul_le whole, powers]
    omega
  · exact below

/-- What is near to a double is rounded to it. -/
theorem nearest_of_near {units : Nat} (fits : Representable units) (whole : 0 < den)
    (near : Near units num den) (negative : Bool) :
    nearest negative num den = .finite negative units fits := by
  obtain ⟨m, shift, rfl, log, few, least⟩ := exists_multiple fits
  have rounded := near.halfEven log
  have most : num / den < 2 ^ (shift + 53) := by
    have power : 2 ^ (shift + 53) * den = 2 ^ 53 * (den * 2 ^ shift) := by rw [Nat.pow_add]; ring
    have positive : 0 < den * 2 ^ shift := Nat.mul_pos whole (Nat.two_pow_pos shift)
    have more := Nat.mul_le_mul_right (den * 2 ^ shift) few
    have high := rounded.high
    rw [Nat.succ_mul] at more
    rw [Nat.div_lt_iff_lt_mul whole, power]
    omega
  by_cases low : shift ≠ 0 → 2 ^ (shift + 52) ≤ num / den
  · exact nearest_of_spacing fits rfl whole (log2_sub_eq low most) rounded negative
  · obtain ⟨shifted, below⟩ := Classical.not_imp.1 low
    exact nearest_below_power fits whole near log shifted (least shifted) (Nat.not_le.1 below)
      negative

end Multiple

/-- Nearness is a matter of the quotient. -/
theorem Near.of_ratio {units num den num' den' : Nat} (h : Near units num den) (whole : 0 < den)
    (whole' : 0 < den') (ratio : num * den' = num' * den) : Near units num' den' := by
  obtain ⟨low, high, strict⟩ := h
  refine ⟨?_, ?_, fun odd => ?_⟩
  · refine Nat.le_of_mul_le_mul_right ?_ whole
    linarith [Nat.mul_le_mul_right den' low]
  · refine Nat.le_of_mul_le_mul_right ?_ whole
    linarith [Nat.mul_le_mul_right den' high]
  · obtain ⟨above, below⟩ := strict odd
    constructor
    · refine Nat.lt_of_mul_lt_mul_right ?_ (a := den)
      linarith [Nat.mul_lt_mul_of_pos_right above whole']
    · refine Nat.lt_of_mul_lt_mul_right ?_ (a := den)
      linarith [Nat.mul_lt_mul_of_pos_right below whole']

/-- What is near a count of steps is about as large as it. -/
theorem Near.bounds {units num den : Nat} (h : Near units num den) (fits : Representable units)
    (positive : 0 < units) (whole : 0 < den) : den ≤ 2 * num ∧ num < 2 ^ 2099 * den := by
  obtain ⟨low, high, _⟩ := h
  have wide : spacing units * den ≤ units * den :=
    Nat.mul_le_mul_right den (Nat.le_of_dvd positive (spacing_dvd fits))
  have close := Nat.mul_le_mul_right den (slack_le units)
  have least : 1 * den ≤ units * den := Nat.mul_le_mul_right den positive
  have most : units * den < 2 ^ 2098 * den := Nat.mul_lt_mul_of_pos_right fits.1 whole
  have double : 2 ^ 2099 * den = 2 * (2 ^ 2098 * den) := by
    rw [← Nat.mul_assoc, ← Nat.pow_succ']
  rw [Nat.mul_assoc] at close
  omega

end Double

/-! ### Digits -/

theorem lt_pow_length_decimalDigits (n : Nat) : n < 10 ^ (decimalDigits n).length :=
  (Nat.length_toDigits_le_iff (by decide) Nat.length_toDigits_pos).1 (Nat.le_refl _)

theorem pow_length_decimalDigits_le {n : Nat} (positive : 0 < n) :
    10 ^ ((decimalDigits n).length - 1) ≤ n := by
  by_contra small
  by_cases one : (decimalDigits n).length - 1 = 0
  · rw [one] at small
    omega
  · have shorter := (Nat.length_toDigits_le_iff (by decide) (by omega)).2 (Nat.not_le.1 small)
    unfold decimalDigits at one shorter
    omega

namespace Decimal

/-- A decimal is a quotient of whole numbers of steps. -/
def num (d : Decimal) : Nat := d.significand * 10 ^ d.exponent.toNat * Double.one

def den (d : Decimal) : Nat := 10 ^ (-d.exponent).toNat

theorem den_pos (d : Decimal) : 0 < d.den := Nat.pow_pos (by decide)

/-- Beyond this power of ten there are no doubles, and below its inverse no steps. -/
theorem exists_power : ∃ m : Nat, (m : Int) = largestPower ∧ 2 * Double.one < 10 ^ m ∧
    2 ^ 2099 < 10 ^ m * Double.one :=
  ⟨400, rfl, by decide +kernel, by decide +kernel⟩

/-- Decimals that are near to a double are within the powers of ten that are looked at. -/
theorem top_bounds {d : Decimal} (least : d.den ≤ 2 * d.num) (most : d.num < 2 ^ 2099 * d.den) :
    d.significand ≠ 0 ∧ -largestPower ≤ d.exponent + (decimalDigits d.significand).length ∧
      d.exponent + (decimalDigits d.significand).length ≤ largestPower := by
  have nonzero : d.significand ≠ 0 := by
    intro zero
    have := d.den_pos
    rw [num, zero] at least
    omega
  have length := Nat.length_toDigits_pos (n := d.significand) (b := 10)
  have low := lt_pow_length_decimalDigits d.significand
  have high := pow_length_decimalDigits_le (Nat.pos_of_ne_zero nonzero)
  have grow (m n : Nat) : m ≤ m * 10 ^ n := Nat.le_mul_of_pos_right m (Nat.pow_pos (by decide))
  obtain ⟨m, largest, above, beyond⟩ := exists_power
  rw [← largest]
  refine ⟨nonzero, ?_, ?_⟩
  · by_contra tiny
    have up : d.exponent.toNat = 0 := by omega
    obtain ⟨n, down⟩ : ∃ n, (-d.exponent).toNat = (decimalDigits d.significand).length + m + n :=
      Nat.exists_eq_add_of_le (by omega)
    rw [num, den, up, down, Nat.pow_add, Nat.pow_add, Nat.pow_zero, Nat.mul_one] at least
    linarith [Nat.mul_lt_mul'' low above,
      grow (10 ^ (decimalDigits d.significand).length * 10 ^ m) n]
  · by_contra huge
    obtain ⟨n, up⟩ : ∃ n, (decimalDigits d.significand).length - 1 + d.exponent.toNat =
        (-d.exponent).toNat + m + n := Nat.exists_eq_add_of_le (by omega)
    have powers : 10 ^ ((decimalDigits d.significand).length - 1) * 10 ^ d.exponent.toNat =
        d.den * 10 ^ m * 10 ^ n := by rw [← Nat.pow_add, up, Nat.pow_add, Nat.pow_add, den]
    have scaled := (grow (d.den * 10 ^ m) n).trans
      (powers.ge.trans (Nat.mul_le_mul_right (10 ^ d.exponent.toNat) high))
    refine Nat.lt_irrefl d.num (most.trans ?_)
    calc 2 ^ 2099 * d.den < 10 ^ m * Double.one * d.den :=
          Nat.mul_lt_mul_of_pos_right beyond d.den_pos
      _ = d.den * 10 ^ m * Double.one := by ring
      _ ≤ d.num := Nat.mul_le_mul_right Double.one scaled

/-- A decimal whose first digit has neither too small nor too large a place is rounded. -/
theorem toDouble_eq (negative : Bool) (d : Decimal) :
    let top : Int := d.exponent + (decimalDigits d.significand).length
    d.toDouble negative =
      if d.significand = 0 ∨ top < -largestPower then Double.zero negative
      else if largestPower < top then .infinity negative
      else Double.nearest negative d.num d.den := by
  intro top
  have nearest : (if 0 ≤ d.exponent then
      Double.nearest negative (d.significand * 10 ^ d.exponent.toNat * Double.one) 1
      else Double.nearest negative (d.significand * Double.one) (10 ^ (-d.exponent).toNat)) =
      Double.nearest negative d.num d.den := by
    split
    · rename_i up
      rw [num, den, Int.toNat_of_nonpos (Int.neg_nonpos_of_nonneg up), Nat.pow_zero]
    · rename_i down
      rw [num, den, Int.toNat_of_nonpos (Int.le_of_not_le down), Nat.pow_zero, Nat.mul_one]
  rw [toDouble, nearest]

/-- A decimal that is near to a double is rounded to it. -/
theorem toDouble_of_near {d : Decimal} {units : Nat} (near : Double.Near units d.num d.den)
    (fits : Representable units) (positive : 0 < units) (negative : Bool) :
    d.toDouble negative = .finite negative units fits := by
  have rounds := Double.nearest_of_near fits d.den_pos near negative
  obtain ⟨least, most⟩ := near.bounds fits positive d.den_pos
  obtain ⟨nonzero, notTiny, notHuge⟩ := top_bounds least most
  rw [toDouble_eq, if_neg (by simp [nonzero, notTiny]), if_neg (Int.not_lt.2 notHuge)]
  exact rounds

/-! ### Shortest digits -/

/-- Two decimals are the same number. -/
def Same (d d' : Decimal) : Prop := d.num * d'.den = d'.num * d.den

/-- Zeros may stand in the significand or in the exponent. -/
theorem same_of_zeros (s k : Nat) (e : Int) : Same ⟨s * 10 ^ k, e⟩ ⟨s, e + k⟩ := by
  have powers : 10 ^ k * 10 ^ e.toNat * 10 ^ (-(e + k)).toNat =
      10 ^ (e + k).toNat * 10 ^ (-e).toNat := by
    rw [← Nat.pow_add, ← Nat.pow_add, ← Nat.pow_add]
    congr 1
    omega
  calc s * 10 ^ k * 10 ^ e.toNat * Double.one * 10 ^ (-(e + k)).toNat
      = s * Double.one * (10 ^ k * 10 ^ e.toNat * 10 ^ (-(e + k)).toNat) := by ring
    _ = s * Double.one * (10 ^ (e + k).toNat * 10 ^ (-e).toNat) := by rw [powers]
    _ = s * 10 ^ (e + k).toNat * Double.one * 10 ^ (-e).toNat := by ring

theorem normalize_zeros (d : Decimal) : ∃ k : Nat,
    d.significand = d.normalize.significand * 10 ^ k ∧ d.normalize.exponent = d.exponent + k := by
  induction d using normalize.induct with
  | case1 d h ih =>
    obtain ⟨k, digits, exponent⟩ := ih
    rw [normalize, dif_pos h]
    refine ⟨k + 1, ?_, by rw [exponent]; push_cast; ring⟩
    rw [Nat.pow_add, ← Nat.mul_assoc, ← digits]
    change d.significand = d.significand / 10 * 10
    omega
  | case2 d h =>
    rw [normalize, dif_neg h]
    exact ⟨0, by simp, by simp⟩

end Decimal

namespace Double

variable {units : Nat} {exponent : Int} {d : Decimal}

/-- What is found has its last place where it was looked for, and is in reach. -/
theorem of_nearestInReach? (h : nearestInReach? units exponent = some d) :
    d.exponent = exponent ∧ (reach units).contains (4 * d.significand * one * 10 ^ exponent.toNat)
      (10 ^ (-exponent).toNat) := by
  unfold nearestInReach? at h
  -- the size of a step plays no part, and is too large to be computed with
  generalize one = step at h ⊢
  simp only at h
  split at h
  · rename_i below above
    cases h
    refine ⟨rfl, ?_⟩
    split
    · exact (Bool.and_eq_true_iff.1 below).1
    · exact above
  · rename_i below _
    cases h
    exact ⟨rfl, (Bool.and_eq_true_iff.1 below).1⟩
  · rename_i above
    cases h
    exact ⟨rfl, above⟩
  · cases h

/-- Something is found if one of the two neighbours is in reach. -/
theorem isSome_nearestInReach? (units : Nat) (exponent : Int) :
    let below := units * 10 ^ (-exponent).toNat / (one * 10 ^ exponent.toNat)
    let inReach (s : Nat) := (reach units).contains (4 * s * one * 10 ^ exponent.toNat)
      (10 ^ (-exponent).toNat)
    (nearestInReach? units exponent).isSome =
      (inReach below && below ≠ 0 || inReach (below + 1)) := by
  unfold nearestInReach?
  generalize one = step
  dsimp only
  generalize units * 10 ^ (-exponent).toNat / (step * 10 ^ exponent.toNat) = below
  generalize (reach units).contains (4 * below * step * 10 ^ exponent.toNat)
    (10 ^ (-exponent).toNat) = lower
  generalize (reach units).contains (4 * (below + 1) * step * 10 ^ exponent.toNat)
    (10 ^ (-exponent).toNat) = upper
  cases lower && decide (below ≠ 0) <;> cases upper <;> rfl

theorem near_of_nearestInReach? (h : nearestInReach? units exponent = some d) :
    Near units d.num d.den := by
  obtain ⟨rfl, inReach⟩ := of_nearestInReach? h
  refine near_of_contains ?_
  have eq : 4 * d.num = 4 * d.significand * one * 10 ^ d.exponent.toNat := by
    rw [Decimal.num]
    ring
  rw [eq]
  exact inReach

/-- Decimals whose places are finer than half the spacing reach the double. -/
theorem nearestInReach?_of_fine
    (fine : 2 * (one * 10 ^ exponent.toNat) < spacing units * 10 ^ (-exponent).toNat) :
    (nearestInReach? units exponent).isSome := by
  have reaches : (reach units).contains
      (4 * (units * 10 ^ (-exponent).toNat / (one * 10 ^ exponent.toNat) + 1) * one *
        10 ^ exponent.toNat) (10 ^ (-exponent).toNat) := by
    have place : 0 < one * 10 ^ exponent.toNat := Nat.mul_pos one_pos (Nat.pow_pos (by decide))
    have whole : 0 < 10 ^ (-exponent).toNat := Nat.pow_pos (by decide)
    rw [Nat.mul_assoc, Nat.mul_assoc]
    generalize 10 ^ (-exponent).toNat = down at *
    generalize one * 10 ^ exponent.toNat = step at *
    have parts := Nat.div_add_mod' (units * down) step
    have rest := Nat.mod_lt (units * down) place
    refine contains_of_near ?_ (near_of_between whole ?_ ?_)
    · exact Nat.mul_pos (Nat.succ_pos _) place
    · rw [Nat.add_mul, Nat.one_mul]
      omega
    · rw [Nat.add_mul, Nat.one_mul]
      omega
  rw [isSome_nearestInReach?]
  exact Bool.or_eq_true_iff.2 (.inr reaches)

/-- The digits of a number scaled by a power of ten tell how large it is. -/
theorem point_le {m n : Nat} (shown : 0 < units * 10 ^ m / one)
    (digits : n + 1 = (decimalDigits (units * 10 ^ m / one)).length) :
    one * 10 ^ ((n : Int) - m).toNat ≤ units * 10 ^ (-((n : Int) - m)).toNat := by
  have low := pow_length_decimalDigits_le shown
  rw [← digits, Nat.add_sub_cancel, Nat.le_div_iff_mul_le one_pos] at low
  have powers : 10 ^ m * 10 ^ ((n : Int) - m).toNat = 10 ^ n * 10 ^ (-((n : Int) - m)).toNat := by
    rw [← Nat.pow_add, ← Nat.pow_add]
    congr 1
    omega
  refine Nat.le_of_mul_le_mul_left ?_ (Nat.pow_pos (n := m) (show 0 < 10 by decide))
  calc 10 ^ m * (one * 10 ^ ((n : Int) - m).toNat)
      = 10 ^ n * one * 10 ^ (-((n : Int) - m)).toNat := by
        rw [Nat.mul_left_comm, powers]
        ring
    _ ≤ units * 10 ^ m * 10 ^ (-((n : Int) - m)).toNat := Nat.mul_le_mul_right _ low
    _ = 10 ^ m * (units * 10 ^ (-((n : Int) - m)).toNat) := by ring

theorem one_le_ten_pow : one ≤ 10 ^ 330 := by decide +kernel

/-- The decimal point stands no further to the right than the first digit needs. -/
theorem decimalPoint_le (positive : 0 < units) :
    one * 10 ^ (decimalPoint units - 1).toNat ≤ units * 10 ^ (-(decimalPoint units - 1)).toNat := by
  unfold decimalPoint
  simp only
  split
  · rename_i whole
    obtain ⟨n, digits⟩ : ∃ n, n + 1 = (decimalDigits (units * 10 ^ 0 / one)).length :=
      ⟨_, Nat.sub_add_cancel Nat.length_toDigits_pos⟩
    have low := point_le (m := 0) (Nat.pos_of_ne_zero (by simpa using whole)) digits
    rw [Nat.pow_zero, Nat.mul_one] at digits
    rw [← digits]
    simpa using low
  · have shown : 0 < units * 10 ^ 330 / one :=
      Nat.div_pos (one_le_ten_pow.trans (Nat.le_mul_of_pos_left _ positive)) one_pos
    obtain ⟨n, digits⟩ : ∃ n, n + 1 = (decimalDigits (units * 10 ^ 330 / one)).length :=
      ⟨_, Nat.sub_add_cancel Nat.length_toDigits_pos⟩
    have low := point_le shown digits
    have point : ((decimalDigits (units * 10 ^ 330 / one)).length : Int) - 330 - 1 =
        (n : Int) - (330 : Nat) := by omega
    rw [point]
    exact low

/-- The eighteenth digit is finer than half the spacing of the doubles. -/
theorem fine_of_eighteen (positive : 0 < units) :
    2 * (one * 10 ^ (decimalPoint units - 18).toNat) <
      spacing units * 10 ^ (-(decimalPoint units - 18)).toNat := by
  have low := decimalPoint_le positive
  have bits : units < 2 ^ 53 * spacing units := by
    rw [spacing, ← Nat.pow_add]
    exact Nat.lt_of_lt_of_le Nat.lt_log2_self (Nat.pow_le_pow_right (by decide) (by omega))
  generalize decimalPoint units = point at low ⊢
  have powers : 10 ^ 17 * 10 ^ (point - 18).toNat * 10 ^ (-(point - 1)).toNat =
      10 ^ (point - 1).toNat * 10 ^ (-(point - 18)).toNat := by
    rw [← Nat.pow_add, ← Nat.pow_add, ← Nat.pow_add]
    congr 1
    omega
  have positive' (n : Nat) : 0 < 10 ^ n := Nat.pow_pos (by decide)
  refine Nat.lt_of_mul_lt_mul_left (a := 10 ^ 17 * 10 ^ (-(point - 1)).toNat) ?_
  calc 10 ^ 17 * 10 ^ (-(point - 1)).toNat * (2 * (one * 10 ^ (point - 18).toNat))
      = 2 * (one * (10 ^ 17 * 10 ^ (point - 18).toNat * 10 ^ (-(point - 1)).toNat)) := by ring
    _ = 2 * (one * 10 ^ (point - 1).toNat) * 10 ^ (-(point - 18)).toNat := by
        rw [powers]
        ring
    _ ≤ 2 * (units * 10 ^ (-(point - 1)).toNat) * 10 ^ (-(point - 18)).toNat :=
        Nat.mul_le_mul_right _ (Nat.mul_le_mul_left 2 low)
    _ < 2 * (2 ^ 53 * spacing units * 10 ^ (-(point - 1)).toNat) *
          10 ^ (-(point - 18)).toNat := by
        refine Nat.mul_lt_mul_of_pos_right (Nat.mul_lt_mul_of_pos_left ?_ (by decide))
          (positive' _)
        exact Nat.mul_lt_mul_of_pos_right bits (positive' _)
    _ = 2 ^ 54 * (10 ^ (-(point - 1)).toNat * (spacing units * 10 ^ (-(point - 18)).toNat)) := by
        ring
    _ ≤ 10 ^ 17 * (10 ^ (-(point - 1)).toNat * (spacing units * 10 ^ (-(point - 18)).toNat)) :=
        Nat.mul_le_mul_right _ (by decide)
    _ = 10 ^ 17 * 10 ^ (-(point - 1)).toNat * (spacing units * 10 ^ (-(point - 18)).toNat) :=
        (Nat.mul_assoc _ _ _).symm

/-- The digits are those of the first place that reaches the double. -/
theorem shortestFrom_eq {tries count k : Nat} {point : Int} (soon : k < tries)
    (found : (nearestInReach? units (point - (count + k : Nat))).isSome) :
    ∃ j ≤ k, ∃ d, nearestInReach? units (point - (count + j : Nat)) = some d ∧
      shortestFrom units point tries count = d.normalize := by
  induction tries generalizing count k with
  | zero => cases soon
  | succ tries ih =>
    rw [shortestFrom]
    cases here : nearestInReach? units (point - count) with
    | some d => exact ⟨0, Nat.zero_le k, d, here, rfl⟩
    | none =>
      cases k with
      | zero =>
        rw [Nat.add_zero, here] at found
        cases found
      | succ k =>
        have next (j : Nat) : count + (j + 1) = count + 1 + j := by omega
        rw [next] at found
        obtain ⟨j, within, d, first, digits⟩ := ih (Nat.lt_of_succ_lt_succ soon) found
        exact ⟨j + 1, Nat.succ_le_succ within, d, by rw [next, first], digits⟩

/-- The shortest digits are near. -/
theorem near_shortest (positive : 0 < units) :
    Near units (shortest units).num (shortest units).den := by
  have fine : (nearestInReach? units (decimalPoint units - (1 + 17 : Nat))).isSome :=
    nearestInReach?_of_fine (fine_of_eighteen positive)
  obtain ⟨_, _, d, found, digits⟩ := shortestFrom_eq (show 17 < 18 by decide) fine
  obtain ⟨k, zeros, moved⟩ := d.normalize_zeros
  have same : d.Same d.normalize := by
    have same := Decimal.same_of_zeros d.normalize.significand k d.exponent
    rw [← zeros, ← moved] at same
    exact same
  rw [shortest, digits]
  exact (near_of_nearestInReach? found).of_ratio d.den_pos d.normalize.den_pos same

end Double

/-- The shortest digits of a double read back, wherever their zeros stand. -/
theorem Decimal.toDouble_of_same_shortest {d : Decimal} {units : Nat}
    (same : (Double.shortest units).Same d) (fits : Representable units) (positive : 0 < units)
    (negative : Bool) : d.toDouble negative = .finite negative units fits :=
  toDouble_of_near ((Double.near_shortest positive).of_ratio (den_pos _) d.den_pos same) fits
    positive negative

end ScriptBridge
