import Mathlib.Algebra.Order.Field.Power
import Mathlib.Tactic.Positivity
import ScriptBridge.Proofs.RoundingReach

/-!
The shortest digits of a double are the fewest that read back, and of as many digits no others come
closer. Any decimal that reads back has another in its stead on the grid of as many places, at least
as close; the search stops at the first grid with a decimal that reads back.
-/

namespace ScriptBridge

namespace Decimal

theorem one_pos_rat : (0 : ℚ) < Double.one := by exact_mod_cast Double.one_pos

theorem place_pos (e : Int) : 0 < place e := mul_pos (zpow_pos (by norm_num) e) one_pos_rat

theorem place_add (e : Int) (k : Nat) : place (e + k) = 10 ^ k * place e := by
  rw [place, place, zpow_add₀ (by norm_num), zpow_natCast]
  ring

theorem place_lt_place {e f : Int} : place e < place f ↔ e < f := by
  rw [place, place, mul_lt_mul_iff_of_pos_right one_pos_rat]
  exact zpow_lt_zpow_iff_right₀ (by norm_num)

theorem place_le_place {e f : Int} : place e ≤ place f ↔ e ≤ f := by
  rw [← not_lt, place_lt_place, Int.not_lt]

theorem steps_mono {m n : Nat} (e : Int) (h : m ≤ n) : steps ⟨m, e⟩ ≤ steps ⟨n, e⟩ :=
  mul_le_mul_of_nonneg_right (by exact_mod_cast h) (place_pos e).le

/-- Zeros at the end of the significand belong to the place as well. -/
theorem steps_zeros (n k : Nat) (e : Int) : steps ⟨n * 10 ^ k, e⟩ = steps ⟨n, e + k⟩ := by
  simp only [steps]
  rw [place_add]
  push_cast
  ring

theorem steps_normalize (d : Decimal) : d.normalize.steps = d.steps := by
  obtain ⟨k, zeros, moved⟩ := d.normalize_zeros
  have same := steps_zeros d.normalize.significand k d.exponent
  rw [← zeros, ← moved] at same
  exact same.symm

theorem normalize_mod {d : Decimal} (nonzero : d.significand ≠ 0) :
    d.normalize.significand % 10 ≠ 0 := by
  induction d using normalize.induct with
  | case1 d h ih =>
    rw [normalize, dif_pos h]
    refine ih ?_
    change d.significand / 10 ≠ 0
    omega
  | case2 d h =>
    rw [normalize, dif_neg h]
    intro zero
    exact h ⟨nonzero, zero⟩

/-- A power of ten has one digit when its zeros are moved into the exponent. -/
theorem length_normalize_le {d : Decimal} (nonzero : d.significand ≠ 0) {c : Nat} (some : 0 < c)
    (few : d.significand ≤ 10 ^ c) : (decimalDigits d.normalize.significand).length ≤ c := by
  rw [decimalDigits, Nat.length_toDigits_le_iff (by decide) some]
  obtain ⟨k, zeros, -⟩ := d.normalize_zeros
  have last := normalize_mod nonzero
  obtain ⟨c, rfl⟩ := Nat.exists_eq_succ_of_ne_zero some.ne'
  generalize d.normalize.significand = s at *
  cases k with
  | zero =>
    rw [Nat.pow_zero, Nat.mul_one] at zeros
    subst zeros
    refine Nat.lt_of_le_of_ne few fun power => last ?_
    rw [power, Nat.pow_succ, Nat.mul_mod_left]
  | succ k =>
    have positive : 0 < s := by omega
    have more : s < s * 10 ^ (k + 1) := by
      refine (Nat.lt_mul_iff_one_lt_right positive).2 (Nat.one_lt_pow (by omega) (by decide))
    omega

/-- The places of a decimal are those of its digits: it is less than the next power of ten. -/
theorem steps_lt_place (d : Decimal) :
    d.steps < place (d.exponent + (decimalDigits d.significand).length) := by
  rw [place_add, steps, mul_lt_mul_iff_of_pos_right (place_pos _)]
  exact_mod_cast lt_pow_length_decimalDigits d.significand

theorem place_le_steps {d : Decimal} (nonzero : d.significand ≠ 0) :
    place (d.exponent + (decimalDigits d.significand).length - 1) ≤ d.steps := by
  have least := pow_length_decimalDigits_le (Nat.pos_of_ne_zero nonzero)
  have digits := Nat.length_toDigits_pos (n := d.significand) (b := 10)
  have before : d.exponent + (decimalDigits d.significand).length - 1 =
      d.exponent + ((decimalDigits d.significand).length - 1 : Nat) := by
    unfold decimalDigits
    omega
  rw [before, place_add, steps, mul_le_mul_iff_of_pos_right (place_pos _)]
  exact_mod_cast least

end Decimal

namespace Double

open Decimal

variable {units : Nat} {exponent : Int} {d : Decimal}

/-! ### Where the first digit stands -/

theorem place_eq (e : Int) : place e = (one * 10 ^ e.toNat : Nat) / (10 ^ (-e).toNat : Nat) := by
  have same := num_div_den ⟨1, e⟩
  rw [steps, num, den, Nat.one_mul, Nat.mul_comm, Nat.cast_one, one_mul] at same
  exact same.symm

theorem place_decimalPoint_le (positive : 0 < units) : place (decimalPoint units - 1) ≤ units := by
  rw [place_eq, div_le_iff₀ (by exact_mod_cast Nat.pow_pos (by decide))]
  exact_mod_cast decimalPoint_le positive

theorem lt_place_of_digits (units m : Nat) :
    (units : ℚ) < place ((decimalDigits (units * 10 ^ m / one)).length - m) := by
  have more := lt_pow_length_decimalDigits (units * 10 ^ m / one)
  rw [Nat.div_lt_iff_lt_mul one_pos] at more
  generalize (decimalDigits (units * 10 ^ m / one)).length = n at more ⊢
  have scaled : place n = 10 ^ m * place (n - m) := by rw [← place_add, sub_add_cancel]
  refine lt_of_mul_lt_mul_left ?_ (pow_nonneg (by norm_num : (0 : ℚ) ≤ 10) m)
  rw [← scaled, place, zpow_natCast, mul_comm]
  exact_mod_cast more

theorem lt_place_decimalPoint (units : Nat) : (units : ℚ) < place (decimalPoint units) := by
  unfold decimalPoint
  simp only
  split
  · have low := lt_place_of_digits units 0
    rw [Nat.pow_zero, Nat.mul_one] at low
    simpa using low
  · exact lt_place_of_digits units 330

/-! ### Grids -/

/-- How many last places a count of steps has. -/
def below (units : Nat) (exponent : Int) : Nat :=
  units * 10 ^ (-exponent).toNat / (one * 10 ^ exponent.toNat)

theorem steps_below_le (units : Nat) (exponent : Int) :
    steps ⟨below units exponent, exponent⟩ ≤ units := by
  rw [steps, place_eq, ← mul_div_assoc, div_le_iff₀ (by exact_mod_cast Nat.pow_pos (by decide))]
  exact_mod_cast Nat.div_mul_le_self _ _

theorem lt_steps_below (units : Nat) (exponent : Int) :
    units < steps ⟨below units exponent + 1, exponent⟩ := by
  have place : 0 < one * 10 ^ exponent.toNat := Nat.mul_pos one_pos (Nat.pow_pos (by decide))
  rw [steps, place_eq, ← mul_div_assoc, lt_div_iff₀ (by exact_mod_cast Nat.pow_pos (by decide))]
  have more := Nat.lt_div_mul_add place (a := units * 10 ^ (-exponent).toNat)
  rw [← Nat.succ_mul] at more
  exact_mod_cast more

/-- Of the two neighbours on a grid the lower one is nearer if the rest is less than half. -/
theorem nearer_below (units : Nat) (exponent : Int) :
    2 * (units * 10 ^ (-exponent).toNat % (one * 10 ^ exponent.toNat)) < one * 10 ^ exponent.toNat ↔
      units - steps ⟨below units exponent, exponent⟩ <
        steps ⟨below units exponent + 1, exponent⟩ - units := by
  have whole : (0 : ℚ) < (10 ^ (-exponent).toNat : Nat) := by
    exact_mod_cast Nat.pow_pos (by decide)
  have parts := Nat.div_add_mod' (units * 10 ^ (-exponent).toNat) (one * 10 ^ exponent.toNat)
  simp only [steps, below, place_eq]
  generalize 10 ^ (-exponent).toNat = den at whole parts ⊢
  generalize one * 10 ^ exponent.toNat = step at parts ⊢
  generalize units * den % step = rest at parts ⊢
  generalize units * den / step = s at parts ⊢
  have total : (units : ℚ) = (s * step + rest) / den := by
    rw [eq_div_iff whole.ne']
    exact_mod_cast parts.symm
  have left : units - s * ((step : ℚ) / den) = rest / den := by
    rw [total]
    ring
  have right : (s + 1 : Nat) * ((step : ℚ) / den) - units = (step - rest) / den := by
    rw [total]
    push_cast
    ring
  rw [left, right, div_lt_div_iff_of_pos_right whole, lt_sub_iff_add_lt, ← two_mul]
  norm_cast

theorem contains_iff_reaches (fits : Representable units) (positive : 0 < units) (s : Nat)
    (exponent : Int) :
    (reach units).contains (4 * s * one * 10 ^ exponent.toNat) (10 ^ (-exponent).toNat) ↔
      Reaches units (steps ⟨s, exponent⟩) := by
  have scaled : 4 * s * one * 10 ^ exponent.toNat = 4 * num ⟨s, exponent⟩ := by
    rw [num]
    ring
  rw [← num_div_den, reaches_iff_near (den_pos _), scaled]
  refine ⟨near_of_contains, fun near => contains_of_near ?_ near⟩
  have least := (near.bounds fits positive (den_pos _)).1
  have whole := den_pos ⟨s, exponent⟩
  omega

/-- A decimal with a given last place that reads back, none with that place closer. -/
structure Closest (units : Nat) (exponent : Int) (d : Decimal) : Prop where
  onGrid : d.exponent = exponent
  reaches : Reaches units d.steps
  neighbour : d.significand = below units exponent ∨ d.significand = below units exponent + 1
  closest : ∀ n ≠ 0, Reaches units (steps ⟨n, exponent⟩) →
    |d.steps - units| ≤ |steps ⟨n, exponent⟩ - units|

section Neighbours

variable {n : Nat}

theorem abs_steps_below (units : Nat) (exponent : Int) :
    |steps ⟨below units exponent, exponent⟩ - units| =
      units - steps ⟨below units exponent, exponent⟩ := by
  rw [abs_of_nonpos (sub_nonpos.2 (steps_below_le units exponent)), neg_sub]

theorem abs_steps_above (units : Nat) (exponent : Int) :
    |steps ⟨below units exponent + 1, exponent⟩ - units| =
      steps ⟨below units exponent + 1, exponent⟩ - units :=
  abs_of_nonneg (sub_nonneg.2 (lt_steps_below units exponent).le)

/-- A decimal in reach from below brings the lower neighbour in reach. -/
theorem lower_of_le (h : n ≤ below units exponent) (reaches : Reaches units (steps ⟨n, exponent⟩)) :
    Reaches units (steps ⟨below units exponent, exponent⟩) ∧
      units - steps ⟨below units exponent, exponent⟩ ≤ |steps ⟨n, exponent⟩ - units| := by
  have first := steps_mono exponent h
  have low := steps_below_le units exponent
  refine ⟨reaches.between (.self units) first low, ?_⟩
  rw [abs_of_nonpos (sub_nonpos.2 (first.trans low))]
  linarith

theorem upper_of_lt (h : below units exponent < n) (reaches : Reaches units (steps ⟨n, exponent⟩)) :
    Reaches units (steps ⟨below units exponent + 1, exponent⟩) ∧
      steps ⟨below units exponent + 1, exponent⟩ - units ≤ |steps ⟨n, exponent⟩ - units| := by
  have last := steps_mono exponent (Nat.succ_le_of_lt h)
  have high := (lt_steps_below units exponent).le
  refine ⟨(Reaches.self units).between reaches high last, ?_⟩
  rw [abs_of_nonneg (sub_nonneg.2 (high.trans last))]
  linarith

theorem closest_below (reaches : Reaches units (steps ⟨below units exponent, exponent⟩))
    (nearer : Reaches units (steps ⟨below units exponent + 1, exponent⟩) →
      units - steps ⟨below units exponent, exponent⟩ ≤
        steps ⟨below units exponent + 1, exponent⟩ - units) :
    Closest units exponent ⟨below units exponent, exponent⟩ where
  onGrid := rfl
  reaches := reaches
  neighbour := .inl rfl
  closest n nonzero reaches' := by
    rw [abs_steps_below]
    obtain above | under := Nat.lt_or_ge (below units exponent) n
    · obtain ⟨upper, further⟩ := upper_of_lt above reaches'
      exact (nearer upper).trans further
    · exact (lower_of_le under reaches').2

theorem closest_above (reaches : Reaches units (steps ⟨below units exponent + 1, exponent⟩))
    (nearer : Reaches units (steps ⟨below units exponent, exponent⟩) ∧ below units exponent ≠ 0 →
      steps ⟨below units exponent + 1, exponent⟩ - units ≤
        units - steps ⟨below units exponent, exponent⟩) :
    Closest units exponent ⟨below units exponent + 1, exponent⟩ where
  onGrid := rfl
  reaches := reaches
  neighbour := .inr rfl
  closest n nonzero reaches' := by
    rw [abs_steps_above]
    obtain above | under := Nat.lt_or_ge (below units exponent) n
    · exact (upper_of_lt above reaches').2
    · obtain ⟨lower, further⟩ := lower_of_le under reaches'
      exact (nearer ⟨lower, by omega⟩).trans further

end Neighbours

open Classical in
/-- What the search on one grid finds: the neighbour that reads back, of two the nearer. -/
theorem nearestInReach?_eq (fits : Representable units) (positive : 0 < units) :
    nearestInReach? units exponent =
      if Reaches units (steps ⟨below units exponent, exponent⟩) ∧ below units exponent ≠ 0 then
        if Reaches units (steps ⟨below units exponent + 1, exponent⟩) then
          some ⟨if units - steps ⟨below units exponent, exponent⟩ <
              steps ⟨below units exponent + 1, exponent⟩ - units then below units exponent
            else below units exponent + 1, exponent⟩
        else some ⟨below units exponent, exponent⟩
      else if Reaches units (steps ⟨below units exponent + 1, exponent⟩) then
        some ⟨below units exponent + 1, exponent⟩
      else none := by
  have lower := contains_iff_reaches fits positive (below units exponent) exponent
  have upper := contains_iff_reaches fits positive (below units exponent + 1) exponent
  have fold : units * 10 ^ (-exponent).toNat / (one * 10 ^ exponent.toNat) =
      below units exponent := rfl
  unfold nearestInReach?
  simp only [fold, nearer_below, ← lower, ← upper]
  generalize (reach units).contains (4 * below units exponent * one * 10 ^ exponent.toNat)
    (10 ^ (-exponent).toNat) = l
  generalize (reach units).contains (4 * (below units exponent + 1) * one * 10 ^ exponent.toNat)
    (10 ^ (-exponent).toNat) = u
  by_cases zero : below units exponent = 0 <;> cases l <;> cases u <;> simp [zero]

/-- The search on one grid finds a closest decimal, if any of the grid reads back. -/
theorem nearestInReach?_closest (fits : Representable units) (positive : 0 < units)
    (h : nearestInReach? units exponent = some d) : Closest units exponent d := by
  rw [nearestInReach?_eq fits positive] at h
  split at h
  · rename_i lower
    split at h
    · rename_i upper
      split at h
      · rename_i nearer
        cases h
        exact closest_below lower.1 fun _ => nearer.le
      · rename_i nearer
        cases h
        exact closest_above upper fun _ => not_lt.1 nearer
    · rename_i upper
      cases h
      exact closest_below lower.1 fun inside => absurd inside upper
  · rename_i lower
    split at h
    · rename_i upper
      cases h
      exact closest_above upper fun inside => absurd inside lower
    · cases h

theorem nearestInReach?_isSome_of_reaches (fits : Representable units) (positive : 0 < units)
    {n : Nat} (nonzero : n ≠ 0) (reaches : Reaches units (steps ⟨n, exponent⟩)) :
    (nearestInReach? units exponent).isSome := by
  rw [nearestInReach?_eq fits positive]
  split
  · split <;> rfl
  · rename_i lower
    split
    · rfl
    · rename_i upper
      obtain above | under := Nat.lt_or_ge (below units exponent) n
      · exact absurd (upper_of_lt above reaches).1 upper
      · exact absurd ⟨(lower_of_le under reaches).1, by omega⟩ lower

/-! ### Fewest digits -/

theorem significand_ne_zero (fits : Representable units) (positive : 0 < units)
    (reaches : Reaches units d.steps) : d.significand ≠ 0 := by
  intro zero
  have some := reaches.pos fits positive
  rw [steps, zero, Nat.cast_zero, zero_mul] at some
  exact lt_irrefl 0 some

/-- In the stead of a decimal of a few digits there is one on the grid of as many places below the
first digit of the double: itself, or else the power of ten between it and the double. -/
theorem exists_on_grid (fits : Representable units) (positive : 0 < units)
    (reaches : Reaches units d.steps) {c : Nat} (some : 0 < c)
    (few : (decimalDigits d.significand).length ≤ c) :
    ∃ n ≠ 0, Reaches units (steps ⟨n, decimalPoint units - c⟩) ∧
      |steps ⟨n, decimalPoint units - c⟩ - units| ≤ |d.steps - units| := by
  have nonzero := significand_ne_zero fits positive reaches
  have first := place_decimalPoint_le positive
  obtain large | small := le_or_gt (place (decimalPoint units - 1)) d.steps
  · have top := place_lt_place.1 (large.trans_lt (steps_lt_place d))
    obtain ⟨k, shift⟩ : ∃ k : Nat, d.exponent = decimalPoint units - c + k :=
      ⟨(d.exponent - (decimalPoint units - c)).toNat, by omega⟩
    have same : steps ⟨d.significand * 10 ^ k, decimalPoint units - c⟩ = d.steps := by
      rw [steps_zeros, ← shift]
    refine ⟨d.significand * 10 ^ k, Nat.mul_ne_zero nonzero (Nat.pow_pos (by decide)).ne', ?_⟩
    rw [same]
    exact ⟨reaches, le_refl _⟩
  · have same : steps ⟨10 ^ (c - 1), decimalPoint units - c⟩ = place (decimalPoint units - 1) := by
      have point : decimalPoint units - c + (c - 1 : Nat) = decimalPoint units - 1 := by omega
      rw [← Nat.one_mul (10 ^ (c - 1)), steps_zeros, steps, point, Nat.cast_one, one_mul]
    refine ⟨10 ^ (c - 1), (Nat.pow_pos (by decide)).ne', ?_⟩
    rw [same]
    refine ⟨reaches.between (.self units) small.le first, ?_⟩
    rw [abs_of_nonpos (sub_nonpos.2 first), abs_of_nonpos (sub_nonpos.2 (small.le.trans first))]
    linarith

theorem Closest.length_le (fits : Representable units) (positive : 0 < units) {c : Nat}
    (some : 0 < c) (h : Closest units (decimalPoint units - c) d) :
    (decimalDigits d.normalize.significand).length ≤ c := by
  have nonzero := significand_ne_zero fits positive h.reaches
  refine length_normalize_le nonzero some ?_
  have room : below units (decimalPoint units - c) < 10 ^ c := by
    have less := (steps_below_le units (decimalPoint units - c)).trans_lt
      (lt_place_decimalPoint units)
    have point : decimalPoint units = decimalPoint units - c + c := by omega
    rw [point, place_add, ← point, steps, mul_lt_mul_iff_of_pos_right (place_pos _)] at less
    exact_mod_cast less
  rcases h.neighbour with lower | upper <;> omega

/-- The shortest digits were found on a grid no finer than any on which the search succeeds. -/
theorem shortest_eq (fits : Representable units) (positive : 0 < units) {c : Nat} (some : 0 < c)
    (few : c ≤ 18) (found : (nearestInReach? units (decimalPoint units - c)).isSome) :
    ∃ b, 0 < b ∧ b ≤ c ∧ ∃ d, Closest units (decimalPoint units - b) d ∧
      shortest units = d.normalize := by
  obtain ⟨k, rfl⟩ := Nat.exists_eq_add_of_lt some
  have place : (0 + k + 1 : Nat) = 1 + k := by omega
  rw [place] at found few
  obtain ⟨j, within, d, here, shown⟩ := shortestFrom_eq (show k < 18 by omega) found
  exact ⟨1 + j, by omega, by omega, d, nearestInReach?_closest fits positive here, shown⟩

/-- A decimal that reads back as a double with the fewest digits, and of as many digits none closer
to the double. -/
structure Shortest (units : Nat) (fits : Representable units) (d : Decimal) : Prop where
  reads : d.toDouble false = .finite false units fits
  fewest : ∀ d' : Decimal, d'.toDouble false = .finite false units fits →
    (decimalDigits d.significand).length ≤ (decimalDigits d'.significand).length
  closest : ∀ d' : Decimal, d'.toDouble false = .finite false units fits →
    (decimalDigits d'.significand).length = (decimalDigits d.significand).length →
    |d.steps - units| ≤ |d'.steps - units|

theorem shortest_shortest (fits : Representable units) (positive : 0 < units) :
    Shortest units fits (shortest units) := by
  have some (d : Decimal) : 0 < (decimalDigits d.significand).length := Nat.length_toDigits_pos
  have reads : Reaches units (shortest units).steps := by
    rw [← num_div_den, reaches_iff_near (den_pos _)]
    exact near_shortest positive
  have eighteen : (decimalDigits (shortest units).significand).length ≤ 18 := by
    have fine : (nearestInReach? units (decimalPoint units - (18 : Nat))).isSome :=
      nearestInReach?_of_fine (fine_of_eighteen positive)
    obtain ⟨b, more, within, d, found, shown⟩ :=
      shortest_eq fits positive (by decide) (Nat.le_refl 18) fine
    rw [shown]
    exact (found.length_le fits positive more).trans within
  constructor
  case reads => exact (toDouble_iff fits positive false).2 reads
  case fewest =>
    intro d' reads'
    obtain few | many := Nat.le_or_ge (decimalDigits d'.significand).length 18
    · have reaches := (toDouble_iff fits positive false).1 reads'
      obtain ⟨n, nonzero, onGrid, -⟩ :=
        exists_on_grid fits positive reaches (some d') (Nat.le_refl _)
      obtain ⟨b, more, within, d, found, shown⟩ := shortest_eq fits positive (some d') few
        (nearestInReach?_isSome_of_reaches fits positive nonzero onGrid)
      rw [shown]
      exact (found.length_le fits positive more).trans within
    · exact eighteen.trans many
  case closest =>
    intro d' reads' alike
    have reaches := (toDouble_iff fits positive false).1 reads'
    obtain ⟨n, nonzero, onGrid, closer⟩ :=
      exists_on_grid fits positive reaches (some (shortest units)) alike.le
    obtain ⟨b, more, within, d, found, shown⟩ := shortest_eq fits positive (some (shortest units))
      eighteen (nearestInReach?_isSome_of_reaches fits positive nonzero onGrid)
    have least := found.length_le fits positive more
    rw [← shown] at least
    obtain rfl : b = (decimalDigits (shortest units).significand).length :=
      Nat.le_antisymm within least
    rw [shown, steps_normalize]
    exact (found.closest n nonzero onGrid).trans closer

end Double

end ScriptBridge
