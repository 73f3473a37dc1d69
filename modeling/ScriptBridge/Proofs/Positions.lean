import ScriptBridge.Proofs.Rounding

/-!
Positions given by numbers. Whatever double is given, the position in a sequence of at most 2^53
elements is the one that exact arithmetic on its whole part gives: the doubles in between round
nothing that is kept.
-/

namespace ScriptBridge

namespace Double

variable {negative : Bool} {n units : Nat}

/-! ### Clamping -/

theorem toWord_max_zero (x : Double) (bits : Nat) :
    (x.max (zero false)).toWord bits = x.toWord bits := by
  unfold max
  split
  case isTrue less =>
    have le := toWord_le_of_lt less bits
    rw [toWord_zero] at le ⊢
    omega
  case isFalse => rfl

/-- What a number is rounded to lies above every count of 53 bits that the number lies above. -/
theorem RoundsTo.le {q : ℚ} {other : Nat} (h : RoundsTo q units) (bits : spacing other ∣ other)
    (le : (other : ℚ) ≤ q) : other ≤ units := by
  by_contra less
  have less' : (units : ℚ) < other := Nat.cast_lt.2 (Nat.lt_of_not_le less)
  have nearest := h.nearest other bits
  rw [abs_of_nonneg (by linarith), abs_of_nonneg (by linarith)] at nearest
  linarith

theorem toWord_of_short (fits : Representable units) (short : units / one < 2 ^ 64) :
    (finite false units fits).toWord 64 = units / one := by
  rw [toWord, if_neg Bool.false_ne_true]
  omega

/-- Bounding a number by a greater whole one changes nothing, also where the bound is rounded. -/
theorem toWord_min_of_le (fits : Representable units) (le : units ≤ n * one)
    (short : units / one < 2 ^ 64) :
    ((finite false units fits).min (ofNat n)).toWord 64 = units / one := by
  obtain ⟨bound, rounds, made⟩ := rounded_ofNat n
  have above : units ≤ bound := by
    refine rounds.le (Nat.dvd_of_mod_eq_zero fits.2) ?_
    exact_mod_cast le
  rw [made, ofUnits]
  split
  case isTrue fits' =>
    unfold min
    split
    case isTrue => exact toWord_of_short fits short
    case isFalse least =>
      obtain rfl : units = bound := Nat.le_antisymm above (Nat.le_of_not_lt (mt lt_finite.2 least))
      exact toWord_of_short fits' short
  case isFalse => exact toWord_of_short fits short

/-- Bounding a number that is not negative by a whole one. -/
theorem toWord_min_ofNat (fits : Representable units) (small : n ≤ 2 ^ 53) :
    ((finite false units fits).min (ofNat n)).toWord 64 = Nat.min (units / one) n := by
  obtain below | above := Nat.lt_or_ge units (n * one)
  · have less : units / one < n := Nat.div_lt_of_lt_mul (by rwa [Nat.mul_comm])
    rw [toWord_min_of_le fits below.le (by omega)]
    exact (Nat.min_eq_left less.le).symm
  · have least : n ≤ units / one := (Nat.le_div_iff_mul_le one_pos).2 above
    have bound := toWord_ofNat small (show n < 2 ^ 64 by omega)
    rw [ofNat_eq small] at bound ⊢
    rw [min, if_neg (mt lt_finite.1 (Nat.not_lt_of_le above)), bound]
    exact (Nat.min_eq_right least).symm

theorem toWord_min_zero (negative : Bool) (small : n ≤ 2 ^ 53) :
    ((zero negative).min (ofNat n)).toWord 64 = 0 := by
  unfold min
  split
  case isTrue => exact toWord_zero negative 64
  case isFalse least =>
    have bound := toWord_ofNat small (show n < 2 ^ 64 by omega)
    rw [ofNat_eq small] at bound least ⊢
    rw [bound]
    by_contra positive
    refine least (decide_eq_true ?_)
    rw [signed_zero]
    exact Int.ofNat_lt.2 (Nat.mul_pos (Nat.pos_of_ne_zero positive) one_pos)

/-- Of a number that is not positive only a zero is left. -/
theorem max_zero_of_negative (fits : Representable units) :
    ∃ negative, (finite true units fits).max (zero false) = zero negative := by
  unfold max
  split
  case isTrue => exact ⟨false, rfl⟩
  case isFalse least =>
    have none : units = 0 := by
      by_contra positive
      refine least (decide_eq_true ?_)
      rw [signed_zero, signed, if_pos rfl]
      omega
    subst none
    exact ⟨true, rfl⟩

end Double

namespace Number

/-- The whole part of a number, kept between zero and a bound. -/
def clamped (x : Double) (most : Nat) : Nat :=
  match x with
  | .infinity negative => if negative then 0 else most
  | x => min x.toInt.toNat most

/-- The position that a number stands for in a sequence: its whole part, counted from the end if it
is negative, and kept inside. -/
def position (x : Double) (length : Nat) : Nat :=
  if x.toInt < 0 then (length + x.toInt).toNat else clamped x length

theorem clamped_finite (negative : Bool) {units : Nat} (fits : Representable units) (most : Nat) :
    clamped (.finite negative units fits) most =
      min (Double.signed negative (units / Double.one)).toNat most := rfl

theorem clamped_le (x : Double) (most : Nat) : clamped x most ≤ most := by
  unfold clamped
  split
  · split
    · exact Nat.zero_le _
    · exact Nat.le_refl _
  · exact Nat.min_le_right _ _

theorem position_le (x : Double) (length : Nat) : position x length ≤ length := by
  unfold position
  split
  · omega
  · exact clamped_le x length

variable {n : Nat}

theorem toWord_clamped (x : Double) (small : n ≤ 2 ^ 53) :
    (((toIntegerOrInfinity x).max (.zero false)).min (.ofNat n)).toWord 64 = clamped x n := by
  cases x with
  | nan => exact (Double.toWord_min_zero false small).trans (Nat.zero_min n).symm
  | infinity negative =>
    cases negative with
    | true => exact Double.toWord_min_zero false small
    | false =>
      have bound := Double.toWord_ofNat small (show n < 2 ^ 64 by omega)
      rw [Double.ofNat_eq small] at bound ⊢
      exact bound
  | finite negative units fits =>
    rw [toIntegerOrInfinity_finite, clamped_finite]
    generalize Double.representable_whole_part fits = whole
    cases negative with
    | false =>
      have least :
          ¬(Double.finite false (units / Double.one * Double.one) whole).lt (.zero false) :=
        mt Double.lt_finite.1 (Nat.not_lt_zero _)
      rw [Double.max, if_neg least, Double.toWord_min_ofNat _ small, Double.whole_div]
      rfl
    | true =>
      obtain ⟨negative, zero⟩ := Double.max_zero_of_negative whole
      rw [zero, Double.toWord_min_zero negative small, Double.signed, if_pos rfl]
      generalize units / Double.one = k
      omega

theorem relativeIndex_of_lt {x : Double} (below : (toIntegerOrInfinity x).lt (.zero false))
    (default : Nat) :
    relativeIndex (some x) n default =
      ((Double.ofNat n).add (toIntegerOrInfinity x)).toWord 64 := by
  unfold relativeIndex
  dsimp only
  rw [if_pos below, Double.toWord_max_zero]

theorem toWord_min_of_not_lt {x : Double} (small : n ≤ 2 ^ 53)
    (above : ¬(toIntegerOrInfinity x).lt (.zero false)) :
    ((toIntegerOrInfinity x).min (.ofNat n)).toWord 64 = clamped x n := by
  have clamp := toWord_clamped x small
  rwa [Double.max, if_neg above] at clamp

theorem relativeIndex_of_not_lt {x : Double} (small : n ≤ 2 ^ 53)
    (above : ¬(toIntegerOrInfinity x).lt (.zero false)) (default : Nat) :
    relativeIndex (some x) n default = clamped x n := by
  unfold relativeIndex
  dsimp only
  rw [if_neg above, toWord_min_of_not_lt small above]

theorem relativeIndex_some (x : Double) (small : n ≤ 2 ^ 53) (default : Nat) :
    relativeIndex (some x) n default = position x n := by
  cases x with
  | nan =>
    have above : ¬(toIntegerOrInfinity .nan).lt (.zero false) := Bool.false_ne_true
    rw [relativeIndex_of_not_lt small above]
    rfl
  | infinity negative =>
    cases negative with
    | true =>
      rw [relativeIndex_of_lt rfl, Double.ofNat_eq small]
      rfl
    | false =>
      have above : ¬(toIntegerOrInfinity (.infinity false)).lt (.zero false) :=
        Bool.false_ne_true
      rw [relativeIndex_of_not_lt small above]
      rfl
  | finite negative units fits =>
    have sign := toIntegerOrInfinity_lt_zero_iff negative fits
    by_cases below : (Double.finite negative units fits).toInt < 0
    · rw [relativeIndex_of_lt (sign.2 below), toIntegerOrInfinity_finite, position,
        if_pos below]
      cases negative with
      | false => exact absurd below (Int.not_lt.2 (Int.natCast_nonneg _))
      | true =>
        rw [Double.toWord_ofNat_add_negative small, Double.toInt, Double.signed, if_pos rfl]
        generalize units / Double.one = k
        omega
    · rw [relativeIndex_of_not_lt small (mt sign.1 below), position, if_neg below]

/-- The position that an optional number stands for; a missing one is `default`. -/
def positionOr (x : Option Double) (length default : Nat) : Nat :=
  match x with
  | none => default
  | some x => position x length

theorem positionOr_le {default : Nat} (inside : default ≤ n) (x : Option Double) :
    positionOr x n default ≤ n := by
  cases x with
  | none => exact inside
  | some x => exact position_le x n

theorem relativeIndex_eq (x : Option Double) (small : n ≤ 2 ^ 53) (default : Nat) :
    relativeIndex x n default = positionOr x n default := by
  cases x with
  | none => rfl
  | some x => exact relativeIndex_some x small default

/-! ### Whole numbers -/

variable {k : Nat}

theorem not_ofNat_lt_zero (fits : Representable (k * Double.one)) :
    ¬(Double.ofNat k).lt (.zero false) := by
  have exact : Double.ofNat k = .finite false (k * Double.one) fits :=
    Double.nearest_of_representable false fits
  rw [exact]
  exact mt Double.lt_finite.1 (Nat.not_lt_zero _)

theorem toWord_min_whole (fits : Representable (k * Double.one)) (le : k ≤ n) (short : k < 2 ^ 64) :
    ((Double.ofNat k).min (.ofNat n)).toWord 64 = k := by
  have exact : Double.ofNat k = .finite false (k * Double.one) fits :=
    Double.nearest_of_representable false fits
  have least := Double.toWord_min_of_le fits (Nat.mul_le_mul_right Double.one le)
  rw [Double.whole_div] at least
  rw [exact, least short]

/-- A whole number is the position that it counts, also where the length is rounded. -/
theorem relativeIndex_ofNat (small : k ≤ 2 ^ 53) (le : k ≤ n) (default : Nat) :
    relativeIndex (some (.ofNat k)) n default = k := by
  have fits := Double.representable_whole small
  unfold relativeIndex
  dsimp only
  rw [toIntegerOrInfinity_ofNat fits, if_neg (not_ofNat_lt_zero fits),
    toWord_min_whole fits le (by omega)]

end Number
end ScriptBridge
