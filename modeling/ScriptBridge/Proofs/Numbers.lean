import ScriptBridge.Number.Index

/-!
Whole numbers of up to 53 bits are doubles: they are neither rounded on the way in nor on the way
out. The whole part of any double is a double too.
-/

namespace ScriptBridge.Double

theorem nearest_of_representable (negative : Bool) {units : Nat} (fits : Representable units) :
    nearest negative units 1 = .finite negative units fits := by
  have divides := fits.2
  have whole : units / 2 ^ (units.log2 - 52) * 2 ^ (units.log2 - 52) = units :=
    Nat.div_mul_cancel (Nat.dvd_of_mod_eq_zero divides)
  have rounded : roundHalfEven units (2 ^ (units.log2 - 52)) = units / 2 ^ (units.log2 - 52) := by
    have positive : 0 < 2 ^ (units.log2 - 52) := Nat.two_pow_pos _
    simp only [roundHalfEven, divides, Nat.mul_zero, positive, if_true]
  simp only [nearest, Nat.div_one, Nat.one_mul, rounded, whole, ofUnits, fits, dite_true]

theorem log2_mul_two_pow {n : Nat} (h : n ≠ 0) (k : Nat) : (n * 2 ^ k).log2 = n.log2 + k := by
  have h' : n * 2 ^ k ≠ 0 := Nat.mul_ne_zero h (Nat.pos_iff_ne_zero.1 (Nat.two_pow_pos k))
  refine (Nat.log2_eq_iff h').2 ⟨?_, ?_⟩
  · rw [Nat.pow_add]
    exact Nat.mul_le_mul_right _ (Nat.log2_self_le h)
  · rw [Nat.add_right_comm, Nat.pow_add]
    exact (Nat.mul_lt_mul_right (Nat.two_pow_pos k)).2 Nat.lt_log2_self

theorem mul_two_pow_lt {n k b : Nat} (h : n ≤ 2 ^ 53) (hb : 53 + k < b) : n * 2 ^ k < 2 ^ b :=
  calc n * 2 ^ k ≤ 2 ^ 53 * 2 ^ k := Nat.mul_le_mul_right _ h
    _ = 2 ^ (53 + k) := (Nat.pow_add ..).symm
    _ < 2 ^ b := Nat.pow_lt_pow_right (by omega) hb

/-- The spacing of the doubles around a whole number of up to 53 bits divides it. -/
theorem mul_two_pow_mod {n k : Nat} (h : n ≤ 2 ^ 53) (hk : 52 ≤ k) :
    n * 2 ^ k % 2 ^ ((n * 2 ^ k).log2 - 52) = 0 := by
  by_cases zero : n = 0
  · rw [zero, Nat.zero_mul, Nat.zero_mod]
  rw [log2_mul_two_pow zero]
  apply Nat.mod_eq_zero_of_dvd
  by_cases small : n < 2 ^ 53
  · have bits : n.log2 < 53 := (Nat.log2_lt zero).2 small
    exact Nat.dvd_mul_left_of_dvd (Nat.pow_dvd_pow 2 (by omega)) n
  · obtain rfl : n = 2 ^ 53 := by omega
    rw [Nat.log2_two_pow, ← Nat.pow_add]
    exact Nat.pow_dvd_pow 2 (by omega)

theorem representable_whole {n : Nat} (h : n ≤ 2 ^ 53) : Representable (n * one) := by
  unfold Representable one
  exact ⟨mul_two_pow_lt h (by decide), mul_two_pow_mod h (by decide)⟩

theorem ofNat_eq {n : Nat} (h : n ≤ 2 ^ 53) :
    ofNat n = .finite false (n * one) (representable_whole h) :=
  nearest_of_representable false (representable_whole h)

theorem ofInt_eq {n : Int} (h : n.natAbs ≤ 2 ^ 53) :
    ofInt n = .finite (n < 0) (n.natAbs * one) (representable_whole h) :=
  nearest_of_representable _ (representable_whole h)

theorem one_pos : 0 < one := by
  apply Nat.two_pow_pos

theorem whole_div (n : Nat) : n * one / one = n := Nat.mul_div_cancel n one_pos

theorem toWord_ofNat {n bits : Nat} (h : n ≤ 2 ^ 53) (hb : n < 2 ^ bits) :
    (ofNat n).toWord bits = n := by
  rw [ofNat_eq h]
  simp only [toWord, whole_div, Bool.false_eq_true, if_false]
  exact Nat.min_eq_left (by omega)

theorem ofNat_inj {m n : Nat} (hm : m ≤ 2 ^ 53) (hn : n ≤ 2 ^ 53) (h : ofNat m = ofNat n) :
    m = n :=
  calc m = (ofNat m).toWord 64 := (toWord_ofNat hm (by omega)).symm
    _ = (ofNat n).toWord 64 := by rw [h]
    _ = n := toWord_ofNat hn (by omega)

theorem toInt_ofInt {n : Int} (h : n.natAbs ≤ 2 ^ 53) : (ofInt n).toInt = n := by
  rw [ofInt_eq h]
  simp only [toInt, whole_div, signed, decide_eq_true_eq]
  split <;> omega

theorem isFinite_ofInt {n : Int} (h : n.natAbs ≤ 2 ^ 53) : (ofInt n).isFinite = true := by
  rw [ofInt_eq h]
  rfl

/-! ### Comparison -/

theorem signed_zero (negative : Bool) : signed negative 0 = 0 := by
  cases negative <;> rfl

theorem le_finite {a b : Nat} {fits : Representable a} {fits' : Representable b} :
    (Double.finite false a fits).le (.finite false b fits') ↔ a ≤ b := by
  simp only [le, lt, eq, signed, Bool.false_eq_true, if_false, Bool.or_eq_true, decide_eq_true_eq,
    beq_iff_eq]
  omega

theorem lt_finite {a b : Nat} {fits : Representable a} {fits' : Representable b} :
    (Double.finite false a fits).lt (.finite false b fits') ↔ a < b := by
  simp only [lt, signed, Bool.false_eq_true, if_false, decide_eq_true_eq]
  omega

/-! ### Words -/

section Words

variable {n : Nat}

theorem toWord_zero (negative : Bool) (bits : Nat) : (zero negative).toWord bits = 0 := by
  rw [zero, toWord, Nat.zero_div, Nat.zero_min, ite_self]

theorem toWord_nearest_negative (num den bits : Nat) : (nearest true num den).toWord bits = 0 := by
  simp only [nearest, ofUnits]
  split <;> rfl

theorem toWord_le_of_lt {x y : Double} (h : x.lt y) (bits : Nat) :
    x.toWord bits ≤ y.toWord bits := by
  cases x with
  | nan => cases h
  | infinity negative =>
    cases negative with
    | true => exact Nat.zero_le _
    | false => cases y <;> cases h
  | finite a u =>
    cases a with
    | true => exact Nat.zero_le _
    | false =>
      cases y with
      | nan => cases h
      | infinity c =>
        cases c with
        | true => cases h
        | false => exact Nat.min_le_right _ _
      | finite c v =>
        have less : (u : Int) < signed c v := of_decide_eq_true h
        cases c with
        | true =>
          simp only [signed, if_true] at less
          omega
        | false =>
          have le : u ≤ v := by
            simp only [signed, Bool.false_eq_true, if_false] at less
            omega
          have whole : u / one ≤ v / one := Nat.div_le_div_right le
          simp only [toWord, Bool.false_eq_true, if_false]
          omega

/-- A whole number taken off a greater one of up to 53 bits. -/
theorem ofNat_add_negative {m k : Nat} (h : m + k ≤ 2 ^ 53) (fits : Representable (m * one)) :
    (ofNat (m + k)).add (.finite true (m * one) fits) = ofNat k := by
  have sum : ((m + k) * one : Nat) + -((m * one : Nat) : Int) = (k * one : Nat) := by
    rw [Nat.add_mul]
    omega
  rw [ofNat_eq h]
  simp only [add, signed, Bool.false_eq_true, if_false, if_true]
  rw [sum]
  split
  · rename_i none
    have nothing : k * one = 0 := Int.natCast_eq_zero.1 none
    rw [ofNat_eq (show k ≤ 2 ^ 53 by omega)]
    simp only [zero, Bool.false_and, nothing]
  · rw [decide_eq_false (Int.not_lt.2 (Int.natCast_nonneg _)), Int.natAbs_natCast, ofNat]

theorem ofNat_sub_one (h : n + 1 ≤ 2 ^ 53) : (ofNat (n + 1)).sub (ofNat 1) = ofNat n := by
  have fits := representable_whole (show 1 ≤ 2 ^ 53 by decide)
  have one : (ofNat 1).neg = .finite true (1 * one) fits := by
    rw [ofNat_eq (show 1 ≤ 2 ^ 53 by decide)]
    rfl
  rw [sub, one, Nat.add_comm n, ofNat_add_negative (by omega)]

/-- A whole number taken off one of up to 53 bits, nothing being left of a smaller one. -/
theorem toWord_ofNat_add_negative (h : n ≤ 2 ^ 53) {m : Nat} (fits : Representable (m * one)) :
    ((ofNat n).add (.finite true (m * one) fits)).toWord 64 = n - m := by
  by_cases le : m ≤ n
  · obtain ⟨k, rfl⟩ := Nat.exists_eq_add_of_le le
    rw [ofNat_add_negative h, Nat.add_sub_cancel_left]
    exact toWord_ofNat (by omega) (by omega)
  · have more : n * one < m * one := Nat.mul_lt_mul_of_pos_right (by omega) one_pos
    rw [ofNat_eq h]
    simp only [add, signed, Bool.false_eq_true, if_false, if_true]
    rw [if_neg (by omega), decide_eq_true (by omega), toWord_nearest_negative]
    omega

end Words

/-! ### Whole parts -/

section WholeParts

variable {negative : Bool} {units : Nat}

theorem log2_le_log2 {a b : Nat} (le : a ≤ b) : a.log2 ≤ b.log2 := by
  by_cases zero : a = 0
  · rw [zero, Nat.log2_zero]
    exact Nat.zero_le _
  · have nonzero : b ≠ 0 := by omega
    exact (Nat.le_log2 nonzero).2 (Nat.le_trans (Nat.log2_self_le zero) le)

/-- The whole part of a double is a double. -/
theorem representable_whole_part (fits : Representable units) :
    Representable (units / one * one) := by
  obtain ⟨less, bits⟩ := fits
  have le : units / one * one ≤ units := Nat.div_mul_le_self units one
  refine ⟨Nat.lt_of_le_of_lt le less, Nat.mod_eq_zero_of_dvd ?_⟩
  have finer : 2 ^ ((units / one * one).log2 - 52) ∣ 2 ^ (units.log2 - 52) :=
    Nat.pow_dvd_pow 2 (Nat.sub_le_sub_right (log2_le_log2 le) 52)
  refine Nat.dvd_trans finer ?_
  obtain ⟨point, power⟩ : ∃ point, one = 2 ^ point := ⟨1074, rfl⟩
  -- the last bit stands behind the point, or there is no fraction
  obtain fine | coarse := Nat.le_total (units.log2 - 52) point
  · have divides : 2 ^ (units.log2 - 52) ∣ one := by
      rw [power]
      exact Nat.pow_dvd_pow 2 fine
    exact Nat.dvd_trans divides (Nat.dvd_mul_left one _)
  · have whole : one ∣ units := by
      rw [power]
      exact Nat.dvd_trans (Nat.pow_dvd_pow 2 coarse) (Nat.dvd_of_mod_eq_zero bits)
    rw [Nat.div_mul_cancel whole]
    exact Nat.dvd_of_mod_eq_zero bits

end WholeParts

end ScriptBridge.Double

namespace ScriptBridge.Number

variable {negative : Bool} {n units : Nat}

theorem toIntegerOrInfinity_finite (fits : Representable units) :
    toIntegerOrInfinity (.finite negative units fits) =
      .finite negative (units / Double.one * Double.one)
        (Double.representable_whole_part fits) := by
  have finite : (Double.finite negative units fits).isNaN = false := rfl
  rw [toIntegerOrInfinity, finite, if_neg Bool.false_ne_true, Double.trunc, Double.ofUnits,
    dif_pos (Double.representable_whole_part fits)]

theorem toIntegerOrInfinity_ofNat (fits : Representable (n * Double.one)) :
    toIntegerOrInfinity (.ofNat n) = .ofNat n := by
  have exact : Double.ofNat n = .finite false (n * Double.one) fits :=
    Double.nearest_of_representable false fits
  rw [exact, toIntegerOrInfinity_finite]
  simp only [Double.whole_div]

/-- The sign is that of the whole part. -/
theorem toIntegerOrInfinity_lt_zero_iff (negative : Bool) (fits : Representable units) :
    (toIntegerOrInfinity (.finite negative units fits)).lt (.zero false) ↔
      (Double.finite negative units fits).toInt < 0 := by
  rw [toIntegerOrInfinity_finite, Double.toInt]
  generalize Double.representable_whole_part fits = whole
  generalize units / Double.one = k at whole ⊢
  have sign : (Double.finite negative (k * Double.one) whole).lt (.zero false) ↔
      Double.signed negative (k * Double.one) < Double.signed false 0 := decide_eq_true_iff
  rw [sign, Double.signed_zero]
  cases negative with
  | false =>
    simp only [Double.signed, Bool.false_eq_true, if_false]
    omega
  | true =>
    simp only [Double.signed, if_true]
    have positive : 0 < k ↔ 0 < k * Double.one :=
      ⟨fun some => Nat.mul_pos some Double.one_pos, Nat.pos_of_mul_pos_right⟩
    omega

end ScriptBridge.Number
