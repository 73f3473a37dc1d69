import ScriptBridge.Proofs.KeySpellings

/-!
Host and script write numbers alike, except for large whole ones. A whole number below 2^53 has no
other whole number near enough to be taken for it, so the fewest digits that read back are its own,
and the zeros that a script fills up with are those that the host writes.
-/

namespace ScriptBridge

/-! ### Digits of whole numbers -/

theorem Number.decimalDigits_mul_pow {n : Nat} (positive : 0 < n) (k : Nat) :
    decimalDigits (n * 10 ^ k) = decimalDigits n ++ List.replicate k '0' := by
  induction k with
  | zero => simp
  | succ k ih =>
    have front : 0 < n * 10 ^ k := Nat.mul_pos positive (Nat.pow_pos (by decide))
    have last := decimalDigits_snoc front (c := '0') (by decide)
    have shifted : n * 10 ^ (k + 1) = n * 10 ^ k * 10 + digitValue '0' := by
      rw [Nat.pow_succ, ← Nat.mul_assoc]
      rfl
    rw [shifted, last, ih, List.append_assoc, List.replicate_succ']

namespace Double

variable {n : Nat}

theorem spacing_mul_two_pow (small : n < 2 ^ 53) (p : Nat) : spacing (n * 2 ^ p) ≤ 2 ^ p := by
  unfold spacing
  refine Nat.pow_le_pow_right (by decide) ?_
  by_cases zero : n * 2 ^ p = 0
  · rw [zero, Nat.log2_zero]
    omega
  · have bits : (n * 2 ^ p).log2 < 53 + p := by
      rw [Nat.log2_lt zero, Nat.pow_add]
      exact Nat.mul_lt_mul_of_pos_right small (Nat.two_pow_pos _)
    omega

/-- Doubles below 2^53 are no further apart than whole numbers. -/
theorem spacing_le_one (small : n < 2 ^ 53) : spacing (n * one) ≤ one := spacing_mul_two_pow small _

/-- The only whole number near to a whole number below 2^53 is that number. -/
theorem eq_of_near {m : Nat} (small : n < 2 ^ 53) (near : Near (n * one) (m * one) 1) : m = n := by
  obtain ⟨low, high, _⟩ := near
  have close := slack_le (n * one)
  have fine := spacing_le_one small
  have step := one_pos
  generalize spacing (n * one) = gap at *
  generalize slack (n * one) = down at *
  generalize one = unit at *
  have least : 2 * (n * unit) < 2 * ((m + 1) * unit) := by
    rw [Nat.add_mul]
    omega
  have most : 2 * (m * unit) < 2 * ((n + 1) * unit) := by
    rw [Nat.add_mul]
    omega
  have := Nat.lt_of_mul_lt_mul_right (Nat.lt_of_mul_lt_mul_left least)
  have := Nat.lt_of_mul_lt_mul_right (Nat.lt_of_mul_lt_mul_left most)
  omega

/-- Digits up to the units reach a whole number. -/
theorem nearestInReach?_whole (positive : 0 < n) {units : Nat} (whole : units = n * one)
    {exponent : Int} (last : exponent = 0) : (nearestInReach? units exponent).isSome := by
  have unit := one_pos
  have inside : (reach (n * one)).contains (4 * (n * one)) 1 := by
    refine contains_of_near (Nat.mul_pos positive unit) (near_of_between Nat.one_pos ?_ ?_)
    · rw [Nat.mul_one]
    · rw [Nat.mul_one, Nat.mul_one]
      exact Nat.lt_add_of_pos_right (Nat.two_pow_pos _)
  rw [← Nat.mul_assoc, ← whole] at inside
  have up : exponent.toNat = 0 := by omega
  have down : (-exponent).toNat = 0 := by omega
  have quotient : units / one = n := by rw [whole, Nat.mul_div_cancel _ unit]
  rw [isSome_nearestInReach?]
  simp only [up, down, Nat.pow_zero, Nat.mul_one, quotient, inside, Bool.true_and,
    decide_eq_true (Nat.ne_of_gt positive), Bool.true_or]

/-- The shortest digits of a whole number below 2^53 are its own, without the zeros at their end. -/
theorem shortest_whole (positive : 0 < n) (small : n < 2 ^ 53) : ∃ k : Nat,
    n = (shortest (n * one)).significand * 10 ^ k ∧ (shortest (n * one)).exponent = k := by
  have quotient : n * one / one = n := Nat.mul_div_cancel _ one_pos
  have point : decimalPoint (n * one) = (decimalDigits n).length := by
    rw [decimalPoint]
    simp only [quotient, if_pos (Nat.ne_of_gt positive)]
  obtain ⟨l, digits⟩ : ∃ l, (decimalDigits n).length = 1 + l :=
    Nat.exists_eq_add_of_le Nat.length_toDigits_pos
  have few : l < 18 := by
    have low := pow_length_decimalDigits_le positive
    rw [digits, Nat.add_sub_cancel_left] at low
    by_contra many
    have power : 10 ^ 18 ≤ 10 ^ l := Nat.pow_le_pow_right (by decide) (Nat.le_of_not_lt many)
    omega
  have found : (nearestInReach? (n * one) (decimalPoint (n * one) - (1 + l : Nat))).isSome := by
    exact nearestInReach?_whole positive rfl (by rw [point, digits, Int.sub_self])
  obtain ⟨j, within, d, here, shown⟩ := shortestFrom_eq few found
  obtain ⟨e, place⟩ : ∃ e : Nat, d.exponent = e := by
    refine Int.eq_ofNat_of_zero_le ?_
    rw [(of_nearestInReach? here).1, point, digits]
    omega
  have same : d.significand * 10 ^ e = n := by
    refine eq_of_near small ?_
    have near := near_of_nearestInReach? here
    rw [Decimal.num, Decimal.den, place] at near
    simpa using near
  obtain ⟨k, zeros, moved⟩ := d.normalize_zeros
  refine ⟨k + e, ?_, ?_⟩
  · rw [shortest, shown, Nat.pow_add, ← Nat.mul_assoc, ← zeros, same]
  · rw [shortest, shown, moved, place, Int.add_comm]
    rfl

end Double

namespace Number

/-- Where the shortest digits and zeros are a whole number below 1e21, they are all its digits. -/
theorem shortestText_of_zeros {units n k : Nat} (positive : 0 < n) (short : n < wholeLimit)
    (parts : n = (Double.shortest units).significand * 10 ^ k)
    (exponent : (Double.shortest units).exponent = k) : shortestText units = decimalDigits n := by
  unfold shortestText
  simp only
  generalize Double.shortest units = d at parts exponent
  have leading : 0 < d.significand := by
    refine Nat.pos_of_ne_zero fun zero => ?_
    rw [zero, Nat.zero_mul] at parts
    omega
  have digits := decimalDigits_mul_pow leading k
  rw [← parts] at digits
  have few : (decimalDigits n).length ≤ 21 := by
    rwa [decimalDigits, Nat.length_toDigits_le_iff (by decide) (by decide)]
  rw [digits, List.length_append, List.length_replicate] at few
  unfold layout
  rw [exponent, if_pos (by omega), digits]
  congr 2
  omega

theorem shortestText_whole {n : Nat} (positive : 0 < n) (small : n < 2 ^ 53) :
    shortestText (n * Double.one) = decimalDigits n := by
  obtain ⟨k, parts, exponent⟩ := Double.shortest_whole positive small
  exact shortestText_of_zeros positive (small.trans (by decide)) parts exponent

/-- Outside the whole numbers from 2^53 up to 1e21 host and script write a number alike. -/
theorem hostText_eq_scriptText {d : Double}
    (h : d.isIntegral → d.magnitude < 2 ^ 53 ∨ wholeLimit ≤ d.magnitude) :
    hostText d = scriptText d := by
  cases d with
  | nan | infinity => rfl
  | finite negative units fits =>
    unfold hostText scriptText
    simp only
    by_cases zero : units = 0
    · rw [if_pos zero, if_pos zero]
    rw [if_neg zero, if_neg zero]
    split
    · rename_i whole
      obtain ⟨parts, below⟩ := whole
      have product : units / Double.one * Double.one = units :=
        Nat.div_mul_cancel (Nat.dvd_of_mod_eq_zero parts)
      have small : units / Double.one < 2 ^ 53 := by
        cases h (decide_eq_true parts) with
        | inl small => exact small
        | inr large => exact absurd below (Nat.not_lt_of_le large)
      have positive : 0 < units / Double.one := by
        refine Nat.pos_of_ne_zero fun none => zero ?_
        rw [← product, none, Nat.zero_mul]
      have same := shortestText_whole positive small
      rw [product] at same
      rw [same]
    · rfl

end Number

end ScriptBridge
