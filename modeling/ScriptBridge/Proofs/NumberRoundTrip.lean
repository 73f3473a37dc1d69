import ScriptBridge.Proofs.DocumentUniqueness
import ScriptBridge.Proofs.NumberTexts

/-!
The host reads back what it writes for a number. A literal has neither white space around it nor a
base prefix, so it is read as a decimal; the decimal that is written rounds to the number.
-/

namespace ScriptBridge

/-! ### Trimming -/

theorem trimBlank_eq_self {cs : List Char} (solid : ∀ c ∈ cs, isBlank c = false) :
    trimBlank cs = cs := by
  have keeps {ds : List Char} (solid : ∀ c ∈ ds, isBlank c = false) :
      ds.dropWhile isBlank = ds := by
    cases ds with
    | nil => rfl
    | cons c ds => rw [List.dropWhile_cons_of_neg (by simp [solid c List.mem_cons_self])]
  rw [trimBlank, keeps solid, dropTailWhile, keeps fun c mem => solid c (List.mem_reverse.1 mem),
    List.reverse_reverse]

theorem Double.near_self (units : Nat) : Near units units 1 := by
  have gap : 0 < spacing units := Nat.two_pow_pos _
  constructor
  case low => omega
  case high => omega
  case strict => omega

namespace Number

/-! ### Characters of literals -/

/-- A character of number literals is a digit, a point, an exponent mark or a sign. -/
theorem toNat_of_numeral {cs : List Char} (numerals : allNumeral cs) {c : Char} (mem : c ∈ cs) :
    0x30 ≤ c.toNat ∧ c.toNat ≤ 0x39 ∨ c.toNat ∈ [0x2e, 0x65, 0x45, 0x2b, 0x2d] := by
  have units : ∀ u ∈ Utf16.ofChar c, isNumeral u := fun u inside =>
    List.all_eq_true.1 numerals u (List.mem_flatMap.2 ⟨c, mem, inside⟩)
  have exact (u : UInt16) (numeral : isNumeral u) :
      0x30 ≤ u.toNat ∧ u.toNat ≤ 0x39 ∨ u.toNat ∈ [0x2e, 0x65, 0x45, 0x2b, 0x2d] := by
    simp only [isNumeral, Bool.or_eq_true, Bool.and_eq_true, decide_eq_true_eq, beq_iff_eq,
      UInt16.le_iff_toNat_le, ← UInt16.toNat_inj] at numeral
    simp only [List.mem_cons, List.not_mem_nil, or_false]
    simpa [or_assoc] using numeral
  unfold Utf16.ofChar at units
  simp only at units
  split at units
  · have unit := exact _ (units _ (List.mem_singleton_self _))
    rwa [UInt16.toNat_ofNat', Nat.mod_eq_of_lt ‹_›] at unit
  · -- a surrogate is no numeral
    have lead := exact _ (units _ List.mem_cons_self)
    have top : c.toNat < 0x110000 := by
      rcases c.valid with low | ⟨-, high⟩
      · exact Nat.lt_trans low (by decide)
      · exact high
    simp only [UInt16.toNat_ofNat', List.mem_cons, List.not_mem_nil, or_false] at lead
    omega

theorem isBlank_of_numeral {cs : List Char} (numerals : allNumeral cs) {c : Char} (mem : c ∈ cs) :
    isBlank c = false := by
  have unit := toNat_of_numeral numerals mem
  simp only [List.mem_cons, List.not_mem_nil, or_false] at unit
  simp [isBlank]
  omega

theorem radixPrefix?_of_numeral {cs : List Char} (numerals : allNumeral cs) :
    radixPrefix? cs = none := by
  unfold radixPrefix?
  split
  · rename_i x c rest
    have unit := toNat_of_numeral numerals (c := x) (by simp)
    have other (d : Char) (far : ¬(0x30 ≤ d.toNat ∧ d.toNat ≤ 0x39 ∨
        d.toNat ∈ [0x2e, 0x65, 0x45, 0x2b, 0x2d])) : x ≠ d := by
      rintro rfl
      exact far unit
    simp [other 'x' (by decide), other 'X' (by decide), other 'o' (by decide),
      other 'O' (by decide), other 'b' (by decide), other 'B' (by decide)]
  · rfl

/-- A literal is read as the decimal it is. -/
theorem ofText_literal {text : List Char} (literal : Literal text) :
    ofText text = (real? text).getD .nan := by
  have numerals := literal.numerals
  have solid := trimBlank_eq_self fun c mem => isBlank_of_numeral numerals mem
  have noName (name : List Char) (letter : ¬allNumeral name) : text ≠ name := by
    rintro rfl
    exact letter numerals
  rw [ofText]
  simp only [solid, List.isEmpty_iff, literal.ne_nil, radixPrefix?_of_numeral numerals,
    noName "Infinity".toList (by decide), noName "+Infinity".toList (by decide),
    noName "-Infinity".toList (by decide), or_self, if_false]

/-! ### Texts of numbers -/

theorem real?_decimalDigits {units : Nat} (fits : Representable units) (positive : 0 < units)
    (whole : units % Double.one = 0) (negative : Bool) :
    real? (signed negative (decimalDigits (units / Double.one))) =
      some (.finite negative units fits) := by
  have read := decimal?_whole (fun c => isDigit_decimalDigits (n := units / Double.one))
    (decimalDigits_ne_nil _) stops_nil (fun _ => nofun) (e := 0) rfl
  rw [List.append_nil, ofDigits_decimalDigits] at read
  rw [real?_signed read, Decimal.toDouble_of_near ?_ fits positive]
  have product : units / Double.one * 10 ^ (0 : Int).toNat * Double.one = units := by
    rw [Int.toNat_zero, Nat.pow_zero, Nat.mul_one]
    exact Nat.div_mul_cancel (Nat.dvd_of_mod_eq_zero whole)
  rw [Decimal.num, product]
  exact Double.near_self units

theorem hostText_reads {d : Double} (finite : d.isFinite) (sign : d.isNegativeZero = false) :
    Literal (hostText d) ∧ real? (hostText d) = some d := by
  have scriptReads := scriptText_reads finite sign
  cases d with
  | nan | infinity => cases finite
  | finite negative units fits =>
    unfold hostText
    unfold scriptText at scriptReads
    simp only at scriptReads ⊢
    by_cases zero : units = 0
    · rw [if_pos zero] at scriptReads ⊢
      exact scriptReads
    · rw [if_neg zero] at scriptReads ⊢
      split
      · rename_i whole
        refine ⟨?_, real?_decimalDigits fits (Nat.pos_of_ne_zero zero) whole.1 negative⟩
        have positive : 0 < units / Double.one :=
          Nat.div_pos (Nat.le_of_dvd (Nat.pos_of_ne_zero zero) (Nat.dvd_of_mod_eq_zero whole.1))
            Double.one_pos
        have literal := Literal.mk negative (decimalDigits_ne_nil _)
          (fun c => isDigit_decimalDigits)
          (fun front => absurd front (head?_decimalDigits positive)) .none .none
        rwa [List.append_nil, List.append_nil] at literal
      · exact scriptReads

/-- Reading the text of a number gives the number; the sign of a zero is not written. -/
theorem ofText_hostText (d : Double) :
    ofText (hostText d) = if d.isZero then .zero false else d := by
  cases d with
  | nan => decide +kernel
  | infinity negative => cases negative <;> decide +kernel
  | finite negative units fits =>
    by_cases zero : units = 0
    · subst zero
      rfl
    · obtain ⟨n, rfl⟩ := Nat.exists_eq_succ_of_ne_zero zero
      have sign : (Double.finite negative (n + 1) fits).isNegativeZero = false := by
        cases negative <;> rfl
      obtain ⟨literal, reads⟩ := hostText_reads rfl sign
      rw [ofText_literal literal, reads]
      rfl

end Number

end ScriptBridge
