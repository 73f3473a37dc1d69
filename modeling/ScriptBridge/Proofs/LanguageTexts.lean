import ScriptBridge.Proofs.FewestDigits
import ScriptBridge.Proofs.NumberTexts
import ScriptBridge.Script.Convert
import ScriptBridge.Value.Text

/-!
The text that the language gives a number: the fewest digits that read back, with a point from 1e-6
up to 1e21 and with an exponent outside. Scripts give every number this text. The host does so for
all numbers but large whole ones, where it gives the language's text only if the fewest digits and
zeros behind them are the number itself.
-/

namespace ScriptBridge

namespace Double

open Decimal

/-! ### Thresholds -/

/-- The double nearest to a power of ten. -/
def power (e : Int) : Double := Decimal.toDouble false ⟨1, e⟩

theorem exists_units {d : Double} (h : d.isFinite && !d.isZero && !d.isNegative) :
    ∃ bound fits, 0 < bound ∧ d = .finite false bound fits := by
  cases d with
  | nan | infinity => cases h
  | finite negative units fits =>
    cases negative with
    | true => simp [isNegative] at h
    | false =>
      refine ⟨units, fits, Nat.pos_of_ne_zero ?_, rfl⟩
      rintro rfl
      cases h

/-- Where the nearest double to a power of ten is that of no smaller number of one digit, the first
digit of a double stands at that power or before exactly if the double is no smaller. -/
theorem first_digit_iff {units bound : Nat} {fits : Representable units}
    {fits' : Representable bound} {d : Decimal} {e : Int} (positive : 0 < units)
    (positive' : 0 < bound) (here : power e = .finite false bound fits')
    (apart : Decimal.toDouble false ⟨9, e - 1⟩ ≠ power e) (shortest : Shortest units fits d) :
    e < d.exponent + (decimalDigits d.significand).length ↔ bound ≤ units := by
  have reaches := (toDouble_iff fits positive false).1 shortest.reads
  have reaches' : Reaches bound (place e) := by
    have reads := (toDouble_iff fits' positive' false).1 here
    rwa [steps, Nat.cast_one, one_mul] at reads
  have nonzero := significand_ne_zero fits positive reaches
  constructor
  · intro early
    by_contra less
    have before := reaches.lt fits fits' reaches' (place_pos e).le (Nat.lt_of_not_le less)
    have first := place_lt_place.1 ((place_le_steps nonzero).trans_lt before)
    omega
  · intro least
    by_contra late
    have short := steps_lt_place d
    have within := (place_le_place.2 (not_lt.1 late))
    obtain less | rfl := Nat.lt_or_eq_of_le least
    · exact (reaches'.lt fits' fits reaches (reaches.pos fits positive).le less).not_gt
        (short.trans_le within)
    · -- one digit is enough, so the decimal is at most nine of the next place
      have few : (decimalDigits d.significand).length ≤ 1 :=
        (shortest.fewest ⟨1, e⟩ here).trans (show (decimalDigits 1).length ≤ 1 by decide)
      have digit : d.significand ≤ 9 := by
        have small := lt_pow_length_decimalDigits d.significand
        have ten := Nat.pow_le_pow_right (show 0 < 10 by decide) few
        omega
      have last : d.exponent ≤ e - 1 := by
        have digits : 0 < (decimalDigits d.significand).length := Nat.length_toDigits_pos
        omega
      have nine : d.steps ≤ steps ⟨9, e - 1⟩ :=
        mul_le_mul (by exact_mod_cast digit) (place_le_place.2 last) (place_pos _).le (by norm_num)
      have ten : steps ⟨9, e - 1⟩ ≤ place e := by
        have next := place_add (e - 1) 1
        rw [Nat.cast_one, sub_add_cancel, pow_one] at next
        rw [next, steps]
        exact mul_le_mul_of_nonneg_right (by norm_num) (place_pos _).le
      refine apart (Eq.trans ?_ here.symm)
      exact (toDouble_iff fits positive false).2 (reaches.between reaches' nine ten)

/-- The numbers that the language writes without an exponent: from 1e-6 up to 1e21. -/
def Moderate (units : Nat) (fits : Representable units) : Prop :=
  (power (-6)).le (.finite false units fits) ∧ (Double.finite false units fits).lt (power 21)

theorem moderate_iff {units : Nat} {fits : Representable units} {d : Decimal}
    (positive : 0 < units) (shortest : Shortest units fits d) :
    Moderate units fits ↔ -6 < d.exponent + (decimalDigits d.significand).length ∧
      d.exponent + (decimalDigits d.significand).length ≤ 21 := by
  have finite : (power (-6)).isFinite && !(power (-6)).isZero && !(power (-6)).isNegative := by
    decide +kernel
  have finite' : (power 21).isFinite && !(power 21).isZero && !(power 21).isNegative := by
    decide +kernel
  have apart : Decimal.toDouble false ⟨9, -6 - 1⟩ ≠ power (-6) := by decide +kernel
  have apart' : Decimal.toDouble false ⟨9, 21 - 1⟩ ≠ power 21 := by decide +kernel
  obtain ⟨low, fitsLow, positiveLow, lowest⟩ := exists_units finite
  obtain ⟨high, fitsHigh, positiveHigh, highest⟩ := exists_units finite'
  rw [Moderate, lowest, highest, le_finite, lt_finite,
    first_digit_iff positive positiveLow lowest apart shortest, ← Int.not_lt,
    first_digit_iff positive positiveHigh highest apart' shortest, Nat.not_le]

end Double

namespace Number

open Double

/-! ### The text of the language -/

/-- The digits of a shortest decimal in the form for its size. -/
inductive MagnitudeText (units : Nat) (fits : Representable units) : List Char → Prop where
  | positional {d : Decimal} {text : List Char} (shortest : Shortest units fits d)
      (moderate : Moderate units fits)
      (placed : Positional (decimalDigits d.significand) d.exponent text) :
      MagnitudeText units fits text
  | exponential {d : Decimal} {text : List Char} (shortest : Shortest units fits d)
      (outside : ¬Moderate units fits)
      (placed : Exponential (decimalDigits d.significand) d.exponent text) :
      MagnitudeText units fits text

/-- The text that the language gives a number. -/
inductive LanguageText : Double → List Char → Prop where
  | nan : LanguageText .nan "NaN".toList
  | infinity (negative : Bool) :
    LanguageText (.infinity negative) (signed negative "Infinity".toList)
  | zero (negative : Bool) : LanguageText (.zero negative) ['0']
  | nonzero (negative : Bool) {units : Nat} {fits : Representable units} {text : List Char}
      (positive : 0 < units) (magnitude : MagnitudeText units fits text) :
      LanguageText (.finite negative units fits) (signed negative text)

/-- Scripts give every number the text of the language. -/
theorem languageText_scriptText (d : Double) : LanguageText d (scriptText d) := by
  cases d with
  | nan => exact .nan
  | infinity negative => exact .infinity negative
  | finite negative units fits =>
    by_cases zero : units = 0
    · subst zero
      exact .zero negative
    · have positive := Nat.pos_of_ne_zero zero
      have least := shortest_shortest fits positive
      have digits := decimalDigits_ne_nil (shortest units).significand
      rw [scriptText, if_neg zero]
      refine .nonzero negative positive ?_
      by_cases moderate : Moderate units fits
      · obtain ⟨low, high⟩ := (moderate_iff positive least).1 moderate
        exact .positional least moderate (layout_positional low high digits)
      · refine .exponential least moderate (layout_exponential ?_ digits)
        rw [moderate_iff positive least] at moderate
        omega

/-! ### Large whole numbers -/

/-- The whole numbers that the host writes with all their digits, though fewer may read back. -/
def Large (d : Double) : Prop := d.isIntegral ∧ 2 ^ 53 ≤ d.magnitude ∧ d.magnitude < wholeLimit

instance (d : Double) : Decidable (Large d) := inferInstanceAs (Decidable (_ ∧ _ ∧ _))

theorem hostText_of_not_large {d : Double} (h : ¬Large d) : hostText d = scriptText d := by
  refine hostText_eq_scriptText fun integral => ?_
  by_contra between
  exact h ⟨integral, by omega, by omega⟩

theorem hostText_of_large {d : Double} (h : Large d) : hostText d = wholeText d := by
  obtain ⟨integral, low, high⟩ := h
  cases d with
  | nan | infinity => cases integral
  | finite negative units fits =>
    have whole : units % one = 0 ∧ units / one < wholeLimit := ⟨of_decide_eq_true integral, high⟩
    have nonzero : units ≠ 0 := by
      rintro rfl
      simp [magnitude] at low
    rw [hostText, if_neg nonzero, if_pos whole]
    rfl

theorem signed_injective {negative : Bool} {a b : List Char}
    (h : signed negative a = signed negative b) : a = b := by
  cases negative with
  | false => exact h
  | true => exact (List.cons.inj h).2

theorem LanguageText.of_positive {negative : Bool} {units : Nat} {fits : Representable units}
    {text : List Char} (h : LanguageText (.finite negative units fits) text)
    (positive : 0 < units) :
    ∃ text', text = signed negative text' ∧ MagnitudeText units fits text' := by
  cases h with
  | zero => exact absurd positive (Nat.lt_irrefl 0)
  | nonzero _ _ magnitude => exact ⟨_, rfl, magnitude⟩

/-- A text of nothing but digits has zeros behind the significant ones. -/
theorem Positional.zeros {ds text : List Char} {e : Int} (h : Positional ds e text)
    (digits : ∀ c ∈ text, c.isDigit) : ∃ k : Nat, e = k ∧ text = ds ++ List.replicate k '0' := by
  cases h with
  | whole k => exact ⟨k, rfl, rfl⟩
  | inside => exact absurd (digits '.' (by simp)) (by decide)
  | behind => exact absurd (digits '.' (by simp)) (by decide)

theorem Exponential.mark {ds text : List Char} {e : Int} (h : Exponential ds e text) :
    'e' ∈ text := by
  cases h <;> simp [exponentText]

section Large

variable {negative : Bool} {units : Nat} {fits : Representable units}

/-- The digits of a whole number are the text of the language only if they are a shortest decimal
and zeros, which then is the number itself. -/
theorem exact_of_languageText {n : Nat} (positive : 0 < units) (product : n * one = units)
    (h : LanguageText (.finite negative units fits) (signed negative (decimalDigits n))) :
    (shortest units).steps = units := by
  have digits : ∀ c ∈ decimalDigits n, c.isDigit := fun c => isDigit_decimalDigits
  obtain ⟨text, same, magnitude⟩ := h.of_positive positive
  rw [← signed_injective same] at magnitude
  cases magnitude with
  | exponential _ _ placed => exact absurd (digits 'e' placed.mark) (by decide)
  | @positional d _ least _ placed =>
    obtain ⟨k, place, zeros⟩ := placed.zeros digits
    have parts : n = d.significand * 10 ^ k := by
      have read := congrArg (ofDigits 10) zeros
      rwa [ofDigits_append, ofDigits_replicate, ofDigits_decimalDigits, ofDigits_decimalDigits,
        List.length_replicate] at read
    have exact : d.steps = units := by
      rw [← product, parts, Decimal.steps, Decimal.place, place, zpow_natCast]
      push_cast
      ring
    have shown := shortest_shortest fits positive
    have close := shown.closest d least.reads
      (Nat.le_antisymm (least.fewest _ shown.reads) (shown.fewest _ least.reads))
    rw [exact, sub_self, abs_zero] at close
    exact sub_eq_zero.1 (abs_nonpos_iff.1 close)

/-- A whole number that is its shortest decimal has the digits of that decimal and zeros. -/
theorem zeros_of_exact {n : Nat} (positive : 0 < n) (fits : Representable (n * one))
    (exact : (shortest (n * one)).steps = (n * one : Nat)) :
    ∃ k : Nat, n = (shortest (n * one)).significand * 10 ^ k ∧
      (shortest (n * one)).exponent = k := by
  have positive' : 0 < n * one := Nat.mul_pos positive Double.one_pos
  have least := shortest_shortest fits positive'
  generalize shortest (n * one) = d at *
  have whole : Decimal.steps ⟨n, 0⟩ = (n * one : Nat) := by
    rw [Decimal.steps, Decimal.place, zpow_zero, one_mul, Nat.cast_mul]
  have same := exact.trans whole.symm
  obtain ⟨k, place | place⟩ := Int.eq_nat_or_neg d.exponent
  · refine ⟨k, ?_, place⟩
    rw [Decimal.steps, place, ← zero_add (k : Int), Decimal.place_add, ← mul_assoc,
      Decimal.steps, mul_left_inj' (Decimal.place_pos 0).ne'] at same
    exact_mod_cast same.symm
  · -- digits behind the point would be zeros, and fewer digits do
    have shift : d.significand = n * 10 ^ k := by
      have zeros : Decimal.place 0 = 10 ^ k * Decimal.place (-k) := by
        rw [← Decimal.place_add, neg_add_cancel]
      rw [Decimal.steps, Decimal.steps, place, zeros, ← mul_assoc,
        mul_left_inj' (Decimal.place_pos _).ne'] at same
      exact_mod_cast same
    have reads : Decimal.toDouble false ⟨n, 0⟩ = .finite false (n * one) fits := by
      rw [Decimal.toDouble_iff fits positive', whole]
      exact .self _
    have few : (decimalDigits d.significand).length ≤ (decimalDigits n).length :=
      least.fewest ⟨n, 0⟩ reads
    rw [shift, decimalDigits_mul_pow positive, List.length_append, List.length_replicate] at few
    obtain rfl : k = 0 := by omega
    exact ⟨0, by rw [shift, Nat.pow_zero, Nat.mul_one, Nat.mul_one], place⟩

theorem scriptText_of_exact {n : Nat} (positive : 0 < n) (small : n < wholeLimit)
    (fits : Representable (n * one)) (exact : (shortest (n * one)).steps = (n * one : Nat)) :
    scriptText (.finite negative (n * one) fits) = signed negative (decimalDigits n) := by
  obtain ⟨k, parts, place⟩ := zeros_of_exact positive fits exact
  rw [scriptText, if_neg (Nat.mul_pos positive Double.one_pos).ne',
    shortestText_of_zeros positive small parts place]

/-- For large whole numbers the host's text is that of the language, or of a script, exactly if the
number is its own shortest decimal. -/
theorem hostText_exact (large : Large (.finite negative units fits)) :
    (LanguageText (.finite negative units fits) (hostText (.finite negative units fits)) ↔
      (shortest units).steps = units) ∧
    (hostText (.finite negative units fits) = scriptText (.finite negative units fits) ↔
      (shortest units).steps = units) := by
  have host := hostText_of_large large
  obtain ⟨integral, low, high⟩ := large
  obtain ⟨n, product⟩ : ∃ n, n * one = units :=
    ⟨units / one, Nat.div_mul_cancel (Nat.dvd_of_mod_eq_zero (of_decide_eq_true integral))⟩
  subst product
  have whole : (Double.finite negative (n * one) fits).magnitude = n := whole_div n
  rw [whole] at low high
  have positive : 0 < n := by omega
  have positive' : 0 < n * one := Nat.mul_pos positive Double.one_pos
  rw [wholeText, whole] at host
  rw [host]
  have agree : (shortest (n * one)).steps = (n * one : Nat) →
      signed negative (decimalDigits n) = scriptText (.finite negative (n * one) fits) :=
    fun exact => (scriptText_of_exact positive high fits exact).symm
  have language := languageText_scriptText (.finite negative (n * one) fits)
  constructor
  · refine ⟨exact_of_languageText positive' rfl, fun exact => ?_⟩
    exact agree exact ▸ language
  · refine ⟨fun same => exact_of_languageText positive' rfl (same ▸ language), agree⟩

end Large

/-! ### Sequences -/

/-- A joined sequence of numbers has the numbers' texts. -/
theorem join_numbers (h : Heap) (separator : List Char) {id : SequenceId} {ds : List Double}
    (items : h.sequence id = ds.map .number) :
    h.join separator id = separator.intercalate (ds.map hostText) := by
  rw [Heap.join, Heap.joinAvailable]
  split
  · rw [items, List.map_map]
    rfl
  · rename_i unknown
    have missing : h.sequences.get? id.index = none := by
      by_contra found
      obtain ⟨held, here⟩ := Option.ne_none_iff_exists'.1 found
      exact unknown (List.mem_map.2 ⟨id.index, List.mem_range.2 (Arena.lt_size_of_get? here), rfl⟩)
    rw [Heap.sequence, missing, Option.getD_none, eq_comm, List.map_eq_nil_iff] at items
    rw [items]
    rfl

/-! ### Both sides -/

/-- The shortest decimal that reads back as the number is the number itself. -/
def OwnDecimal (d : Double) : Prop :=
  ∀ negative units fits, d = .finite negative units fits → (shortest units).steps = units

theorem hostText_language_iff (d : Double) :
    (LanguageText d (hostText d) ↔ (Large d → OwnDecimal d)) ∧
      (hostText d = scriptText d ↔ (Large d → OwnDecimal d)) := by
  by_cases large : Large d
  · cases d with
    | nan | infinity => cases large.1
    | finite negative units fits =>
      have own : (Large (.finite negative units fits) → OwnDecimal (.finite negative units fits)) ↔
          (shortest units).steps = units := by
        refine ⟨fun own => own large negative units fits rfl, fun exact _ _ _ _ same => ?_⟩
        cases same
        exact exact
      rw [own]
      exact hostText_exact large
  · have same := hostText_of_not_large large
    have language : LanguageText d (hostText d) := same ▸ languageText_scriptText d
    exact ⟨iff_of_true language fun here => absurd here large,
      iff_of_true same fun here => absurd here large⟩

/-- Scripts give every number the text of the language. The host gives large whole numbers all their
digits; its text is that of the language, and that of a script, exactly for the numbers that are not
large or are their own shortest decimal. Strings and joins on the host are made of its texts. -/
theorem number_texts (r : Reentry) (h : Heap) (d : Double) :
    LanguageText d (scriptText d) ∧
    (Large d → hostText d = wholeText d) ∧
    (LanguageText d (hostText d) ↔ (Large d → OwnDecimal d)) ∧
    (hostText d = scriptText d ↔ (Large d → OwnDecimal d)) ∧
    Script.toText r (.number d) = pure (Utf16.ofChars (scriptText d)) ∧
    h.text (.number d) = hostText d ∧
    ∀ (separator : List Char) (id : SequenceId) (ds : List Double),
      h.sequence id = ds.map .number →
        h.join separator id = separator.intercalate (ds.map hostText) := by
  obtain ⟨language, script⟩ := hostText_language_iff d
  exact ⟨languageText_scriptText d, hostText_of_large, language, script, rfl, rfl,
    fun separator _ _ => join_numbers h separator⟩

/-- The whole number 2^60. -/
def sixtyBits : Double := .finite false (2 ^ 60 * one) (by decide +kernel)

theorem number_texts_small_large :
    let h : Heap := { sequences := ⟨#[[.number (.ofNat 7), .number sixtyBits]]⟩ }
    (¬Large (.ofNat 7) ∧ hostText (.ofNat 7) = scriptText (.ofNat 7)) ∧
      (Large sixtyBits ∧ hostText sixtyBits = "1152921504606846976".toList) ∧
      h.join [','] ⟨0⟩ = "7,1152921504606846976".toList := by
  intro h
  have small : ¬Large (.ofNat 7) := by decide +kernel
  have large : Large sixtyBits := by decide +kernel
  have whole : wholeText sixtyBits = "1152921504606846976".toList := by decide +kernel
  obtain ⟨_, _, _, same, _⟩ := number_texts Session.top h (.ofNat 7)
  obtain ⟨_, host, _, _, _, _, joined⟩ := number_texts Session.top h sixtyBits
  refine ⟨⟨small, same.2 fun here => absurd here small⟩, ⟨large, (host large).trans whole⟩, ?_⟩
  rw [joined [','] ⟨0⟩ [.ofNat 7, sixtyBits] rfl]
  decide +kernel

/-- Sixteen digits read back as 2^60, and the host writes nineteen. -/
theorem host_text_not_shortest :
    hostText sixtyBits = "1152921504606846976".toList ∧
      scriptText sixtyBits = "1152921504606847000".toList ∧
      ¬LanguageText sixtyBits (hostText sixtyBits) := by
  have apart : hostText sixtyBits ≠ scriptText sixtyBits := by decide +kernel
  refine ⟨by decide +kernel, by decide +kernel, fun language => ?_⟩
  obtain ⟨exact, agree⟩ := hostText_language_iff sixtyBits
  exact apart (agree.2 (exact.1 language))

end Number

end ScriptBridge
