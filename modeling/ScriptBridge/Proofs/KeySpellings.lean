import ScriptBridge.Proofs.Crossings
import ScriptBridge.Proofs.IndexView
import ScriptBridge.Proofs.NumberTexts
import Mathlib.Data.List.Induction

/-!
Which slot of a sequence a key names. Scripts take the decimal forms of the numbers below the index
limit. Host code takes those too, and besides them the same numbers spelled with a plus sign or with
needless zeros, which for a script are names like any other.
-/

namespace ScriptBridge

/-! ### Digits -/

namespace Number

theorem isDigit_of_digitValue_lt {c : Char} (small : digitValue c < 10) : c.isDigit := by
  unfold digitValue at small
  split at small
  · assumption
  split at small
  · omega
  split at small
  · omega
  · exact absurd small (by decide)

theorem allDigits_iff {ds : List Char} :
    allDigits 10 ds ↔ ds ≠ [] ∧ ∀ c ∈ ds, c.isDigit := by
  simp only [allDigits, Bool.and_eq_true, Bool.not_eq_true', List.isEmpty_eq_false_iff,
    List.all_eq_true, decide_eq_true_eq]
  constructor
  · rintro ⟨nonempty, small⟩
    exact ⟨nonempty, fun c mem => isDigit_of_digitValue_lt (small c mem)⟩
  · rintro ⟨nonempty, digits⟩
    exact ⟨nonempty, fun c mem => digitValue_lt (digits c mem)⟩

theorem digitChar_digitValue {c : Char} (digit : c.isDigit) : (digitValue c).digitChar = c := by
  obtain ⟨low, high⟩ := Char.isDigit_iff_toNat.1 digit
  have value := digitValue_of_isDigit digit
  have small := digitValue_lt digit
  apply Char.toNat_inj.1
  rw [Nat.toNat_digitChar_of_lt_ten small, value]
  change 48 ≤ c.toNat at low
  change 48 + (c.toNat - 48) = c.toNat
  omega

theorem decimalDigits_digitValue {c : Char} (digit : c.isDigit) :
    decimalDigits (digitValue c) = [c] := by
  rw [decimalDigits, Nat.toDigits_of_lt_base (digitValue_lt digit), digitChar_digitValue digit]

/-- A digit after a number that is not zero continues its decimal form. -/
theorem decimalDigits_snoc {n : Nat} (positive : 0 < n) {c : Char} (digit : c.isDigit) :
    decimalDigits (n * 10 + digitValue c) = decimalDigits n ++ [c] := by
  have small := digitValue_lt digit
  unfold decimalDigits
  rw [Nat.toDigits_of_base_le (by decide) (by omega)]
  have front : (n * 10 + digitValue c) / 10 = n := by omega
  have last : (n * 10 + digitValue c) % 10 = digitValue c := by omega
  rw [front, last, digitChar_digitValue digit]

theorem ofDigits_singleton (c : Char) : ofDigits 10 [c] = digitValue c := by
  rw [ofDigits, List.foldl_cons, List.foldl_nil, Nat.zero_mul, Nat.zero_add]

/-- Digits are zeros followed by the decimal form of their number. -/
theorem zeros_append_decimalDigits {ds : List Char} (nonempty : ds ≠ [])
    (digits : ∀ c ∈ ds, c.isDigit) :
    ∃ zeros, ds = List.replicate zeros '0' ++ decimalDigits (ofDigits 10 ds) := by
  induction ds using List.reverseRecOn with
  | nil => exact absurd rfl nonempty
  | append_singleton front c ih =>
    have digit : c.isDigit := digits c (List.mem_append_right _ (List.mem_singleton_self c))
    have number : ofDigits 10 (front ++ [c]) = ofDigits 10 front * 10 + digitValue c := by
      rw [ofDigits_append, List.length_singleton, Nat.pow_one, ofDigits_singleton]
    by_cases alone : front = []
    · subst alone
      refine ⟨0, ?_⟩
      rw [number, ofDigits, List.foldl_nil, Nat.zero_mul, Nat.zero_add,
        decimalDigits_digitValue digit]
      rfl
    obtain ⟨zeros, split⟩ := ih alone fun c mem => digits c (List.mem_append_left _ mem)
    rw [number]
    generalize ofDigits 10 front = n at split
    by_cases zero : n = 0
    · -- what was the decimal form of zero is one more needless zero
      subst zero
      refine ⟨zeros + 1, ?_⟩
      have one : decimalDigits 0 = ['0'] := rfl
      rw [split, Nat.zero_mul, Nat.zero_add, decimalDigits_digitValue digit,
        List.replicate_succ', one]
    · refine ⟨zeros, ?_⟩
      rw [decimalDigits_snoc (Nat.pos_of_ne_zero zero) digit, ← List.append_assoc, ← split]

theorem word?_of_digits {ds : List Char} (digits : ∀ c ∈ ds, c.isDigit) :
    word? 10 ds = word? 10 ('+' :: ds) := by
  cases ds with
  | nil => rfl
  | cons c rest =>
    have noSign : c ≠ '+' := by
      rintro rfl
      exact absurd (digits '+' List.mem_cons_self) (by decide)
    unfold word?
    split
    · exact absurd (List.cons.inj ‹_›).1 noSign
    · rfl

theorem word?_plus {ds : List Char} {n : Nat} :
    word? 10 ('+' :: ds) = some n ↔
      (ds ≠ [] ∧ ∀ c ∈ ds, c.isDigit) ∧ ofDigits 10 ds = n ∧ n < 2 ^ 64 := by
  rw [← allDigits_iff]
  unfold word?
  by_cases all : allDigits 10 ds
  · simp only [all, if_true, true_and]
    split
    · rename_i fits
      constructor
      · intro same
        cases same
        exact ⟨rfl, fits⟩
      · rintro ⟨rfl, _⟩
        rfl
    · rename_i large
      constructor
      · nofun
      · rintro ⟨rfl, fits⟩
        exact absurd fits large
  · simp [all]

end Number

/-! ### Spellings -/

/-- A text that spells a number: a plus sign or none, zeros, and the decimal form. -/
def Spells (key : String) (n : Nat) : Prop :=
  ∃ (sign : List Char) (zeros : Nat), (sign = [] ∨ sign = ['+']) ∧
    key.toList = sign ++ (List.replicate zeros '0' ++ decimalDigits n)

/-- A plus sign, or a zero with something after it, at the start of a text. -/
def Respelled (key : String) : Prop :=
  ∃ c rest, key.toList = c :: rest ∧ (c = '+' ∨ c = '0' ∧ rest ≠ [])

theorem toList_natText (n : Nat) : (natText n).toList = decimalDigits n :=
  String.toList_ofList

theorem natText_injective {m n : Nat} (h : natText m = natText n) : m = n := by
  have digits := congrArg String.toList h
  rw [toList_natText, toList_natText] at digits
  rw [← Number.ofDigits_decimalDigits m, digits, Number.ofDigits_decimalDigits]

theorem spells_natText (n : Nat) : Spells (natText n) n :=
  ⟨[], 0, .inl rfl, toList_natText n⟩

theorem not_respelled_natText (n : Nat) : ¬Respelled (natText n) := by
  rintro ⟨c, rest, front, start⟩
  rw [toList_natText] at front
  cases start with
  | inl plus =>
    have digit : c.isDigit := isDigit_decimalDigits (front ▸ List.mem_cons_self)
    rw [plus] at digit
    exact absurd digit (by decide)
  | inr zero =>
    obtain ⟨rfl, more⟩ := zero
    have small : n = 0 := by
      by_contra nonzero
      apply head?_decimalDigits (Nat.pos_of_ne_zero nonzero)
      rw [front]
      rfl
    subst small
    exact more (List.cons.inj front).2.symm

/-- Only the decimal form spells a number without a sign and without needless zeros. -/
theorem Spells.eq_natText {key : String} {n : Nat} (h : Spells key n) (plain : ¬Respelled key) :
    key = natText n := by
  obtain ⟨sign, zeros, signs, text⟩ := h
  have unsigned : sign = [] := by
    cases signs with
    | inl none => exact none
    | inr plus =>
      subst plus
      exact absurd ⟨'+', _, text, .inl rfl⟩ plain
  subst unsigned
  cases zeros with
  | zero =>
    apply String.toList_inj.1
    rw [text, toList_natText]
    rfl
  | succ zeros =>
    have more : List.replicate zeros '0' ++ decimalDigits n ≠ [] :=
      List.append_ne_nil_of_right_ne_nil _ (decimalDigits_ne_nil n)
    exact absurd ⟨'0', _, text, .inr ⟨rfl, more⟩⟩ plain

theorem not_spells_length (n : Nat) : ¬Spells "length" n := by
  intro spells
  have plain : ¬Respelled "length" := by
    rintro ⟨c, rest, text, start⟩
    obtain ⟨rfl, rfl⟩ := List.cons.inj text
    obtain plus | ⟨zero, _⟩ := start
    · exact absurd plus (by decide)
    · exact absurd zero (by decide)
  have text := congrArg String.toList (spells.eq_natText plain)
  rw [toList_natText] at text
  have letter : 'l' ∈ decimalDigits n := text ▸ List.mem_cons_self
  exact absurd (isDigit_decimalDigits letter) (by decide)

namespace Sequence

/-- Host code takes every spelling of a number that fits a word. -/
theorem slotOfKey?_eq_some_iff {key : String} {n : Nat} :
    slotOfKey? key = some n ↔ n < 2 ^ 64 ∧ Spells key n := by
  have read {ds : List Char} (taken : Number.word? 10 ('+' :: ds) = some n) :
      n < 2 ^ 64 ∧ ∃ zeros, ds = List.replicate zeros '0' ++ decimalDigits n := by
    obtain ⟨⟨nonempty, digits⟩, rfl, fits⟩ := Number.word?_plus.1 taken
    exact ⟨fits, Number.zeros_append_decimalDigits nonempty digits⟩
  constructor
  · intro taken
    unfold slotOfKey? at taken
    by_cases signed : ∃ ds, key.toList = '+' :: ds
    · obtain ⟨ds, text⟩ := signed
      rw [text] at taken
      obtain ⟨fits, zeros, split⟩ := read taken
      exact ⟨fits, ['+'], zeros, .inr rfl, by rw [text, split, List.singleton_append]⟩
    · have same : Number.word? 10 key.toList = Number.word? 10 ('+' :: key.toList) := by
        conv_lhs => unfold Number.word?
        split
        · exact absurd ⟨_, ‹_›⟩ signed
        · rfl
      rw [same] at taken
      obtain ⟨fits, zeros, split⟩ := read taken
      exact ⟨fits, [], zeros, .inl rfl, split⟩
  · rintro ⟨fits, sign, zeros, signs, text⟩
    have digits : ∀ c ∈ List.replicate zeros '0' ++ decimalDigits n, c.isDigit :=
      List.forall_mem_append.2 ⟨fun _ => Number.isDigit_zeros, fun _ => isDigit_decimalDigits⟩
    have number : Number.ofDigits 10 (List.replicate zeros '0' ++ decimalDigits n) = n := by
      rw [Number.ofDigits_zeros_append, Number.ofDigits_decimalDigits]
    have nonempty : List.replicate zeros '0' ++ decimalDigits n ≠ [] :=
      List.append_ne_nil_of_right_ne_nil _ (decimalDigits_ne_nil n)
    have taken := Number.word?_plus.2 ⟨⟨nonempty, digits⟩, number, fits⟩
    rw [slotOfKey?, text]
    cases signs with
    | inl none =>
      subst none
      exact (Number.word?_of_digits digits).trans taken
    | inr plus =>
      subst plus
      exact taken

theorem slotOfKey?_natText {n : Nat} (fits : n < 2 ^ 64) : slotOfKey? (natText n) = some n :=
  slotOfKey?_eq_some_iff.2 ⟨fits, spells_natText n⟩

end Sequence

/-! ### The script's side -/

theorem PropertyKey.ofString_eq_index_iff {key : String} {n : Nat} :
    ofString key = .index n ↔ n < indexLimit ∧ key = natText n := by
  have decimal : PropertyKey.decimal n = .ofString (natText n) := by
    rw [PropertyKey.decimal, Utf16.ofString, toList_natText]
    rfl
  rw [ofString, ofText_eq_index_iff, decimal]
  exact and_congr_right fun _ => ⟨Utf16.ofString_injective, congrArg Utf16.ofString⟩

/-- All other texts but that of the length are left to the target of a stand-in. -/
theorem PropertyKey.foreign_ofString {key : String} (noIndex : ∀ i < indexLimit, key ≠ natText i)
    (notLength : key ≠ "length") : (ofString key).Foreign := by
  constructor
  · intro n index
    obtain ⟨small, same⟩ := ofString_eq_index_iff.1 index
    exact noIndex n small same
  · intro length
    have spelled : PropertyKey.length = ofString "length" := by decide
    exact notLength (ofString_injective (length.trans spelled))

end ScriptBridge
