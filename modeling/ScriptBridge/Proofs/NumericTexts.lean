import ScriptBridge.Proofs.KeySpellings
import ScriptBridge.Proofs.Rounding

/-!
Which texts the host reads as numbers. The language's numeric texts are given as a grammar: each
denotes a double, the one its number is rounded to. White space at both ends aside, the host reads
every text of the grammar as that double and every other one as not-a-number, except after the mark
of a base: there it takes no number of 2^64 or more, and it takes a plus sign.
-/

namespace ScriptBridge

/-! ### White space -/

theorem not_of_mem_head?_dropWhile {α : Type} {p : α → Bool} {x : α} {xs : List α}
    (front : x ∈ (xs.dropWhile p).head?) : p x = false := by
  have first := List.head?_dropWhile_not p xs
  rw [Option.mem_def.1 front] at first
  exact first

theorem dropTailWhile_append {α : Type} (p : α → Bool) (xs : List α) :
    dropTailWhile p xs ++ (xs.reverse.takeWhile p).reverse = xs := by
  rw [dropTailWhile, ← List.reverse_append, List.takeWhile_append_dropWhile, List.reverse_reverse]

theorem not_of_mem_getLast?_dropTailWhile {α : Type} {p : α → Bool} {x : α} {xs : List α}
    (last : x ∈ (dropTailWhile p xs).getLast?) : p x = false := by
  rw [dropTailWhile, List.getLast?_reverse] at last
  exact not_of_mem_head?_dropWhile last

namespace Number

/-- A text with white space around it; what is inside neither starts nor ends with any. -/
structure Trims (text body : List Char) : Prop where
  parts : ∃ front back, text = front ++ (body ++ back) ∧ ∀ c ∈ front ++ back, isBlank c
  start : ∀ c ∈ body.head?, isBlank c = false
  last : ∀ c ∈ body.getLast?, isBlank c = false

theorem trims_trimBlank (text : List Char) : Trims text (trimBlank text) := by
  have front : text.takeWhile isBlank ++ text.dropWhile isBlank = text :=
    List.takeWhile_append_dropWhile
  have back := dropTailWhile_append isBlank (text.dropWhile isBlank)
  constructor
  case parts =>
    refine ⟨text.takeWhile isBlank, ((text.dropWhile isBlank).reverse.takeWhile isBlank).reverse,
      ?_, ?_⟩
    · rw [trimBlank, back, front]
    · intro c mem
      obtain before | after := List.mem_append.1 mem
      · exact List.all_eq_true.1 List.all_takeWhile c before
      · exact List.all_eq_true.1 List.all_takeWhile c (List.mem_reverse.1 after)
  case start =>
    intro c start
    refine not_of_mem_head?_dropWhile (p := isBlank) (?_ : c ∈ (text.dropWhile isBlank).head?)
    rw [← back, List.head?_append, ← trimBlank, start]
    rfl
  case last => exact fun c => not_of_mem_getLast?_dropTailWhile

/-! ### Numeric texts -/

/-- The mark of a base, behind a zero. -/
inductive BaseMark : Char → Nat → Prop where
  | hex : BaseMark 'x' 16
  | upperHex : BaseMark 'X' 16
  | octal : BaseMark 'o' 8
  | upperOctal : BaseMark 'O' 8
  | binary : BaseMark 'b' 2
  | upperBinary : BaseMark 'B' 2

/-- One or more digits of a base. -/
def DigitsOf (base : Nat) (ds : List Char) : Prop := ds ≠ [] ∧ ∀ c ∈ ds, digitValue c < base

/-- A sign that may be missing, and whether it is a minus sign. -/
inductive Sign : List Char → Bool → Prop where
  | none : Sign [] false
  | plus : Sign ['+'] false
  | minus : Sign ['-'] true

/-- Decimal digits with at most one point among them, and the number they are. -/
inductive Digits : List Char → ℚ → Prop where
  | whole {ds : List Char} (digits : DigitsOf 10 ds) : Digits ds (ofDigits 10 ds)
  | point {front back : List Char} (digits : DigitsOf 10 (front ++ back)) :
    Digits (front ++ '.' :: back) (ofDigits 10 (front ++ back) / 10 ^ back.length)

/-- An exponent that may be missing: a mark, an optional sign and digits. -/
inductive Exponent : List Char → Int → Prop where
  | none : Exponent [] 0
  | some {mark : Char} {sign ds : List Char} {negative : Bool} (marks : mark = 'e' ∨ mark = 'E')
    (signs : Sign sign negative) (digits : DigitsOf 10 ds) :
    Exponent (mark :: (sign ++ ds)) (if negative then -(ofDigits 10 ds : Int) else ofDigits 10 ds)

/-- The numeric texts of the language and the doubles they denote. -/
inductive Denotes : List Char → Double → Prop where
  | empty : Denotes [] (.zero false)
  | based {mark : Char} {base : Nat} {ds : List Char} {d : Double} (marks : BaseMark mark base)
    (digits : DigitsOf base ds) (rounds : Double.Rounded false (ofDigits base ds) d) :
    Denotes ('0' :: mark :: ds) d
  | infinity {sign : List Char} {negative : Bool} (signs : Sign sign negative) :
    Denotes (sign ++ "Infinity".toList) (.infinity negative)
  | decimal {sign ds exponent : List Char} {negative : Bool} {q : ℚ} {e : Int} {d : Double}
    (signs : Sign sign negative) (digits : Digits ds q) (exponents : Exponent exponent e)
    (rounds : Double.Rounded negative (q * 10 ^ e) d) : Denotes (sign ++ (ds ++ exponent)) d

/-! ### Reading the parts -/

theorem allDigits_iff_digitsOf {base : Nat} {ds : List Char} :
    allDigits base ds ↔ DigitsOf base ds := by
  simp only [allDigits, DigitsOf, Bool.and_eq_true, Bool.not_eq_true', List.isEmpty_eq_false_iff,
    List.all_eq_true, decide_eq_true_eq]

theorem DigitsOf.isDigit {ds : List Char} (h : DigitsOf 10 ds) : ∀ c ∈ ds, c.isDigit :=
  fun c mem => isDigit_of_digitValue_lt (h.2 c mem)

/-- The texts that no sign stands in front of. -/
def Unsigned (text : List Char) : Prop := ∀ c ∈ text.head?, c ≠ '+' ∧ c ≠ '-'

theorem splitSign_iff {text rest : List Char} {negative : Bool} (unsigned : Unsigned rest) :
    splitSign text = (negative, rest) ↔ ∃ sign, Sign sign negative ∧ text = sign ++ rest := by
  constructor
  · intro split
    unfold splitSign at split
    split at split
    · cases split
      exact ⟨_, .minus, rfl⟩
    · cases split
      exact ⟨_, .plus, rfl⟩
    · cases split
      exact ⟨_, .none, rfl⟩
  · rintro ⟨sign, signs, rfl⟩
    cases signs with
    | plus | minus => rfl
    | none =>
      change splitSign rest = (false, rest)
      unfold splitSign
      split
      · exact absurd rfl (unsigned '-' rfl).2
      · exact absurd rfl (unsigned '+' rfl).1
      · rfl

theorem DigitsOf.unsigned {base : Nat} {ds : List Char} (h : DigitsOf base ds)
    (small : base ≤ 36) : Unsigned ds := by
  intro c front
  have value : digitValue c < 36 :=
    Nat.lt_of_lt_of_le (h.2 c (List.mem_of_mem_head? front)) small
  constructor
  · rintro rfl
    exact absurd value (by decide)
  · rintro rfl
    exact absurd value (by decide)

theorem exponent?_eq_some_iff {text : List Char} {e : Int} :
    exponent? text = some e ↔ Exponent text e := by
  constructor
  · intro read
    unfold exponent? at read
    split at read
    · cases read
      exact .none
    · rename_i mark rest
      split at read
      · rename_i marks
        obtain ⟨negative, ds, split⟩ : ∃ negative ds, splitSign rest = (negative, ds) := ⟨_, _, rfl⟩
        rw [split] at read
        simp only [Option.ite_none_right_eq_some, Option.some.injEq] at read
        obtain ⟨digits, rfl⟩ := read
        have digits' := allDigits_iff_digitsOf.1 digits
        obtain ⟨sign, signs, rfl⟩ := (splitSign_iff (digits'.unsigned (by decide))).1 split
        exact .some marks signs digits'
      · cases read
  · intro exponent
    cases exponent with
    | none => rfl
    | some marks signs digits =>
      have split := (splitSign_iff (digits.unsigned (by decide))).2 ⟨_, signs, rfl⟩
      unfold exponent?
      simp only [marks, if_true, split, allDigits_iff_digitsOf.2 digits]

theorem Exponent.stops {text : List Char} {e : Int} (h : Exponent text e) :
    Stops text ∧ ∀ more, text ≠ '.' :: more := by
  cases h with
  | none => exact ⟨stops_nil, fun _ => nofun⟩
  | some marks =>
    constructor
    · intro c front
      cases front
      obtain rfl | rfl := marks <;> rfl
    · intro more same
      obtain ⟨rfl, -⟩ := List.cons.inj same
      obtain lower | upper := marks
      · exact absurd lower (by decide)
      · exact absurd upper (by decide)

theorem Digits.unsigned {ds : List Char} {q : ℚ} (h : Digits ds q) (rest : List Char) :
    Unsigned (ds ++ rest) := by
  cases h with
  | whole digits =>
    intro c front
    refine digits.unsigned (by decide) c ?_
    rwa [List.head?_append_of_ne_nil _ digits.1] at front
  | @point before after digits =>
    cases before with
    | nil =>
      intro c front
      cases front
      decide
    | cons c before =>
      intro c' front
      exact digits.unsigned (by decide) c' front

theorem value_point (n k : Nat) (e : Int) : (Decimal.mk n (e - k)).value = n / 10 ^ k * 10 ^ e := by
  rw [Decimal.value, zpow_sub₀ (by norm_num), zpow_natCast]
  ring

/-- A decimal literal is read as the decimal it is. -/
theorem decimal?_of_digits {ds exponent : List Char} {q : ℚ} {e : Int} (digits : Digits ds q)
    (exponents : Exponent exponent e) :
    ∃ d, decimal? (ds ++ exponent) = some d ∧ d.value = q * 10 ^ e := by
  obtain ⟨stops, noPoint⟩ := exponents.stops
  have read := exponent?_eq_some_iff.2 exponents
  cases digits with
  | whole digits =>
    exact ⟨_, decimal?_whole digits.isDigit digits.1 stops noPoint read, rfl⟩
  | @point front back digits =>
    have all : ∀ c ∈ front, c.isDigit := fun c mem => digits.isDigit c (List.mem_append_left _ mem)
    have all' : ∀ c ∈ back, c.isDigit := fun c mem => digits.isDigit c (List.mem_append_right _ mem)
    have taken := decimal?_point all digits.1 all' stops read
    rw [List.append_assoc, List.cons_append]
    exact ⟨_, taken, value_point _ _ _⟩

theorem digitsOf_of_isDigit {ds : List Char} (nonempty : ds ≠ []) (all : ∀ c ∈ ds, c.isDigit) :
    DigitsOf 10 ds :=
  ⟨nonempty, fun c mem => digitValue_lt (all c mem)⟩

/-- Only decimal literals are read as decimals. -/
theorem digits_of_decimal? {text : List Char} {d : Decimal} (read : decimal? text = some d) :
    ∃ ds exponent q e, text = ds ++ exponent ∧ Digits ds q ∧ Exponent exponent e ∧
      d.value = q * 10 ^ e := by
  have parts : text = text.takeWhile Char.isDigit ++ text.dropWhile Char.isDigit :=
    List.takeWhile_append_dropWhile.symm
  have all : ∀ c ∈ text.takeWhile Char.isDigit, c.isDigit :=
    List.all_eq_true.1 List.all_takeWhile
  unfold decimal? at read
  generalize text.takeWhile Char.isDigit = front at *
  generalize text.dropWhile Char.isDigit = rest at *
  simp only at read
  split at read
  · rename_i more
    have parts' : more = more.takeWhile Char.isDigit ++ more.dropWhile Char.isDigit :=
      List.takeWhile_append_dropWhile.symm
    have all' : ∀ c ∈ more.takeWhile Char.isDigit, c.isDigit :=
      List.all_eq_true.1 List.all_takeWhile
    simp only at read
    generalize more.takeWhile Char.isDigit = back at *
    generalize more.dropWhile Char.isDigit = rest at *
    split at read
    · cases read
    · rename_i some
      obtain ⟨e, exponent, rfl⟩ := Option.map_eq_some_iff.1 read
      have nonempty : front ++ back ≠ [] := by simpa [List.append_eq_nil_iff] using some
      have digits : DigitsOf 10 (front ++ back) :=
        digitsOf_of_isDigit nonempty fun c mem => (List.mem_append.1 mem).elim (all c) (all' c)
      refine ⟨front ++ '.' :: back, rest, _, e, ?_, .point digits,
        exponent?_eq_some_iff.1 exponent, value_point _ _ _⟩
      rw [parts, parts', List.append_assoc, List.cons_append]
  · simp only at read
    split at read
    · cases read
    · rename_i some
      obtain ⟨e, exponent, rfl⟩ := Option.map_eq_some_iff.1 read
      have nonempty : front ≠ [] := by simpa using some
      refine ⟨front, rest, _, e, parts, .whole (digitsOf_of_isDigit nonempty all),
        exponent?_eq_some_iff.1 exponent, ?_⟩
      rw [List.append_nil, List.length_nil, Int.ofNat_zero, Int.sub_zero]
      rfl

/-- The signed decimal literals are the texts that are read as numbers, each as the double it
denotes. -/
theorem real?_iff {text : List Char} {d : Double} :
    real? text = some d ↔ ∃ sign ds exponent negative q e, Sign sign negative ∧ Digits ds q ∧
      Exponent exponent e ∧ Double.Rounded negative (q * 10 ^ e) d ∧
      text = sign ++ (ds ++ exponent) := by
  constructor
  · intro read
    obtain ⟨negative, rest, split⟩ : ∃ negative rest, splitSign text = (negative, rest) :=
      ⟨_, _, rfl⟩
    unfold real? at read
    rw [split] at read
    obtain ⟨decimal, literal, rfl⟩ := Option.map_eq_some_iff.1 read
    obtain ⟨ds, exponent, q, e, rfl, digits, exponents, value⟩ := digits_of_decimal? literal
    obtain ⟨sign, signs, rfl⟩ := (splitSign_iff (digits.unsigned exponent)).1 split
    exact ⟨sign, ds, exponent, negative, q, e, signs, digits, exponents,
      value ▸ decimal.rounded_toDouble negative, rfl⟩
  · rintro ⟨sign, ds, exponent, negative, q, e, signs, digits, exponents, rounds, rfl⟩
    obtain ⟨decimal, literal, value⟩ := decimal?_of_digits digits exponents
    have split := (splitSign_iff (digits.unsigned exponent)).2 ⟨sign, signs, rfl⟩
    unfold real?
    rw [split]
    simp only [literal, Option.map_some]
    rw [← value] at rounds
    rw [(decimal.rounded_toDouble negative).unique rounds]

theorem BaseMark.le {mark : Char} {base : Nat} (h : BaseMark mark base) : base ≤ 36 := by
  cases h <;> decide

theorem radixPrefix?_eq_some_iff {text rest : List Char} {base : Nat} :
    radixPrefix? text = some (base, rest) ↔
      ∃ mark, BaseMark mark base ∧ rest ≠ [] ∧ text = '0' :: mark :: rest := by
  constructor
  · intro read
    unfold radixPrefix? at read
    split at read
    · rename_i mark c rest
      split at read
      · rename_i hex
        cases read
        obtain rfl | rfl := hex
        · exact ⟨_, .hex, List.cons_ne_nil _ _, rfl⟩
        · exact ⟨_, .upperHex, List.cons_ne_nil _ _, rfl⟩
      split at read
      · rename_i octal
        cases read
        obtain rfl | rfl := octal
        · exact ⟨_, .octal, List.cons_ne_nil _ _, rfl⟩
        · exact ⟨_, .upperOctal, List.cons_ne_nil _ _, rfl⟩
      split at read
      · rename_i binary
        cases read
        obtain rfl | rfl := binary
        · exact ⟨_, .binary, List.cons_ne_nil _ _, rfl⟩
        · exact ⟨_, .upperBinary, List.cons_ne_nil _ _, rfl⟩
      · cases read
    · cases read
  · rintro ⟨mark, marks, nonempty, rfl⟩
    obtain ⟨c, rest, rfl⟩ := List.exists_cons_of_ne_nil nonempty
    cases marks <;> rfl

/-- Behind the mark of a base a word is read: a plus sign or none, and digits below 2^64. -/
theorem word?_eq_some_iff {base n : Nat} {text : List Char} (small : base ≤ 36) :
    word? base text = some n ↔ ∃ ds, (text = ds ∨ text = '+' :: ds) ∧ DigitsOf base ds ∧
      ofDigits base ds = n ∧ n < 2 ^ 64 := by
  have read (ds : List Char) :
      (if allDigits base ds then if ofDigits base ds < 2 ^ 64 then some (ofDigits base ds) else none
        else none) = some n ↔ DigitsOf base ds ∧ ofDigits base ds = n ∧ n < 2 ^ 64 := by
    rw [← allDigits_iff_digitsOf]
    constructor
    · intro taken
      split at taken
      · rename_i digits
        split at taken
        · rename_i fits
          cases taken
          exact ⟨digits, rfl, fits⟩
        · cases taken
      · cases taken
    · rintro ⟨digits, rfl, fits⟩
      rw [if_pos digits, if_pos fits]
  unfold word?
  split
  · rename_i ds
    refine (read ds).trans ⟨fun h => ⟨ds, .inr rfl, h⟩, ?_⟩
    rintro ⟨ds', rfl | same, digits, value⟩
    · exact absurd rfl (digits.unsigned small '+' rfl).1
    · obtain ⟨-, rfl⟩ := List.cons.inj same
      exact ⟨digits, value⟩
  · rename_i noSign
    refine (read text).trans ⟨fun h => ⟨text, .inl rfl, h⟩, ?_⟩
    rintro ⟨ds, rfl | same, digits, value⟩
    · exact ⟨digits, value⟩
    · exact absurd same (noSign ds)

/-! ### Reading texts -/

/-- After the mark of a base, a whole number that fits no word. -/
def Oversized (body : List Char) : Prop :=
  ∃ mark base ds, BaseMark mark base ∧ DigitsOf base ds ∧ 2 ^ 64 ≤ ofDigits base ds ∧
    body = '0' :: mark :: ds

/-- After the mark of a base, a plus sign and a whole number that fits a word. -/
def SignedBased (body : List Char) (n : Nat) : Prop :=
  ∃ mark base ds, BaseMark mark base ∧ DigitsOf base ds ∧ ofDigits base ds = n ∧ n < 2 ^ 64 ∧
    body = '0' :: mark :: '+' :: ds

section Text

variable {text body : List Char} {d : Double}

theorem real?_based {mark : Char} {base : Nat} (marks : BaseMark mark base) (rest : List Char) :
    real? ('0' :: mark :: rest) = none := by
  cases marks <;> rfl

theorem real?_infinity {sign : List Char} {negative : Bool} (signs : Sign sign negative) :
    real? (sign ++ "Infinity".toList) = none := by
  cases signs <;> rfl

theorem ofText_of_real (trimmed : trimBlank text = body) (read : real? body = some d) :
    ofText text = d := by
  have nonempty : body ≠ [] := by
    rintro rfl
    cases read
  have noMark : radixPrefix? body = none := by
    by_contra marked
    obtain ⟨⟨base, rest⟩, taken⟩ := Option.ne_none_iff_exists'.1 marked
    obtain ⟨mark, marks, -, rfl⟩ := radixPrefix?_eq_some_iff.1 taken
    rw [real?_based marks] at read
    cases read
  have finite {sign : List Char} {negative : Bool} (signs : Sign sign negative) :
      body ≠ sign ++ "Infinity".toList := by
    rintro rfl
    rw [real?_infinity signs] at read
    cases read
  have positive : ¬(body = "Infinity".toList ∨ body = "+Infinity".toList) :=
    not_or.2 ⟨finite .none, finite .plus⟩
  have negative : body ≠ "-Infinity".toList := finite .minus
  rw [ofText]
  simp only [trimmed, noMark, List.isEmpty_iff, if_neg nonempty, if_neg positive, if_neg negative,
    read, Option.getD_some]

theorem ofText_of_based {mark : Char} {base : Nat} {rest : List Char} (marks : BaseMark mark base)
    (nonempty : rest ≠ []) (trimmed : trimBlank text = '0' :: mark :: rest) :
    ofText text = ((word? base rest).map Double.ofNat).getD .nan := by
  have taken := radixPrefix?_eq_some_iff.2 ⟨mark, marks, nonempty, rfl⟩
  rw [ofText]
  simp only [trimmed, taken]
  rfl

theorem ofText_of_infinity {sign : List Char} {negative : Bool} (signs : Sign sign negative)
    (trimmed : trimBlank text = sign ++ "Infinity".toList) : ofText text = .infinity negative := by
  rw [ofText]
  simp only [trimmed]
  cases signs <;> rfl

/-- Numeric texts are read as what they denote, whole numbers of 2^64 or more aside. -/
theorem ofText_of_denotes (trimmed : trimBlank text = body) (denotes : Denotes body d)
    (fits : ¬Oversized body) : ofText text = d := by
  cases denotes with
  | empty =>
    rw [ofText, trimmed]
    rfl
  | @based mark base ds _ marks digits rounds =>
    have small : ofDigits base ds < 2 ^ 64 := by
      by_contra large
      exact fits ⟨mark, base, ds, marks, digits, Nat.le_of_not_lt large, rfl⟩
    have word := (word?_eq_some_iff marks.le).2 ⟨ds, .inl rfl, digits, rfl, small⟩
    rw [ofText_of_based marks digits.1 trimmed, word, Option.map_some, Option.getD_some]
    exact (Double.rounded_ofNat _).unique rounds
  | infinity signs => exact ofText_of_infinity signs trimmed
  | decimal signs digits exponents rounds =>
    exact ofText_of_real trimmed
      (real?_iff.2 ⟨_, _, _, _, _, _, signs, digits, exponents, rounds, rfl⟩)

/-- A text that is no numeric text is read as not-a-number, unless a plus sign follows a mark. -/
theorem ofText_of_not_denotes (trimmed : trimBlank text = body) (foreign : ∀ d, ¬Denotes body d)
    (unsigned : ∀ n, ¬SignedBased body n) : ofText text = .nan := by
  rw [ofText]
  simp only [trimmed]
  split
  · rename_i empty
    rw [List.isEmpty_iff] at empty
    subst empty
    exact absurd .empty (foreign _)
  split
  · rename_i base rest taken
    obtain ⟨mark, marks, -, rfl⟩ := radixPrefix?_eq_some_iff.1 taken
    cases word : word? base rest with
    | none => rfl
    | some n =>
      obtain ⟨ds, rfl | rfl, digits, rfl, small⟩ := (word?_eq_some_iff marks.le).1 word
      · exact absurd (.based marks digits (Double.rounded_ofNat _)) (foreign _)
      · exact absurd ⟨mark, base, ds, marks, digits, rfl, small, rfl⟩ (unsigned _)
  · split
    · rename_i positive
      obtain rfl | rfl := positive
      · exact absurd (.infinity .none) (foreign _)
      · exact absurd (.infinity .plus) (foreign _)
    split
    · rename_i negative
      subst negative
      exact absurd (.infinity .minus) (foreign _)
    · cases read : real? body with
      | none => rfl
      | some d =>
        obtain ⟨_, _, _, _, _, _, signs, digits, exponents, rounds, rfl⟩ := real?_iff.1 read
        exact absurd (.decimal signs digits exponents rounds) (foreign _)

theorem ofText_of_oversized (trimmed : trimBlank text = body) (large : Oversized body) :
    ofText text = .nan := by
  obtain ⟨mark, base, ds, marks, digits, large, rfl⟩ := large
  rw [ofText_of_based marks digits.1 trimmed]
  cases word : word? base ds with
  | none => rfl
  | some n =>
    obtain ⟨ds', same, digits', rfl, small⟩ := (word?_eq_some_iff marks.le).1 word
    obtain rfl | rfl := same
    · exact absurd small (Nat.not_lt_of_le large)
    · exact absurd rfl (digits.unsigned marks.le '+' rfl).1

theorem ofText_of_signedBased {n : Nat} (trimmed : trimBlank text = body)
    (signed : SignedBased body n) : ofText text = .ofNat n := by
  obtain ⟨mark, base, ds, marks, digits, rfl, small, rfl⟩ := signed
  have word := (word?_eq_some_iff marks.le).2 ⟨ds, .inr rfl, digits, rfl, small⟩
  rw [ofText_of_based marks (List.cons_ne_nil _ _) trimmed, word, Option.map_some, Option.getD_some]

/-- Between a mark and its digits the language has no sign. -/
theorem SignedBased.not_denotes {n : Nat} (signed : SignedBased body n) : ¬Denotes body d := by
  obtain ⟨mark, base, ds, marks, -, -, -, rfl⟩ := signed
  intro denotes
  generalize same : '0' :: mark :: '+' :: ds = body at denotes
  cases denotes with
  | empty => cases same
  | based marks' digits =>
    cases same
    exact absurd rfl (digits.unsigned marks'.le '+' rfl).1
  | infinity signs => cases signs <;> cases same
  | decimal signs digits exponents rounds =>
    have read := real?_iff.2 ⟨_, _, _, _, _, _, signs, digits, exponents, rounds, rfl⟩
    rw [← same, real?_based marks] at read
    cases read

end Text

/-- What the host reads from a text, white space at both ends aside. A numeric text of the language
is read as the double it denotes, the correctly rounded one, unless it is a whole number of 2^64 or
more after the mark of a base: then it is not-a-number. Any other text is not-a-number, unless a
plus sign stands between such a mark and a number below 2^64: then it is that number. -/
theorem numeric_texts_read (text : List Char) : Trims text (trimBlank text) ∧
    (∀ d, Denotes (trimBlank text) d → ¬Oversized (trimBlank text) → ofText text = d) ∧
    ((∀ d, ¬Denotes (trimBlank text) d) → (∀ n, ¬SignedBased (trimBlank text) n) →
      ofText text = .nan) ∧
    (Oversized (trimBlank text) → ofText text = .nan) ∧
    ∀ n, SignedBased (trimBlank text) n → Double.Rounded false n (ofText text) := by
  refine ⟨trims_trimBlank text, ?_, ?_, ?_, ?_⟩
  · intro d denotes fits
    exact ofText_of_denotes rfl denotes fits
  · intro foreign unsigned
    exact ofText_of_not_denotes rfl foreign unsigned
  · intro large
    exact ofText_of_oversized rfl large
  · intro n signed
    rw [ofText_of_signedBased rfl signed]
    exact Double.rounded_ofNat n

theorem numeric_texts_read_hex :
    let text := " 0x1F\n".toList
    trimBlank text = "0x1F".toList ∧ Denotes "0x1F".toList (.ofNat 31) ∧
      ¬Oversized "0x1F".toList ∧ ofText text = .ofNat 31 := by
  intro text
  have trimmed : trimBlank text = "0x1F".toList := by decide +kernel
  have denotes : Denotes "0x1F".toList (.ofNat 31) :=
    .based .hex (allDigits_iff_digitsOf.1 rfl) (Double.rounded_ofNat 31)
  have small : ¬Oversized "0x1F".toList := by
    rintro ⟨mark, base, ds, marks, -, large, same⟩
    cases same
    cases marks
    exact absurd large (by decide)
  obtain ⟨-, numeric, -⟩ := numeric_texts_read text
  rw [trimmed] at numeric
  exact ⟨trimmed, denotes, small, numeric _ denotes small⟩

/-- Behind a mark the language has 2^64 and no sign; the host has no number for the one and 1 for
the other. -/
theorem based_texts_misread :
    (Denotes "0x10000000000000000".toList (.ofNat (2 ^ 64)) ∧
      ofText "0x10000000000000000".toList = .nan) ∧
    (∀ d, ¬Denotes "0x+1".toList d) ∧ ofText "0x+1".toList = .ofNat 1 := by
  refine ⟨⟨.based .hex (allDigits_iff_digitsOf.1 (by decide)) (Double.rounded_ofNat _),
    by decide +kernel⟩, ?_, by decide +kernel⟩
  have signed : SignedBased "0x+1".toList 1 :=
    ⟨'x', 16, ['1'], .hex, allDigits_iff_digitsOf.1 rfl, by decide, by decide, rfl⟩
  exact fun _ => signed.not_denotes

end Number

end ScriptBridge
