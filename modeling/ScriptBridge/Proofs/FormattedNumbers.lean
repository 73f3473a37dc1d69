import ScriptBridge.Locale.NumberFormat
import ScriptBridge.Proofs.LanguageTags
import ScriptBridge.Proofs.NumericTexts

/-!
Formatted numbers keep their value. Without sign, currency symbol and separators, and with a point
for the decimal mark, what is written for a number are the digits of the number rounded to the
greatest number of places, less the zeros at the end that the least number of places does not ask
for.
-/

namespace ScriptBridge

/-! ### Resolved places -/

namespace NumberFormat

theorem digitsOption_le {option : String} {given : Option Double} {places : Option Nat}
    (h : digitsOption option given = .ok places) : ∀ n ∈ places, n ≤ 100 := by
  cases given with
  | none =>
    cases h
    nofun
  | some v =>
    rw [digitsOption] at h
    split at h
    case isTrue range =>
      cases h
      rintro n ⟨⟩
      omega
    case isFalse => cases h

theorem fractionRange_le {least greatest : Option Nat} {defaultLeast defaultGreatest lo hi : Nat}
    (h : fractionRange least greatest defaultLeast defaultGreatest = .ok (lo, hi))
    (leasts : ∀ n ∈ least, n ≤ 100) (greatests : ∀ n ∈ greatest, n ≤ 100)
    (defaults : defaultLeast ≤ defaultGreatest) (small : defaultGreatest ≤ 100) :
    lo ≤ hi ∧ hi ≤ 100 := by
  cases least with
  | none =>
    cases greatest with
    | none =>
      cases h
      exact ⟨defaults, small⟩
    | some greatest =>
      cases h
      exact ⟨Nat.min_le_right _ _, greatests _ rfl⟩
  | some least =>
    cases greatest with
    | none =>
      cases h
      exact ⟨Nat.le_max_right _ _, Nat.max_le.2 ⟨small, leasts _ rfl⟩⟩
    | some greatest =>
      rw [fractionRange] at h
      split at h
      case isTrue => cases h
      case isFalse ordered =>
        cases h
        exact ⟨Nat.le_of_not_lt ordered, greatests _ rfl⟩

theorem fractionDigits_le (code : String) : Currency.fractionDigits code ≤ 100 := by
  unfold Currency.fractionDigits
  split
  · decide
  · split <;> decide

theorem hyphen_not_mem_currencyCode {given code : String} (h : currencyCode given = .ok code) :
    '-' ∉ code.toList := by
  unfold currencyCode at h
  dsimp only at h
  split at h
  case isFalse => cases h
  case isTrue letters =>
    cases h
    rw [String.toList_ofList]
    intro m
    obtain ⟨c, inside, raised⟩ := List.mem_map.1 m
    -- raising a letter gives a hyphen only for a hyphen, which is no letter
    have letter : LanguageTag.isLetter c := List.all_eq_true.1 letters.2 c inside
    have hyphen : c = '-' := by
      rw [← LanguageTag.lower_eq_hyphen, ← LanguageTag.lower_upper, raised]
      rfl
    rw [hyphen] at letter
    cases letter

theorem hyphen_not_mem_symbol {code : String} (tag : LanguageTag) (h : '-' ∉ code.toList) :
    '-' ∉ (Currency.symbol code tag).toList := by
  unfold Currency.symbol
  dsimp only
  split
  all_goals first | split | skip
  all_goals first | decide | exact h

theorem hyphen_not_mem_narrow {symbol : String} (h : '-' ∉ symbol.toList) :
    '-' ∉ (Currency.narrow symbol).toList := by
  unfold Currency.narrow
  split
  case h_1 => exact h
  case h_2 rest _ =>
    rw [String.toList_ofList]
    exact fun m => h ((List.dropWhile_sublist _).mem m)

theorem hyphen_not_mem_displayedSymbol {code symbol : String} {tag : LanguageTag}
    {display : Option String} (h : displayedSymbol code tag display = .ok symbol)
    (plain : '-' ∉ code.toList) : '-' ∉ symbol.toList := by
  unfold displayedSymbol at h
  split at h
  case h_1 =>
    cases h
    exact hyphen_not_mem_symbol tag plain
  case h_2 =>
    cases h
    exact hyphen_not_mem_narrow (hyphen_not_mem_symbol tag plain)
  case h_3 =>
    cases h
    exact plain
  case h_4 => cases h

theorem resolveStyle_spec {tag : LanguageTag} {currency : Option String} {o : NumberFormatOptions}
    {style : NumberStyle} {least greatest : Nat}
    (h : resolveStyle tag currency o = .ok (style, least, greatest))
    (plain : ∀ code ∈ currency, '-' ∉ code.toList) :
    least ≤ greatest ∧ greatest ≤ 100 ∧
      ∀ symbol, style = .currency symbol → '-' ∉ symbol.toList := by
  unfold resolveStyle at h
  split at h
  case h_1 =>
    cases h
    exact ⟨by decide, by decide, nofun⟩
  case h_2 =>
    cases h
    exact ⟨by decide, by decide, nofun⟩
  case h_3 =>
    cases currency with
    | none => cases h
    | some code =>
      dsimp only at h
      cases shown : displayedSymbol code tag o.currencyDisplay with
      | error e =>
        rw [shown] at h
        cases h
      | ok symbol =>
        rw [shown] at h
        cases h
        refine ⟨Nat.le_refl _, fractionDigits_le code, ?_⟩
        rintro _ ⟨⟩
        exact hyphen_not_mem_displayedSymbol shown (plain code rfl)
  case h_4 => cases h

/-- What options resolve to. -/
structure Resolved (f : NumberFormat) : Prop where
  ordered : f.minimumDigits ≤ f.maximumDigits
  bounded : f.maximumDigits ≤ 100
  symbols : f.symbols = .ofTag f.locale
  plain : ∀ symbol, f.style = .currency symbol → '-' ∉ symbol.toList

theorem eq_ok_of_bind {ε α β : Type} {x : Except ε α} {g : α → Except ε β} {b : β}
    (h : x >>= g = .ok b) : ∃ a, x = .ok a ∧ g a = .ok b := by
  cases x with
  | error e => cases h
  | ok a => exact ⟨a, rfl, h⟩

theorem resolved_of_style {tag : LanguageTag} {currency : Option String} {o : NumberFormatOptions}
    {f : NumberFormat} (plain : ∀ code ∈ currency, '-' ∉ code.toList)
    (h : (do
      let (style, defaultLeast, defaultGreatest) ← resolveStyle tag currency o
      let least ← digitsOption "minimumFractionDigits" o.minimumFractionDigits
      let greatest ← digitsOption "maximumFractionDigits" o.maximumFractionDigits
      let (lo, hi) ← fractionRange least greatest defaultLeast defaultGreatest
      return { locale := tag, symbols := .ofTag tag, style, minimumDigits := lo,
               maximumDigits := hi, useGrouping := o.useGrouping.getD true }) = Except.ok f) :
    Resolved f := by
  obtain ⟨⟨style, defaultLeast, defaultGreatest⟩, styled, h⟩ := eq_ok_of_bind h
  obtain ⟨least, leasts, h⟩ := eq_ok_of_bind h
  obtain ⟨greatest, greatests, h⟩ := eq_ok_of_bind h
  obtain ⟨⟨lo, hi⟩, range, h⟩ := eq_ok_of_bind h
  cases h
  obtain ⟨defaults, small, unsigned⟩ := resolveStyle_spec styled plain
  obtain ⟨ordered, bounded⟩ := fractionRange_le range (digitsOption_le leasts)
    (digitsOption_le greatests) defaults small
  exact ⟨ordered, bounded, rfl, unsigned⟩

theorem resolved_of_resolve {locale : String} {o : NumberFormatOptions} {f : NumberFormat}
    (h : resolve locale o = .ok f) : Resolved f := by
  unfold resolve at h
  obtain ⟨tag, parsed, h⟩ := eq_ok_of_bind h
  dsimp only at h
  split at h
  case h_1 => exact resolved_of_style (fun _ none => by cases none) h
  case h_2 given _ =>
    obtain ⟨currency, checked, h⟩ := eq_ok_of_bind h
    refine resolved_of_style ?_ h
    cases code : currencyCode given with
    | error e =>
      rw [code] at checked
      cases checked
    | ok code' =>
      rw [code] at checked
      cases checked
      rintro _ ⟨⟩
      exact hyphen_not_mem_currencyCode code

end NumberFormat

/-! ### Separators -/

namespace LocaleSymbols

/-- A mark of one character that is no digit, sign or separator, and separators that are no digit
or sign either. -/
def Clear (symbols : LocaleSymbols) : Prop :=
  symbols.decimal.length = 1 ∧
    (symbols.decimal.all fun c => c ∉ symbols.group ∧ c.isDigit = false ∧ c ≠ '-') ∧
    symbols.group.all fun c => c.isDigit = false ∧ c ≠ '-'

instance (symbols : LocaleSymbols) : Decidable (Clear symbols) :=
  inferInstanceAs (Decidable (_ ∧ _))

theorem Clear.decimal {symbols : LocaleSymbols} (h : Clear symbols) :
    ∀ c ∈ symbols.decimal, c ∉ symbols.group ∧ c.isDigit = false ∧ c ≠ '-' :=
  fun c m => of_decide_eq_true (List.all_eq_true.1 h.2.1 c m)

theorem Clear.group {symbols : LocaleSymbols} (h : Clear symbols) :
    ∀ c ∈ symbols.group, c.isDigit = false ∧ c ≠ '-' :=
  fun c m => of_decide_eq_true (List.all_eq_true.1 h.2.2 c m)

/-- What holds of every row of the table holds of the conventions of every tag. -/
theorem ofTag_of_table {p : LocaleSymbols → Prop} (rows : ∀ row ∈ table, p row.2)
    (tag : LanguageTag) : p (ofTag tag) := by
  have found {key : String} {symbols : LocaleSymbols} (h : find? key = some symbols) :
      p symbols := by
    obtain ⟨row, first, rfl⟩ := Option.map_eq_some_iff.1 h
    exact rows row (List.mem_of_find?_eq_some first)
  unfold ofTag
  dsimp only
  cases regional : tag.region.bind fun region =>
      find? (String.ofList tag.language ++ "-" ++ String.ofList region) with
  | some symbols =>
    obtain ⟨region, -, here⟩ := Option.bind_eq_some_iff.1 regional
    exact found here
  | none =>
    cases plain : find? (String.ofList tag.language) with
    | some symbols => exact found plain
    | none => exact rows (_, english) List.mem_cons_self

theorem clear_ofTag : ∀ tag : LanguageTag, Clear (ofTag tag) := ofTag_of_table (by decide)

/-- A number without its separators and with a point for the decimal mark. -/
def unseparated (symbols : LocaleSymbols) (text : List Char) : List Char :=
  (text.filter fun c => c ∉ symbols.group).map fun c => if [c] = symbols.decimal then '.' else c

theorem flatten_groupDigits (grouping : Grouping) (width : Nat) (ds : List Char) :
    (groupDigits grouping width ds).flatten = ds := by
  induction width, ds using groupDigits.induct grouping with
  | case1 width ds cut ih =>
    rw [groupDigits, dif_pos cut, List.flatten_append, ih, List.flatten_singleton,
      List.take_append_drop]
  | case2 width ds whole => rw [groupDigits, dif_neg whole, List.flatten_singleton]

theorem filter_intercalate {α : Type} {p : α → Bool} {sep : List α} {parts : List (List α)}
    (seps : ∀ x ∈ sep, ¬p x) (kept : ∀ x ∈ parts.flatten, p x) :
    (sep.intercalate parts).filter p = parts.flatten := by
  induction parts with
  | nil => rfl
  | cons part parts ih =>
    rw [List.flatten_cons] at kept ⊢
    have first : part.filter p = part :=
      List.filter_eq_self.2 fun x m => kept x (List.mem_append_left _ m)
    cases parts with
    | nil => simp [first]
    | cons part' parts =>
      rw [List.intercalate_cons_cons, List.filter_append, List.filter_append, first,
        List.filter_eq_nil_iff.2 seps, ih fun x m => kept x (List.mem_append_right _ m),
        List.append_nil]

theorem unseparated_append (symbols : LocaleSymbols) (xs ys : List Char) :
    symbols.unseparated (xs ++ ys) = symbols.unseparated xs ++ symbols.unseparated ys := by
  rw [unseparated, List.filter_append, List.map_append]
  rfl

section Clear

variable {symbols : LocaleSymbols} (clear : Clear symbols) {ds : List Char}
  (digits : ∀ c ∈ ds, c.isDigit)

include clear

theorem unseparated_decimal : symbols.unseparated symbols.decimal = ['.'] := by
  obtain ⟨mark, single⟩ := List.length_eq_one_iff.1 clear.1
  obtain ⟨apart, -⟩ := clear.decimal mark (by rw [single]; exact List.mem_singleton_self mark)
  unfold unseparated
  rw [single]
  simp [apart]

include digits

theorem not_mem_group_of_digits : ∀ c ∈ ds, c ∉ symbols.group := by
  intro c m separates
  have digit := digits c m
  rw [(clear.group c separates).1] at digit
  cases digit

theorem map_mark_digits :
    (ds.map fun c => if [c] = symbols.decimal then '.' else c) = ds := by
  refine (List.map_congr_left fun c m => if_neg fun marks => ?_).trans (List.map_id ds)
  have digit := digits c m
  rw [(clear.decimal c (by rw [← marks]; exact List.mem_singleton_self c)).2.1] at digit
  cases digit

theorem unseparated_digits : symbols.unseparated ds = ds := by
  have kept := not_mem_group_of_digits clear digits
  unfold unseparated
  rw [List.filter_eq_self.2 (by simpa using kept), map_mark_digits clear digits]

/-- Without the separators the digits are as they were. -/
theorem filter_grouped : ((symbols.grouped ds).filter fun c => c ∉ symbols.group) = ds := by
  have kept := not_mem_group_of_digits clear digits
  unfold grouped
  split
  case isTrue => exact List.filter_eq_self.2 (by simpa using kept)
  case isFalse =>
    rw [filter_intercalate, flatten_groupDigits]
    · simp
    · rw [flatten_groupDigits]
      simpa using kept

theorem unseparated_grouped : symbols.unseparated (symbols.grouped ds) = ds := by
  rw [unseparated, filter_grouped clear digits, map_mark_digits clear digits]

end Clear

end LocaleSymbols

/-! ### Digits -/

/-- A number rounded to a whole one: it is at most one half away, and even if that is an exact
half. -/
structure RoundsToWhole (q : ℚ) (n : Nat) : Prop where
  half : |q - n| ≤ 1 / 2
  even : |q - n| = 1 / 2 → n % 2 = 0

/-- The digits of a number rounded to the greatest number of places. Zeros at the end are left out,
but not below the least number of places, and without places there is no point. -/
inductive FixedText (q : ℚ) (least greatest : Nat) : List Char → Prop where
  | mk {n : Nat} {fraction : List Char} (rounded : RoundsToWhole (q * 10 ^ greatest) n)
    (digits : ∀ c ∈ fraction, c.isDigit) (few : least ≤ fraction.length)
    (many : fraction.length ≤ greatest)
    (value : Number.ofDigits 10 fraction * 10 ^ (greatest - fraction.length) = n % 10 ^ greatest)
    (trimmed : least < fraction.length → fraction.getLast? ≠ some '0') :
    FixedText q least greatest
      (decimalDigits (n / 10 ^ greatest) ++ if fraction = [] then [] else '.' :: fraction)

theorem roundsToWhole_roundHalfEven (num : Nat) {den : Nat} (positive : 0 < den) :
    RoundsToWhole (num / den) (roundHalfEven num den) := by
  obtain ⟨low, high, tie⟩ := halfEven_roundHalfEven num positive
  generalize roundHalfEven num den = m at low high tie ⊢
  have positive' : (0 : ℚ) < den := Nat.cast_pos.2 positive
  have quotient : (num : ℚ) / den * den = num := div_mul_cancel₀ _ positive'.ne'
  have low' : 2 * (m * den : ℚ) ≤ 2 * num + den := by exact_mod_cast low
  have high' : 2 * (num : ℚ) ≤ 2 * (m * den) + den := by exact_mod_cast high
  generalize (num : ℚ) / den = q at quotient ⊢
  constructor
  case half =>
    rw [abs_le]
    constructor
    · nlinarith
    · nlinarith
  case even =>
    intro exact
    apply tie
    obtain above | below := (abs_eq (by norm_num)).1 exact
    · right
      have ends : 2 * (num : ℚ) = 2 * (m * den) + den := by
        rw [← quotient, eq_add_of_sub_eq above]
        ring
      exact_mod_cast ends
    · left
      have ends : 2 * (m * den : ℚ) = 2 * num + den := by
        rw [← quotient, eq_add_of_sub_eq below]
        ring
      exact_mod_cast ends

namespace Number

theorem ofDigits_lt {ds : List Char} (digits : ∀ c ∈ ds, c.isDigit) :
    ofDigits 10 ds < 10 ^ ds.length := by
  induction ds with
  | nil => decide
  | cons c ds ih =>
    obtain ⟨first, others⟩ := List.forall_mem_cons.1 digits
    have low := ih others
    have digit := digitValue_lt first
    rw [← List.singleton_append, ofDigits_append, ofDigits_singleton, List.length_append,
      List.length_singleton, Nat.pow_add, Nat.pow_one]
    nlinarith

/-- Digits without a needless zero in front are the decimal form of their number. -/
theorem eq_decimalDigits {ds : List Char} (nonempty : ds ≠ []) (digits : ∀ c ∈ ds, c.isDigit)
    (plain : ds.head? = some '0' → ds.length ≤ 1) : ds = decimalDigits (ofDigits 10 ds) := by
  obtain ⟨zeros, split⟩ := zeros_append_decimalDigits nonempty digits
  cases zeros with
  | zero => exact split
  | succ zeros =>
    have short := plain (by rw [split]; rfl)
    have more := List.length_pos_iff.2 (decimalDigits_ne_nil (ofDigits 10 ds))
    have length := congrArg List.length split
    rw [List.length_append, List.length_replicate] at length
    omega

theorem ofDigits_split (front : List Char) {back : List Char} (digits : ∀ c ∈ back, c.isDigit) :
    ofDigits 10 front = ofDigits 10 (front ++ back) / 10 ^ back.length ∧
      ofDigits 10 back = ofDigits 10 (front ++ back) % 10 ^ back.length := by
  have small := ofDigits_lt digits
  have positive : 0 < 10 ^ back.length := Nat.pow_pos (by decide)
  rw [ofDigits_append, Nat.mul_comm]
  constructor
  · rw [Nat.mul_add_div positive, Nat.div_eq_of_lt small, Nat.add_zero]
  · rw [Nat.mul_add_mod, Nat.mod_eq_of_lt small]

/-- Digits of a number, filled up with zeros in front to one more than so many places. -/
theorem padded_spec (n places : Nat) :
    let text := List.replicate (places + 1 - (decimalDigits n).length) '0' ++ decimalDigits n
    (∀ c ∈ text, c.isDigit) ∧ ofDigits 10 text = n ∧ places < text.length := by
  refine ⟨List.forall_mem_append.2 ⟨fun _ => isDigit_zeros, fun _ => isDigit_decimalDigits⟩, ?_,
    ?_⟩
  · rw [ofDigits_zeros_append, ofDigits_decimalDigits]
  · rw [List.length_append, List.length_replicate]
    omega

/-- A zero stands in front only of as many places. -/
theorem head?_padded (n places : Nat) :
    let text := List.replicate (places + 1 - (decimalDigits n).length) '0' ++ decimalDigits n
    text.head? = some '0' → text.length = places + 1 := by
  intro text zero
  have length : text.length = places + 1 - (decimalDigits n).length + (decimalDigits n).length := by
    rw [List.length_append, List.length_replicate]
  by_cases padded : places + 1 - (decimalDigits n).length = 0
  · have plain : text = decimalDigits n := by
      simp only [text, padded, List.replicate_zero, List.nil_append]
    have none : n = 0 := by
      by_contra some
      exact head?_decimalDigits (Nat.pos_of_ne_zero some) (plain ▸ zero)
    subst none
    have one : (decimalDigits 0).length = 1 := rfl
    omega
  · omega

end Number

namespace Double

/-- The digits of the rounded number before and after the point, as many after it as places. -/
theorem fixed_spec (places units : Nat) {whole fraction : List Char}
    (h : fixed places units = (whole, fraction)) :
    whole = decimalDigits (roundHalfEven (units * 10 ^ places) one / 10 ^ places) ∧
      (∀ c ∈ fraction, c.isDigit) ∧ fraction.length = places ∧
      Number.ofDigits 10 fraction = roundHalfEven (units * 10 ^ places) one % 10 ^ places := by
  unfold fixed at h
  dsimp only at h
  generalize roundHalfEven (units * 10 ^ places) one = n at h ⊢
  obtain ⟨digits, number, long⟩ := Number.padded_spec n places
  have plain := Number.head?_padded n places
  generalize List.replicate (places + 1 - (decimalDigits n).length) '0' ++ decimalDigits n = text
    at h digits number long plain
  rw [List.splitAt_eq] at h
  cases h
  have back : (text.drop (text.length - places)).length = places := by
    rw [List.length_drop]
    omega
  have front : (text.take (text.length - places)).length = text.length - places := by
    rw [List.length_take]
    omega
  have digits' : ∀ c ∈ text.drop (text.length - places), c.isDigit :=
    fun c m => digits c (List.mem_of_mem_drop m)
  obtain ⟨above, below⟩ := Number.ofDigits_split (text.take (text.length - places)) digits'
  rw [List.take_append_drop, number, back] at above below
  refine ⟨?_, digits', back, below⟩
  rw [← above]
  apply Number.eq_decimalDigits
  case nonempty =>
    refine List.length_pos_iff.1 ?_
    omega
  case digits => exact fun c m => digits c (List.mem_of_mem_take m)
  case plain =>
    intro zero
    rw [List.head?_take, if_neg (by omega)] at zero
    have short := plain zero
    omega

end Double

namespace NumberFormat

theorem trimFraction_spec {least : Nat} {fraction : List Char} (few : least ≤ fraction.length) :
    least ≤ (trimFraction least fraction).length ∧
      (least < (trimFraction least fraction).length →
        (trimFraction least fraction).getLast? ≠ some '0') ∧
      ∃ k, trimFraction least fraction ++ List.replicate k '0' = fraction := by
  have kept : (fraction.take least).length = least := by
    rw [List.length_take]
    omega
  have cut := dropTailWhile_append (· == '0') (fraction.drop least)
  unfold trimFraction
  refine ⟨?_, ?_, ?_⟩
  · rw [List.length_append]
    omega
  · intro more zero
    rw [List.length_append, kept] at more
    have nonempty : dropTailWhile (· == '0') (fraction.drop least) ≠ [] := by
      refine List.length_pos_iff.1 ?_
      omega
    rw [List.getLast?_append_of_ne_nil _ nonempty] at zero
    have other : ('0' == '0') = false := not_of_mem_getLast?_dropTailWhile (p := (· == '0')) zero
    cases other
  · refine ⟨((fraction.drop least).reverse.takeWhile (· == '0')).length, ?_⟩
    have zeros : ((fraction.drop least).reverse.takeWhile (· == '0')).reverse =
        List.replicate ((fraction.drop least).reverse.takeWhile (· == '0')).length '0' := by
      rw [List.eq_replicate_iff, List.length_reverse]
      refine ⟨rfl, fun c m => ?_⟩
      exact eq_of_beq (List.all_eq_true.1 List.all_takeWhile c (List.mem_reverse.1 m))
    rw [← zeros, List.append_assoc, cut, List.take_append_drop]

theorem Resolved.clear {f : NumberFormat} (h : Resolved f) : f.symbols.Clear := by
  rw [h.symbols]
  exact LocaleSymbols.clear_ofTag _

/-- The digits of a rounded number, without the zeros at their end that are not needed. -/
theorem fixedText_fixed {least places units : Nat} {whole fraction : List Char}
    (h : Double.fixed places units = (whole, fraction)) (ordered : least ≤ places) :
    (∀ c ∈ whole, c.isDigit) ∧ (∀ c ∈ trimFraction least fraction, c.isDigit) ∧
      FixedText (units / Double.one) least places (whole ++
        if trimFraction least fraction = [] then [] else '.' :: trimFraction least fraction) := by
  obtain ⟨front, numerals, length, value⟩ := Double.fixed_spec _ _ h
  have rounded := roundsToWhole_roundHalfEven (units * 10 ^ places) Double.one_pos
  have scaled : ((units * 10 ^ places : ℕ) : ℚ) / Double.one =
      units / Double.one * 10 ^ places := by
    push_cast
    ring
  rw [scaled] at rounded
  generalize roundHalfEven (units * 10 ^ places) Double.one = n at front value rounded
  obtain ⟨few, trimmed, zeros, cut⟩ := trimFraction_spec (length ▸ ordered)
  generalize trimFraction least fraction = kept at few trimmed cut ⊢
  rw [← cut] at numerals length value
  rw [List.length_append, List.length_replicate] at length
  rw [Number.ofDigits_append, Number.ofDigits_replicate, Nat.add_zero, List.length_replicate]
    at value
  have numerals' : ∀ c ∈ kept, c.isDigit := fun c m => numerals c (List.mem_append_left _ m)
  rw [front]
  exact ⟨fun _ => isDigit_decimalDigits, numerals', .mk rounded numerals' few (by omega)
    (by rw [← value, ← length, Nat.add_sub_cancel_left]) trimmed⟩

theorem fixedText_finiteText {f : NumberFormat} (clear : f.symbols.Clear)
    (ordered : f.minimumDigits ≤ f.maximumDigits) (units : Nat) :
    FixedText (units / Double.one) f.minimumDigits f.maximumDigits
      (f.symbols.unseparated (f.finiteText units)) := by
  obtain ⟨⟨whole, fraction⟩, digits⟩ :
      ∃ digits, Double.fixed f.maximumDigits units = digits := ⟨_, rfl⟩
  obtain ⟨numerals, numerals', text⟩ := fixedText_fixed digits ordered
  have wholes : f.symbols.unseparated (if f.useGrouping then f.symbols.grouped whole else whole) =
      whole := by
    split
    · exact LocaleSymbols.unseparated_grouped clear numerals
    · exact LocaleSymbols.unseparated_digits clear numerals
  unfold finiteText
  rw [digits]
  dsimp only
  generalize trimFraction f.minimumDigits fraction = kept at numerals' text ⊢
  cases kept with
  | nil =>
    rw [if_pos rfl, List.append_nil] at text
    rwa [wholes]
  | cons c kept =>
    rw [if_neg (List.cons_ne_nil _ _)] at text
    dsimp only
    rw [LocaleSymbols.unseparated_append, LocaleSymbols.unseparated_append, wholes,
      LocaleSymbols.unseparated_decimal clear, LocaleSymbols.unseparated_digits clear numerals',
      List.append_assoc]
    exact text

/-! ### Signs and symbols -/

theorem hyphen_not_mem_of_fixedText {q : ℚ} {least greatest : Nat} {text : List Char}
    (h : FixedText q least greatest text) : '-' ∉ text := by
  obtain ⟨-, digits, -, -, -, -⟩ := h
  intro m
  obtain whole | fraction := List.mem_append.1 m
  · cases isDigit_decimalDigits whole
  · split at fraction
    · cases fraction
    · obtain point | digit := List.mem_cons.1 fraction
      · cases point
      · cases digits _ digit

theorem hyphen_not_mem_finiteText {f : NumberFormat} (h : Resolved f) (units : Nat) :
    '-' ∉ f.finiteText units := by
  have clear := h.clear
  intro m
  refine hyphen_not_mem_of_fixedText (fixedText_finiteText clear h.ordered units)
    (List.mem_map.2 ⟨'-', List.mem_filter.2 ⟨m, ?_⟩, ?_⟩)
  · refine decide_eq_true fun separates => (clear.group _ separates).2 rfl
  · refine if_neg fun marks => (clear.decimal '-' ?_).2.2 rfl
    rw [← marks]
    exact List.mem_singleton_self _

/-- What a style shows a number as: alone, or with a currency symbol before or after it and a space
or nothing between. -/
inductive Shows (placement : CurrencyPlacement) (number : List Char) :
    NumberStyle → List Char → Prop where
  | decimal : Shows placement number .decimal number
  | before {symbol : String} {spacing : List Char} (front : placement ≠ .after)
    (blank : spacing = [] ∨ spacing = LocaleSymbols.noBreakSpace) :
    Shows placement number (.currency symbol) (symbol.toList ++ (spacing ++ number))
  | after {symbol : String} (back : placement = .after) :
    Shows placement number (.currency symbol)
      (number ++ (LocaleSymbols.noBreakSpace ++ symbol.toList))

theorem shows_placeCurrency (placement : CurrencyPlacement) (symbol : String)
    (number : List Char) : Shows placement number (.currency symbol)
      (placeCurrency placement symbol.toList number) := by
  cases placement with
  | before =>
    rw [placeCurrency]
    split
    · rw [List.append_assoc]
      exact .before nofun (.inr rfl)
    · have close : Shows .before number (.currency symbol) (symbol.toList ++ ([] ++ number)) :=
        .before nofun (.inl rfl)
      exact close
  | beforeSpaced =>
    rw [placeCurrency, List.append_assoc]
    exact .before nofun (.inr rfl)
  | after =>
    rw [placeCurrency, List.append_assoc]
    exact .after rfl

theorem Shows.hyphen_not_mem {placement : CurrencyPlacement} {number shown : List Char}
    {style : NumberStyle} (h : Shows placement number style shown) (plain : '-' ∉ number)
    (plain' : ∀ symbol, style = .currency symbol → '-' ∉ symbol.toList) : '-' ∉ shown := by
  have space : '-' ∉ LocaleSymbols.noBreakSpace := by decide
  cases h with
  | decimal => exact plain
  | @before symbol spacing front blank =>
    have spaces : '-' ∉ spacing := by
      obtain rfl | rfl := blank
      · exact List.not_mem_nil
      · exact space
    simp [plain' symbol rfl, spaces, plain]
  | @after symbol back => simp [plain' symbol rfl, space, plain]

theorem format_finite {f : NumberFormat} (style : f.style ≠ .percent) (negative : Bool)
    {units : Nat} (fits : Representable units) :
    ∃ shown, f.format (.finite negative units fits) = (if negative then ['-'] else []) ++ shown ∧
      Shows f.symbols.currency (f.finiteText units) f.style shown := by
  refine ⟨_, rfl, ?_⟩
  split
  case h_1 decimal =>
    rw [decimal]
    exact .decimal
  case h_2 percent => exact absurd percent style
  case h_3 symbol currency =>
    rw [currency]
    exact shows_placeCurrency _ _ _

/-- Formatted numbers keep their value. The resolved places are ordered and at most 100, and what a
number is formatted as in the decimal or a currency style is a sign, the symbol of the currency with
a space or nothing, and a text that is the rounded number once its separators are taken out. -/
theorem formatted_numbers_keep_value {locale : String} {o : NumberFormatOptions} {f : NumberFormat}
    (accepted : resolve locale o = .ok f) :
    f.minimumDigits ≤ f.maximumDigits ∧ f.maximumDigits ≤ 100 ∧
      ∀ (negative : Bool) (units : Nat) (fits : Representable units), f.style ≠ .percent →
        (∃ number shown,
          f.format (.finite negative units fits) = (if negative then ['-'] else []) ++ shown ∧
          Shows f.symbols.currency number f.style shown ∧
          FixedText (units / Double.one) f.minimumDigits f.maximumDigits
            (f.symbols.unseparated number)) ∧
        ('-' ∈ f.format (.finite negative units fits) ↔ negative) := by
  have resolved := resolved_of_resolve accepted
  refine ⟨resolved.ordered, resolved.bounded, ?_⟩
  intro negative units fits style
  obtain ⟨shown, text, shows⟩ := format_finite style negative fits
  refine ⟨⟨f.finiteText units, shown, text, shows,
    fixedText_finiteText resolved.clear resolved.ordered units⟩, ?_⟩
  have plain := shows.hyphen_not_mem (hyphen_not_mem_finiteText resolved units) resolved.plain
  rw [text]
  cases negative <;> simp [plain]

/-- Minus one euro, as Germans write it. -/
theorem formatted_numbers_keep_value_euro :
    ∃ f, resolve "de" { style := some "currency", currency := some "eur" } = .ok f ∧
      f.minimumDigits = 2 ∧ f.maximumDigits = 2 ∧
      ∃ number shown, f.format (.ofInt (-1)) = '-' :: shown ∧
        Shows .after number (.currency "€") shown ∧ FixedText 1 2 2 (f.symbols.unseparated number)
    := by
  have parsed : LanguageTag.parse "de" = .ok ⟨['d', 'e'], none, none, []⟩ :=
    LanguageTag.parse_language ⟨List.all_eq_true.1 rfl, .inl rfl⟩
  have accepted : resolve "de" { style := some "currency", currency := some "eur" } =
      .ok ⟨⟨['d', 'e'], none, none, []⟩,
        ⟨[','], ['.'], .after, LocaleSymbols.noBreakSpace, .threes, 4⟩, .currency "€", 2, 2,
        true⟩ := by
    rw [resolve, parsed]
    rfl
  obtain ⟨-, -, keeps⟩ := formatted_numbers_keep_value accepted
  have minus := Double.ofInt_eq (n := -1) (by decide)
  obtain ⟨⟨number, shown, text, shows, digits⟩, -⟩ := keeps _ _
    (Double.representable_whole (n := (-1 : Int).natAbs) (by decide)) NumberStyle.noConfusion
  have one : (((-1 : Int).natAbs * Double.one : ℕ) : ℚ) / Double.one = 1 := by
    have whole : (-1 : Int).natAbs = 1 := rfl
    rw [whole, Nat.one_mul, div_self (Nat.cast_ne_zero.2 Double.one_pos.ne')]
  rw [one] at digits
  refine ⟨_, accepted, rfl, rfl, number, shown, ?_, shows, digits⟩
  rw [minus, text]
  rfl

end NumberFormat
end ScriptBridge
