import ScriptBridge.Number.Literal
import ScriptBridge.Number.Text
import ScriptBridge.Proofs.ShortestDigits

/-!
Numbers as scripts write them: what is written for a finite number is a literal that documents may
have, and it reads back as the number.
-/

namespace ScriptBridge

/-! ### Digits -/

theorem isDigit_decimalDigits {n : Nat} {c : Char} (mem : c ∈ decimalDigits n) : c.isDigit :=
  Nat.isDigit_of_mem_toDigits (by decide) (by decide) mem

theorem decimalDigits_ne_nil (n : Nat) : decimalDigits n ≠ [] := Nat.toDigits_ne_nil

/-- No needless zero stands in front. -/
theorem head?_decimalDigits {n : Nat} (positive : 0 < n) : (decimalDigits n).head? ≠ some '0' := by
  induction n using Nat.strongRecOn with
  | ind n ih =>
    by_cases small : n < 10
    · have digit : ∀ n < 10, 0 < n → [n.digitChar].head? ≠ some '0' := by decide
      unfold decimalDigits
      rw [Nat.toDigits_of_lt_base small]
      exact digit n small positive
    · have front := ih (n / 10) (by omega) (by omega)
      unfold decimalDigits at front ⊢
      rw [Nat.toDigits_of_base_le (by decide) (by omega), List.head?_append]
      rwa [Option.or_of_isSome (by simp [List.isSome_head?, Nat.toDigits_ne_nil])]

namespace Number

theorem digitValue_of_isDigit {c : Char} (h : c.isDigit) : digitValue c = c.toNat - '0'.toNat := by
  rw [digitValue, if_pos h]

theorem digitValue_lt {c : Char} (h : c.isDigit) : digitValue c < 10 := by
  obtain ⟨low, high⟩ := Char.isDigit_iff_toNat.1 h
  rw [digitValue_of_isDigit h]
  change c.toNat ≤ 57 at high
  change c.toNat - 48 < 10
  omega

theorem foldl_digits (start : Nat) (ds : List Char) :
    ds.foldl (fun n c => n * 10 + digitValue c) start =
      start * 10 ^ ds.length + ofDigits 10 ds := by
  induction ds generalizing start with
  | nil => simp [ofDigits]
  | cons c ds ih =>
    rw [ofDigits, List.foldl_cons, List.foldl_cons, ih, ih (0 * 10 + _), List.length_cons,
      Nat.pow_add]
    ring

theorem ofDigits_append (a b : List Char) :
    ofDigits 10 (a ++ b) = ofDigits 10 a * 10 ^ b.length + ofDigits 10 b := by
  rw [ofDigits, List.foldl_append, foldl_digits]
  rfl

theorem ofDigits_replicate (n : Nat) : ofDigits 10 (List.replicate n '0') = 0 := by
  induction n with
  | zero => rfl
  | succ n ih =>
    rw [List.replicate_succ', ofDigits_append, ih]
    rfl

/-- Zeros in front do not count. -/
theorem ofDigits_zeros_append (k : Nat) (ds : List Char) :
    ofDigits 10 (List.replicate k '0' ++ ds) = ofDigits 10 ds := by
  rw [ofDigits_append, ofDigits_replicate, Nat.zero_mul, Nat.zero_add]

theorem isDigit_zeros {k : Nat} {c : Char} (mem : c ∈ List.replicate k '0') : c.isDigit := by
  rw [List.eq_of_mem_replicate mem]
  rfl

theorem ofDigits_decimalDigits (n : Nat) : ofDigits 10 (decimalDigits n) = n := by
  have digits (ds : List Char) (all : ∀ c ∈ ds, c.isDigit) (start : Nat) :
      ds.foldl (fun n c => n * 10 + digitValue c) start = Nat.ofDigitChars 10 ds start := by
    induction ds generalizing start with
    | nil => rfl
    | cons c ds ih =>
      obtain ⟨first, others⟩ := List.forall_mem_cons.1 all
      rw [List.foldl_cons, Nat.ofDigitChars_cons, digitValue_of_isDigit first, Nat.mul_comm]
      exact ih others _
  rw [ofDigits, digits _ fun c => isDigit_decimalDigits]
  exact Nat.ofDigitChars_toDigits (by decide) (by decide)

theorem allDigits_decimalDigits (n : Nat) : allDigits 10 (decimalDigits n) := by
  simp only [allDigits, Bool.and_eq_true, Bool.not_eq_true', List.isEmpty_eq_false_iff,
    List.all_eq_true, decide_eq_true_eq]
  exact ⟨decimalDigits_ne_nil n, fun c mem => digitValue_lt (isDigit_decimalDigits mem)⟩

/-! ### Reading literals -/

/-- Nothing that continues digits. -/
def Stops (rest : List Char) : Prop := ∀ c ∈ rest.head?, c.isDigit = false

theorem takeWhile_digits {ds rest : List Char} (all : ∀ c ∈ ds, c.isDigit) (stops : Stops rest) :
    (ds ++ rest).takeWhile Char.isDigit = ds ∧ (ds ++ rest).dropWhile Char.isDigit = rest := by
  rw [List.takeWhile_append_of_pos all, List.dropWhile_append_of_pos all]
  cases rest with
  | nil => simp
  | cons c rest =>
    have stop : c.isDigit = false := stops c rfl
    simp [stop]

theorem exponent?_exponentText (e : Int) : exponent? (exponentText e) = some e := by
  have all := allDigits_decimalDigits e.natAbs
  unfold exponentText exponent?
  simp only [true_or, if_true]
  split <;> rename_i sign
  · simp only [splitSign, all, if_true, ofDigits_decimalDigits]
    congr 1
    omega
  · simp only [splitSign, all, if_true, ofDigits_decimalDigits]
    congr 1
    simp
    omega

theorem decimal?_whole {ds rest : List Char} {e : Int} (all : ∀ c ∈ ds, c.isDigit)
    (nonempty : ds ≠ []) (stops : Stops rest) (noPoint : ∀ more, rest ≠ '.' :: more)
    (exponent : exponent? rest = some e) :
    decimal? (ds ++ rest) = some ⟨ofDigits 10 ds, e⟩ := by
  obtain ⟨front, back⟩ := takeWhile_digits all stops
  unfold decimal?
  simp only [front, back]
  simp [nonempty, exponent]

theorem decimal?_point {ds places rest : List Char} {e : Int} (all : ∀ c ∈ ds, c.isDigit)
    (nonempty : ds ++ places ≠ []) (allPlaces : ∀ c ∈ places, c.isDigit) (stops : Stops rest)
    (exponent : exponent? rest = some e) :
    decimal? (ds ++ '.' :: (places ++ rest)) =
      some ⟨ofDigits 10 (ds ++ places), e - places.length⟩ := by
  have point : Stops ('.' :: (places ++ rest)) := by
    intro c here
    cases here
    rfl
  obtain ⟨front, back⟩ := takeWhile_digits all point
  obtain ⟨front', back'⟩ := takeWhile_digits allPlaces stops
  unfold decimal?
  simp only [front, back, front', back']
  rw [if_neg (by simpa [List.append_eq_nil_iff] using nonempty), exponent]
  rfl

/-! ### Numbers in documents -/

/-- The part of a number literal from the point on: nothing, or a point and digits. -/
inductive FractionText : List Char → Prop where
  | none : FractionText []
  | some {ds : List Char} (nonempty : ds ≠ []) (all : ∀ c ∈ ds, c.isDigit) :
    FractionText ('.' :: ds)

/-- The exponent of a number literal: nothing, or a mark, a sign that may be missing, and digits. -/
inductive ExponentText : List Char → Prop where
  | none : ExponentText []
  | some (mark : Char) (sign : List Char) {ds : List Char} (marks : mark = 'e' ∨ mark = 'E')
    (signs : sign = [] ∨ sign = ['+'] ∨ sign = ['-']) (nonempty : ds ≠ [])
    (all : ∀ c ∈ ds, c.isDigit) : ExponentText (mark :: (sign ++ ds))

/-- A number as documents may have it: a minus sign or none, digits without a needless zero in
front, a fraction and an exponent. -/
inductive Literal : List Char → Prop where
  | mk (negative : Bool) {whole fraction exponent : List Char} (nonempty : whole ≠ [])
    (all : ∀ c ∈ whole, c.isDigit) (front : whole.head? = some '0' → whole = ['0'])
    (fractions : FractionText fraction) (exponents : ExponentText exponent) :
    Literal (signed negative (whole ++ (fraction ++ exponent)))

theorem exponentText_exponentText (e : Int) : ExponentText (exponentText e) := by
  have nonempty := decimalDigits_ne_nil e.natAbs
  unfold exponentText
  split
  · exact .some 'e' ['-'] (.inl rfl) (.inr (.inr rfl)) nonempty fun _ => isDigit_decimalDigits
  · exact .some 'e' ['+'] (.inl rfl) (.inr (.inl rfl)) nonempty fun _ => isDigit_decimalDigits

theorem stops_exponentText (e : Int) : Stops (exponentText e) := by
  intro c here
  cases here
  rfl

theorem stops_nil : Stops [] := nofun

/-- A text is a literal with or without a sign, and reads as a significand, with some of its zeros,
and an exponent. -/
structure Reads (text : List Char) (n : Nat) (e : Int) : Prop where
  literal : ∀ negative, Literal (signed negative text)
  decimal : ∃ k : Nat, decimal? text = some ⟨n * 10 ^ k, e - k⟩

variable {ds places : List Char} {e : Int}

theorem reads_zeros (nonempty : ds ≠ []) (all : ∀ c ∈ ds, c.isDigit) (front : ds.head? ≠ some '0')
    (k : Nat) : Reads (ds ++ List.replicate k '0') (ofDigits 10 ds) k := by
  have all' : ∀ c ∈ ds ++ List.replicate k '0', c.isDigit :=
    List.forall_mem_append.2 ⟨all, fun _ => isDigit_zeros⟩
  have nonempty' : ds ++ List.replicate k '0' ≠ [] := List.append_ne_nil_of_left_ne_nil nonempty _
  constructor
  · intro negative
    have literal := Literal.mk negative nonempty' all' (fun zero => ?_) .none .none
    · simpa using literal
    · cases ds with
      | nil => exact absurd rfl nonempty
      | cons => exact absurd zero front
  · have read := decimal?_whole all' nonempty' stops_nil (fun _ => nofun) (e := 0) rfl
    rw [List.append_nil] at read
    refine ⟨k, read.trans ?_⟩
    rw [ofDigits_append, ofDigits_replicate, List.length_replicate, Int.sub_self, Nat.add_zero]

theorem reads_point (nonempty : ds ≠ []) (all : ∀ c ∈ ds, c.isDigit)
    (front : ds.head? = some '0' → ds = ['0']) (nonempty' : places ≠ [])
    (all' : ∀ c ∈ places, c.isDigit) {rest : List Char} (stops : Stops rest)
    (exponent : exponent? rest = some e) (exponents : ExponentText rest) :
    Reads (ds ++ '.' :: (places ++ rest)) (ofDigits 10 (ds ++ places)) (e - places.length) := by
  constructor
  · intro negative
    exact .mk negative nonempty all front (.some nonempty' all') exponents
  · have some : ds ++ places ≠ [] := List.append_ne_nil_of_left_ne_nil nonempty _
    exact ⟨0, by simpa using decimal?_point all some all' stops exponent⟩

theorem reads_whole (nonempty : ds ≠ []) (all : ∀ c ∈ ds, c.isDigit)
    (front : ds.head? = some '0' → ds = ['0']) {rest : List Char} (stops : Stops rest)
    (noPoint : ∀ more, rest ≠ '.' :: more) (exponent : exponent? rest = some e)
    (exponents : ExponentText rest) : Reads (ds ++ rest) (ofDigits 10 ds) e := by
  constructor
  · intro negative
    exact .mk negative nonempty all front .none exponents
  · exact ⟨0, by simpa using decimal?_whole all nonempty stops noPoint exponent⟩

/-! ### Forms of a text -/

/-- The number `ds * 10 ^ e` with zeros behind the digits, a point between them, or zeros in
front. -/
inductive Positional (ds : List Char) : Int → List Char → Prop where
  | whole (k : Nat) : Positional ds k (ds ++ List.replicate k '0')
  | inside {front back : List Char} (parts : front ++ back = ds) (left : front ≠ [])
    (right : back ≠ []) : Positional ds (-back.length) (front ++ '.' :: back)
  | behind (k : Nat) : Positional ds (-(k + ds.length)) ('0' :: '.' :: List.replicate k '0' ++ ds)

/-- The number `ds * 10 ^ e` with its first digit before the point, and the power of ten of that
digit. -/
inductive Exponential : List Char → Int → List Char → Prop where
  | one (c : Char) (e : Int) : Exponential [c] e (c :: exponentText e)
  | more (c : Char) {rest : List Char} (others : rest ≠ []) (e : Int) :
    Exponential (c :: rest) e (c :: '.' :: rest ++ exponentText (e + rest.length))

theorem layout_positional {ds : List Char} {e : Int} (low : -6 < e + ds.length)
    (high : e + ds.length ≤ 21) (nonempty : ds ≠ []) :
    Positional ds e (layout ds (e + ds.length)) := by
  unfold layout
  split
  · obtain ⟨k, rfl⟩ : ∃ k : Nat, e = k := ⟨e.toNat, by omega⟩
    have zeros : ((k : Int) + ds.length - ds.length).toNat = k := by omega
    rw [zeros]
    exact .whole k
  · split
    · rename_i long inside
      obtain ⟨p, point⟩ : ∃ p : Nat, e + ds.length = p := ⟨(e + ds.length).toNat, by omega⟩
      have short : 0 < p ∧ p < ds.length := by omega
      have places : e = -((ds.drop p).length : Int) := by
        rw [List.length_drop]
        omega
      rw [point, Int.toNat_natCast, places]
      refine .inside (List.take_append_drop p ds) ?_ (by simpa using short.2)
      simpa [nonempty] using short.1.ne'
    · obtain ⟨k, point⟩ : ∃ k : Nat, e + ds.length = -k := ⟨(-(e + ds.length)).toNat, by omega⟩
      have places : e = -(k + ds.length) := by omega
      rw [if_pos (by omega), point, Int.neg_neg, Int.toNat_natCast, places]
      exact .behind k

theorem layout_exponential {ds : List Char} {e : Int}
    (outside : e + ds.length ≤ -6 ∨ 21 < e + ds.length) (nonempty : ds ≠ []) :
    Exponential ds e (layout ds (e + ds.length)) := by
  unfold layout
  rw [if_neg (by omega), if_neg (by omega), if_neg (by omega)]
  obtain ⟨c, rest, rfl⟩ := List.exists_cons_of_ne_nil nonempty
  have first : e + ((c :: rest).length : Int) - 1 = e + rest.length := by
    rw [List.length_cons]
    omega
  rw [first]
  cases rest with
  | nil =>
    rw [List.length_nil, Int.ofNat_zero, Int.add_zero]
    exact .one c e
  | cons d rest => exact .more c (List.cons_ne_nil d rest) e

variable {text : List Char}

/-- Digits around a point are a number literal, and read as what they are. -/
theorem Positional.reads (h : Positional ds e text) (nonempty : ds ≠ [])
    (all : ∀ c ∈ ds, c.isDigit) (front : ds.head? ≠ some '0') : Reads text (ofDigits 10 ds) e := by
  cases h with
  | whole k => exact reads_zeros nonempty all front k
  | @inside front' back parts left right =>
    subst parts
    obtain ⟨first, others⟩ := List.forall_mem_append.1 all
    have lead : front'.head? ≠ some '0' := fun zero =>
      front (by rw [List.head?_append, zero, Option.some_or])
    have reads := reads_point left first (fun zero => absurd zero lead) right others stops_nil
      rfl .none
    rwa [List.append_nil, Int.zero_sub] at reads
  | behind k =>
    have reads := reads_point (List.cons_ne_nil '0' []) (List.forall_mem_singleton.2 rfl)
      (fun _ => rfl) (List.append_ne_nil_of_right_ne_nil (List.replicate k '0') nonempty)
      (List.forall_mem_append.2 ⟨fun _ => isDigit_zeros, all⟩) stops_nil rfl .none
    have value : ofDigits 10 (['0'] ++ (List.replicate k '0' ++ ds)) = ofDigits 10 ds := by
      have zero : ofDigits 10 ['0'] = 0 := rfl
      rw [ofDigits_append, ofDigits_zeros_append, zero, Nat.zero_mul, Nat.zero_add]
    rw [value, List.append_nil, List.length_append, List.length_replicate, Int.zero_sub] at reads
    exact reads

theorem Exponential.reads (h : Exponential ds e text) (all : ∀ c ∈ ds, c.isDigit) :
    Reads text (ofDigits 10 ds) e := by
  cases h with
  | one c e =>
    exact reads_whole (List.cons_ne_nil c []) all (fun zero => congrArg ([·]) (Option.some.inj zero))
      (stops_exponentText e) (fun _ => nofun) (exponent?_exponentText e)
      (exponentText_exponentText e)
  | @more c rest others e =>
    obtain ⟨first, places⟩ := List.forall_mem_cons.1 all
    have reads := reads_point (List.cons_ne_nil c []) (List.forall_mem_singleton.2 first)
      (fun zero => congrArg ([·]) (Option.some.inj zero)) others places
      (stops_exponentText (e + rest.length)) (exponent?_exponentText _)
      (exponentText_exponentText _)
    rwa [Int.add_sub_cancel] at reads

/-- However digits are laid out, they are a number literal and read as what they are. -/
theorem reads_layout (nonempty : ds ≠ []) (all : ∀ c ∈ ds, c.isDigit)
    (front : ds.head? ≠ some '0') (e : Int) :
    Reads (layout ds (e + ds.length)) (ofDigits 10 ds) e := by
  by_cases moderate : -6 < e + ds.length ∧ e + ds.length ≤ 21
  · exact (layout_positional moderate.1 moderate.2 nonempty).reads nonempty all front
  · exact (layout_exponential (by omega) nonempty).reads all

/-! ### Doubles -/

theorem real?_signed {text : List Char} {d : Decimal} (reads : decimal? text = some d)
    (negative : Bool) : real? (signed negative text) = some (d.toDouble negative) := by
  have split : splitSign (signed negative text) = (negative, text) := by
    cases negative with
    | true => rfl
    | false =>
      change splitSign text = (false, text)
      unfold splitSign
      split
      · cases reads
      · cases reads
      · rfl
  rw [real?, split]
  simp only [reads]
  rfl

/-- What a script writes for a finite number is a number literal and reads as the number, but for
the sign of a zero. -/
theorem scriptText_reads {d : Double} (finite : d.isFinite) (sign : d.isNegativeZero = false) :
    Literal (scriptText d) ∧ real? (scriptText d) = some d := by
  cases d with
  | nan | infinity => cases finite
  | finite negative units fits =>
    by_cases zero : units = 0
    · subst zero
      obtain rfl : negative = false := by
        cases negative with
        | true => cases sign
        | false => rfl
      refine ⟨?_, rfl⟩
      exact .mk false (List.cons_ne_nil '0' []) (List.forall_mem_singleton.2 rfl) (fun _ => rfl)
        .none .none
    · have positive := Nat.pos_of_ne_zero zero
      have near := Double.near_shortest positive
      obtain ⟨least, most⟩ := near.bounds fits positive (Decimal.den_pos _)
      have nonzero := (Decimal.top_bounds least most).1
      obtain ⟨literal, k, reads⟩ := reads_layout (decimalDigits_ne_nil _)
        (fun c => isDigit_decimalDigits) (head?_decimalDigits (Nat.pos_of_ne_zero nonzero))
        (Double.shortest units).exponent
      rw [scriptText, if_neg zero]
      refine ⟨literal negative, (real?_signed reads negative).trans ?_⟩
      have same := Decimal.same_of_zeros (Double.shortest units).significand k
        ((Double.shortest units).exponent - k)
      rw [Int.sub_add_cancel] at same
      rw [ofDigits_decimalDigits, Decimal.toDouble_of_same_shortest same.symm fits positive]

end Number
end ScriptBridge
