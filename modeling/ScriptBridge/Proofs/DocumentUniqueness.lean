import ScriptBridge.Proofs.DocumentTexts

/-!
Which document a text denotes is settled by the text: it denotes at most one.
-/

namespace ScriptBridge

/-! ### Texts of plain characters -/

namespace Utf16

theorem ofChars_injective {cs ds : List Char} (h : ofChars cs = ofChars ds) : cs = ds := by
  have chars := congrArg toChars? h
  rw [toChars?_ofChars, toChars?_ofChars] at chars
  exact Option.some.inj chars

theorem length_ofChars {cs : List Char} (small : ∀ c ∈ cs, c.toNat < 0x10000) :
    (ofChars cs).length = cs.length := by
  induction cs with
  | nil => rfl
  | cons c cs ih =>
    obtain ⟨first, others⟩ := List.forall_mem_cons.1 small
    have one : ofChar c = [UInt16.ofNat c.toNat] := by
      rw [ofChar]
      exact if_pos first
    rw [ofChars, List.flatMap_cons, ← ofChars, one, List.singleton_append, List.length_cons,
      List.length_cons, ih others]

end Utf16

namespace Number

theorem toNat_lt_of_digitValue_lt {c : Char} (h : digitValue c < 16) : c.toNat < 0x10000 := by
  have small {top : Char} (le : c ≤ top) (bound : top.toNat < 0x10000) : c.toNat < 0x10000 :=
    Nat.lt_of_le_of_lt le bound
  unfold digitValue at h
  split at h
  · rename_i digit
    exact Nat.lt_of_le_of_lt (Char.isDigit_iff_toNat.1 digit).2 (by decide)
  · split at h
    · exact small (‹_ ∧ _›).2 (by decide)
    · split at h
      · exact small (‹_ ∧ _›).2 (by decide)
      · omega

/-- The code units that number literals are made of. -/
def isNumeral (u : UInt16) : Bool :=
  (0x30 ≤ u && u ≤ 0x39) || u == 0x2e || u == 0x65 || u == 0x45 || u == 0x2b || u == 0x2d

/-- Whether every unit of the text can stand in a number literal. -/
def allNumeral (cs : List Char) : Bool := (Utf16.ofChars cs).all isNumeral

theorem numerals_append {cs ds : List Char} :
    allNumeral (cs ++ ds) ↔ allNumeral cs ∧ allNumeral ds := by
  rw [allNumeral, PropertyKey.ofChars_append, List.all_append, Bool.and_eq_true]
  exact .rfl

theorem numerals_cons {c : Char} {cs : List Char} (first : allNumeral [c]) (rest : allNumeral cs) :
    allNumeral (c :: cs) := numerals_append.2 ⟨first, rest⟩

theorem numerals_digits {ds : List Char} (all : ∀ c ∈ ds, c.isDigit) : allNumeral ds := by
  refine List.all_eq_true.2 fun u mem => ?_
  obtain ⟨c, mem, inside⟩ := List.mem_flatMap.1 mem
  obtain ⟨low, high⟩ := Char.isDigit_iff_toNat.1 (all c mem)
  change 48 ≤ c.toNat at low
  change c.toNat ≤ 57 at high
  rw [Utf16.ofChar, if_pos (by omega), List.mem_singleton] at inside
  have unit : u.toNat = c.toNat := by
    rw [inside, UInt16.toNat_ofNat']
    omega
  have digit : 0x30 ≤ u ∧ u ≤ 0x39 := by
    rw [UInt16.le_iff_toNat_le, UInt16.le_iff_toNat_le, unit]
    exact ⟨low, high⟩
  simp only [isNumeral, digit, decide_true, Bool.and_self, Bool.true_or]

theorem FractionText.numerals {cs : List Char} (h : FractionText cs) : allNumeral cs := by
  cases h with
  | none => rfl
  | some _ all => exact numerals_cons (by decide) (numerals_digits all)

theorem ExponentText.numerals {cs : List Char} (h : ExponentText cs) : allNumeral cs := by
  cases h with
  | none => rfl
  | some mark sign marks signs _ all =>
    have marked : allNumeral [mark] := by obtain rfl | rfl := marks <;> decide
    have signed : allNumeral sign := by obtain rfl | rfl | rfl := signs <;> decide
    exact numerals_cons marked (numerals_append.2 ⟨signed, numerals_digits all⟩)

theorem Literal.numerals {cs : List Char} (h : Literal cs) : allNumeral cs := by
  obtain ⟨negative, -, all, -, fractions, exponents⟩ := h
  have unsigned := numerals_append.2 ⟨numerals_digits all,
    numerals_append.2 ⟨fractions.numerals, exponents.numerals⟩⟩
  cases negative with
  | false => exact unsigned
  | true => exact numerals_cons (by decide) unsigned

theorem Literal.ne_nil {cs : List Char} (h : Literal cs) : cs ≠ [] := by
  obtain ⟨negative, nonempty, -⟩ := h
  intro empty
  cases negative with
  | false => exact nonempty (List.append_eq_nil_iff.1 empty).1
  | true => cases empty

end Number

/-! ### Where a piece ends -/

namespace Json

/-- The inside of a string literal ends at its quotation mark. -/
theorem Quoted.split {inside text inside' text' r r' : Utf16} (h : Quoted inside text)
    (h' : Quoted inside' text') (eq : inside ++ 0x22 :: r = inside' ++ 0x22 :: r') :
    inside = inside' ∧ text = text' := by
  induction h generalizing inside' text' with
  | nil =>
    cases h' with
    | nil => exact ⟨rfl, rfl⟩
    | plain _ noQuote => exact absurd (List.cons.inj eq).1.symm noQuote
    | letter => cases (List.cons.inj eq).1
    | hex => cases (List.cons.inj eq).1
  | plain _ noQuote noBackslash _ ih =>
    cases h' with
    | nil => exact absurd (List.cons.inj eq).1 noQuote
    | plain _ _ _ rest =>
      obtain ⟨rfl, tails⟩ := List.cons.inj eq
      obtain ⟨rfl, rfl⟩ := ih rest tails
      exact ⟨rfl, rfl⟩
    | letter => exact absurd (List.cons.inj eq).1 noBackslash
    | hex => exact absurd (List.cons.inj eq).1 noBackslash
  | letter stands _ ih =>
    cases h' with
    | nil => cases (List.cons.inj eq).1
    | plain _ _ noBackslash => exact absurd (List.cons.inj eq).1.symm noBackslash
    | letter stands' rest =>
      obtain ⟨rfl, tails⟩ := List.cons.inj (List.cons.inj eq).2
      cases stands.symm.trans stands'
      obtain ⟨rfl, rfl⟩ := ih rest tails
      exact ⟨rfl, rfl⟩
    | hex =>
      obtain ⟨rfl, -⟩ := List.cons.inj (List.cons.inj eq).2
      cases stands
  | hex four all _ ih =>
    cases h' with
    | nil => cases (List.cons.inj eq).1
    | plain _ _ noBackslash => exact absurd (List.cons.inj eq).1.symm noBackslash
    | letter stands' =>
      obtain ⟨rfl, -⟩ := List.cons.inj (List.cons.inj eq).2
      cases stands'
    | hex four' all' rest =>
      obtain ⟨-, tails⟩ := List.cons.inj (List.cons.inj eq).2
      rw [List.append_eq, List.append_eq, List.append_assoc, List.append_assoc] at tails
      have small {digits : List Char} (all : ∀ c ∈ digits, Number.digitValue c < 16) :=
        Utf16.length_ofChars fun c mem => Number.toNat_lt_of_digitValue_lt (all c mem)
      obtain ⟨digits, tails⟩ := List.append_inj tails (by rw [small all, small all', four, four'])
      obtain rfl := Utf16.ofChars_injective digits
      obtain ⟨rfl, rfl⟩ := ih rest (List.append_cancel_left tails)
      exact ⟨rfl, rfl⟩

/-- What may follow a document inside of another. -/
def Ends (r : Utf16) : Prop := ∀ u ∈ r.head?, u = 0x2c ∨ u = 0x5d ∨ u = 0x7d

/-- What follows the last of several: the bracket that closes them. -/
def Closes (r : Utf16) : Prop := ∃ u more, r = u :: more ∧ (u = 0x5d ∨ u = 0x7d)

theorem Closes.ends {r : Utf16} (h : Closes r) : Ends r := by
  obtain ⟨u, more, rfl, bracket⟩ := h
  intro u' here
  cases here
  exact .inr bracket

theorem ends_comma (r : Utf16) : Ends (0x2c :: r) := by
  intro u here
  cases here
  exact .inl rfl

section Pieces

variable {α : Type}

/-- Two pieces that texts start with are the same piece, and spell the same. -/
def Splits (Spells : Utf16 → α → Prop) (text : Utf16) : Prop :=
  ∀ ⦃a⦄, Spells text a → ∀ ⦃text' a'⦄, Spells text' a' → ∀ ⦃r r'⦄, Ends r → Ends r' →
    text ++ r = text' ++ r' → text = text' ∧ a = a'

variable {Spells : Utf16 → α → Prop} {inside inside' r r' : Utf16} {as as' : List α}

theorem separated_comma {text more : Utf16} (r : Utf16) :
    text ++ [0x2c] ++ more ++ r = text ++ 0x2c :: (more ++ r) := by
  rw [List.append_assoc, List.append_assoc, List.singleton_append]

/-- Things with commas between them end at the closing bracket, if each of them ends. -/
theorem Separated.split (starts : ∀ {text a}, Spells text a → ∀ r, ¬ Closes (text ++ r))
    (h : Separated Spells inside as) (h' : Separated Spells inside' as')
    (splits : ∀ text, text.length ≤ inside.length → Splits Spells text)
    (closes : Closes r) (closes' : Closes r') (eq : inside ++ r = inside' ++ r') :
    inside = inside' ∧ as = as' := by
  have comma {more : Utf16} : ¬ Closes (0x2c :: more) := by
    rintro ⟨u, _, here, bracket⟩
    cases here
    revert bracket
    decide
  induction h generalizing inside' as' with
  | nil =>
    rw [List.nil_append] at eq
    subst eq
    cases h' with
    | nil => exact ⟨rfl, rfl⟩
    | one first => exact absurd closes (starts first _)
    | cons first =>
      rw [separated_comma] at closes
      exact absurd closes (starts first _)
  | one first =>
    have split := splits _ (Nat.le_refl _) first
    cases h' with
    | nil =>
      rw [← show _ = r' from eq] at closes'
      exact absurd closes' (starts first r)
    | one first' =>
      obtain ⟨rfl, rfl⟩ := split first' closes.ends closes'.ends eq
      exact ⟨rfl, rfl⟩
    | cons first' =>
      rw [separated_comma] at eq
      obtain ⟨rfl, -⟩ := split first' closes.ends (ends_comma _) eq
      rw [List.append_cancel_left eq] at closes
      exact absurd closes comma
  | @cons text inside a b rest first _ ih =>
    have length : (text ++ [0x2c] ++ inside).length = text.length + 1 + inside.length := by
      rw [List.length_append, List.length_append, List.length_singleton]
    have split := splits text (by omega) first
    rw [separated_comma] at eq
    cases h' with
    | nil =>
      rw [← show _ = r' from eq] at closes'
      exact absurd closes' (starts first _)
    | one first' =>
      obtain ⟨rfl, -⟩ := split first' (ends_comma _) closes'.ends eq
      rw [← List.append_cancel_left eq] at closes'
      exact absurd closes' comma
    | cons first' more =>
      rw [separated_comma] at eq
      obtain ⟨rfl, rfl⟩ := split first' (ends_comma _) (ends_comma _) eq
      have tails := (List.cons.inj (List.append_cancel_left eq)).2
      obtain ⟨rfl, others⟩ := ih more (fun text small => splits text (by omega)) tails
      rw [others]
      exact ⟨rfl, rfl⟩

end Pieces

/-- Members end where the documents that are their values do. -/
theorem splits_member {text : Utf16}
    (splits : ∀ value, value.length < text.length → Splits Denotes value) :
    Splits (Member Denotes) text := by
  intro m h text' m' h' r r' ends ends' eq
  obtain @⟨key, value, name, document, named, denotes⟩ := h
  obtain @⟨key', value', name', document', named', denotes'⟩ := h'
  have split (key value r : Utf16) : 0x22 :: key ++ [0x22, 0x3a] ++ value ++ r =
      0x22 :: (key ++ 0x22 :: 0x3a :: (value ++ r)) := by simp
  rw [split, split] at eq
  have tails := (List.cons.inj eq).2
  obtain ⟨rfl, names⟩ := named.split named' tails
  obtain rfl := Utf16.ofString_injective names
  have values := (List.cons.inj (List.cons.inj (List.append_cancel_left tails)).2).2
  obtain ⟨rfl, rfl⟩ := splits value (by simp; omega) denotes denotes' ends ends' values
  exact ⟨rfl, rfl⟩

/-! ### Documents -/

/-- What the first unit of a text tells about the document. -/
inductive Kind where
  | null
  | bool (b : Bool)
  | number
  | string
  | array
  | object

def kind : Json → Kind
  | null => .null
  | bool b => .bool b
  | int _ | real _ => .number
  | string _ => .string
  | array _ => .array
  | object _ => .object

def Kind.ofUnit? (u : UInt16) : Option Kind :=
  if Number.isNumeral u then some .number
  else if u = 0x6e then some .null
  else if u = 0x74 then some (.bool true)
  else if u = 0x66 then some (.bool false)
  else if u = 0x22 then some .string
  else if u = 0x5b then some .array
  else if u = 0x7b then some .object
  else none

theorem Denotes.start {text : Utf16} {document : Json} (h : Denotes text document) :
    ∃ u more, text = u :: more ∧ Kind.ofUnit? u = some document.kind := by
  cases h with
  | null => exact ⟨_, _, rfl, rfl⟩
  | bool b => cases b <;> exact ⟨_, _, rfl, rfl⟩
  | @number literal d h =>
    cases units : Utf16.ofChars literal with
    | nil => exact absurd (@Utf16.ofChars_injective literal [] units) h.ne_nil
    | cons u more =>
      have numerals := h.numerals
      rw [Number.allNumeral, units, List.all_cons, Bool.and_eq_true] at numerals
      exact ⟨u, more, rfl, if_pos numerals.1⟩
  | string => exact ⟨_, _, rfl, rfl⟩
  | array => exact ⟨_, _, rfl, rfl⟩
  | object => exact ⟨_, _, rfl, rfl⟩

theorem Denotes.not_closes {text : Utf16} {document : Json} (h : Denotes text document)
    (r : Utf16) : ¬ Closes (text ++ r) := by
  obtain ⟨u, more, rfl, starts⟩ := h.start
  rintro ⟨u', _, here, bracket⟩
  obtain ⟨rfl, -⟩ := List.cons.inj here
  obtain rfl | rfl := bracket <;> cases starts

theorem Member.not_closes {text : Utf16} {member : String × Json} (h : Member Denotes text member)
    (r : Utf16) : ¬ Closes (text ++ r) := by
  cases h
  rintro ⟨u, _, here, bracket⟩
  obtain ⟨rfl, -⟩ := List.cons.inj here
  revert bracket
  decide

/-- Two documents that start texts of which one starts the other are of one kind. -/
theorem Denotes.kind_eq {text text' r r' : Utf16} {document document' : Json}
    (h : Denotes text document) (h' : Denotes text' document') (eq : text ++ r = text' ++ r') :
    document.kind = document'.kind := by
  obtain ⟨u, more, rfl, starts⟩ := h.start
  obtain ⟨u', more', rfl, starts'⟩ := h'.start
  obtain ⟨rfl, -⟩ := List.cons.inj eq
  exact Option.some.inj (starts.symm.trans starts')

theorem takeWhile_literal {literal : List Char} {r : Utf16} (h : Number.Literal literal)
    (ends : Ends r) : (Utf16.ofChars literal ++ r).takeWhile Number.isNumeral =
      Utf16.ofChars literal := by
  have stops : r.takeWhile Number.isNumeral = [] := by
    cases r with
    | nil => rfl
    | cons u more =>
      refine List.takeWhile_cons_of_neg ?_
      obtain rfl | rfl | rfl := ends u rfl <;> decide
  rw [List.takeWhile_append_of_pos (List.all_eq_true.1 h.numerals), stops, List.append_nil]

/-- A document ends where its text does. -/
theorem denotes_splits (text : Utf16) : Splits Denotes text := by
  -- on the length of the text
  induction n : text.length using Nat.strongRecOn generalizing text with
  | ind n ih =>
    subst n
    have pieces (inside : Utf16) (small : inside.length < text.length) : Splits Denotes inside :=
      ih _ small _ rfl
    intro document h text' document' h' r r' ends ends' eq
    have shorter {u v : UInt16} {inside : Utf16} :
        inside.length < (u :: inside ++ [v]).length := by
      rw [List.length_append, List.length_cons, List.length_singleton]
      omega
    have tails {u v : UInt16} {inside inside' : Utf16}
        (eq : u :: inside ++ [v] ++ r = u :: inside' ++ [v] ++ r') :
        inside ++ v :: r = inside' ++ v :: r' := by simpa using eq
    have kinds := h.kind_eq h' eq
    cases h with
    | null => cases h' with
      | null => exact ⟨rfl, rfl⟩
      | _ => cases kinds
    | bool b => cases h' with
      | bool b' =>
        cases kinds
        exact ⟨rfl, rfl⟩
      | _ => cases kinds
    | number literal reads => cases h' with
      | number literal' reads' =>
        have texts := congrArg (List.takeWhile Number.isNumeral) eq
        rw [takeWhile_literal literal ends, takeWhile_literal literal' ends'] at texts
        obtain rfl := Utf16.ofChars_injective texts
        rw [Option.some.inj (reads.symm.trans reads')]
        exact ⟨rfl, rfl⟩
      | _ => cases kinds
    | string quoted => cases h' with
      | string quoted' =>
        obtain ⟨rfl, texts⟩ := quoted.split quoted' (tails eq)
        rw [Utf16.ofString_injective texts]
        exact ⟨rfl, rfl⟩
      | _ => cases kinds
    | array items => cases h' with
      | array items' =>
        obtain ⟨rfl, rfl⟩ := items.split Denotes.not_closes items'
          (fun piece small => pieces piece (Nat.lt_of_le_of_lt small shorter))
          ⟨_, r, rfl, .inl rfl⟩ ⟨_, r', rfl, .inl rfl⟩ (tails eq)
        exact ⟨rfl, rfl⟩
      | _ => cases kinds
    | object members => cases h' with
      | object members' =>
        obtain ⟨rfl, rfl⟩ := members.split Member.not_closes members'
          (fun piece small => splits_member fun value less =>
            pieces value (Nat.lt_trans (Nat.lt_of_lt_of_le less small) shorter))
          ⟨_, r, rfl, .inr rfl⟩ ⟨_, r', rfl, .inr rfl⟩ (tails eq)
        exact ⟨rfl, rfl⟩
      | _ => cases kinds

/-- A text denotes at most one document. -/
theorem Denotes.unique {text : Utf16} {document document' : Json} (h : Denotes text document)
    (h' : Denotes text document') : document = document' :=
  have ends : Ends [] := nofun
  (denotes_splits text h h' ends ends rfl).2

theorem Denotes.iff_eq {text : Utf16} {document document' : Json} (h : Denotes text document) :
    Denotes text document' ↔ document' = document := by
  constructor
  · exact fun h' => h'.unique h
  · rintro rfl
    exact h

end Json

end ScriptBridge
