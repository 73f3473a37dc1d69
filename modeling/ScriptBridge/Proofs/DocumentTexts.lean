import ScriptBridge.Proofs.NumberTexts
import ScriptBridge.Proofs.StrictEquality
import ScriptBridge.Value.Json
import ScriptBridge.Script.Stringify

/-!
The texts of documents: which document a text denotes, and when two documents are the same but for
the order of members and the spelling of numbers.
-/

namespace ScriptBridge

namespace Json

/-! ### Which document a text denotes -/

/-- The code unit that a letter after a backslash stands for. -/
def unitOfLetter? (letter : UInt16) : Option UInt16 :=
  if letter = 0x22 ∨ letter = 0x5c ∨ letter = 0x2f then some letter
  else if letter = 0x62 then some 0x08
  else if letter = 0x66 then some 0x0c
  else if letter = 0x6e then some 0x0a
  else if letter = 0x72 then some 0x0d
  else if letter = 0x74 then some 0x09
  else none

/-- The inside of a string literal, and the text it stands for. -/
inductive Quoted : Utf16 → Utf16 → Prop where
  | nil : Quoted [] []
  | plain {u : UInt16} {inside text : Utf16} (printable : 0x20 ≤ u) (noQuote : u ≠ 0x22)
    (noBackslash : u ≠ 0x5c) (rest : Quoted inside text) : Quoted (u :: inside) (u :: text)
  | letter {l u : UInt16} {inside text : Utf16} (h : unitOfLetter? l = some u)
    (rest : Quoted inside text) : Quoted (0x5c :: l :: inside) (u :: text)
  | hex {digits : List Char} {inside text : Utf16} (four : digits.length = 4)
    (all : ∀ c ∈ digits, Number.digitValue c < 16) (rest : Quoted inside text) :
    Quoted (0x5c :: 0x75 :: (Utf16.ofChars digits ++ inside))
      (UInt16.ofNat (Number.ofDigits 16 digits) :: text)

/-- Things one after another, with commas between them. -/
inductive Separated {α : Type} (Spells : Utf16 → α → Prop) : Utf16 → List α → Prop where
  | nil : Separated Spells [] []
  | one {text : Utf16} {a : α} (h : Spells text a) : Separated Spells text [a]
  | cons {text inside : Utf16} {a b : α} {rest : List α} (h : Spells text a)
    (more : Separated Spells inside (b :: rest)) :
    Separated Spells (text ++ [0x2c] ++ inside) (a :: b :: rest)

/-- A member: its key as a string literal, a colon, and its value. -/
inductive Member (Spells : Utf16 → Json → Prop) : Utf16 → String × Json → Prop where
  | mk {key text : Utf16} {name : String} {value : Json} (named : Quoted key (.ofString name))
    (h : Spells text value) : Member Spells (0x22 :: key ++ [0x22, 0x3a] ++ text) (name, value)

/-- A text without blanks spells a document, whose numbers are those nearest to their literals. -/
inductive Denotes : Utf16 → Json → Prop where
  | null : Denotes (.ofString "null") .null
  | bool (b : Bool) : Denotes (.ofString (if b then "true" else "false")) (.bool b)
  | number {literal : List Char} {d : Double} (h : Number.Literal literal)
    (reads : Number.real? literal = some d) : Denotes (.ofChars literal) (.real d)
  | string {inside : Utf16} {s : String} (h : Quoted inside (.ofString s)) :
    Denotes (0x22 :: inside ++ [0x22]) (.string s)
  | array {inside : Utf16} {items : List Json} (h : Separated Denotes inside items) :
    Denotes (0x5b :: inside ++ [0x5d]) (.array items)
  | object {inside : Utf16} {members : List (String × Json)}
    (h : Separated (Member Denotes) inside members) :
    Denotes (0x7b :: inside ++ [0x7d]) (.object members)

theorem separated_intercalate {α : Type} {Spells : Utf16 → α → Prop} {texts : List Utf16}
    {as : List α} (h : List.Forall₂ Spells texts as) :
    Separated Spells (List.intercalate [0x2c] texts) as := by
  induction h with
  | nil => exact .nil
  | @cons text a texts as h rest ih =>
    cases rest with
    | nil =>
      rw [List.intercalate_singleton]
      exact .one h
    | cons h' rest =>
      rw [List.intercalate_cons_cons]
      exact .cons h ih

/-! ### The same document -/

def double? : Json → Option Double
  | int n => some (.ofInt n)
  | real d => some d
  | _ => none

/-- Documents that differ at most in the order of members and in the spelling of numbers. -/
inductive Same : Json → Json → Prop where
  | null : Same .null .null
  | bool (b : Bool) : Same (.bool b) (.bool b)
  | number {a b : Json} {d : Double} (ha : a.double? = some d) (hb : b.double? = some d) : Same a b
  | string (s : String) : Same (.string s) (.string s)
  | array {items items' : List Json} (h : List.Forall₂ Same items items') :
    Same (.array items) (.array items')
  | object {members ordered members' : List (String × Json)}
    (keys : members.map Prod.fst = ordered.map Prod.fst)
    (h : List.Forall₂ Same (members.map Prod.snd) (ordered.map Prod.snd))
    (order : ordered.Perm members') : Same (.object members) (.object members')

theorem perm_insertMember {α : Type} {key : String} {value : α} {members : List (String × α)}
    (fresh : key ∉ members.map Prod.fst) :
    (insertMember key value members).Perm ((key, value) :: members) := by
  induction members with
  | nil => exact .refl _
  | cons m rest ih =>
    obtain ⟨k, v⟩ := m
    simp only [List.map_cons, List.mem_cons, not_or] at fresh
    unfold insertMember
    split
    · exact .refl _
    · rw [if_neg fresh.1]
      exact ((ih fresh.2).cons (k, v)).trans (.swap _ _ _)

/-- Sorting members with different keys only reorders them. -/
theorem perm_sortMembers {α : Type} {members : List (String × α)}
    (nodup : (members.map Prod.fst).Nodup) : (sortMembers members).Perm members := by
  have onto (sorted : List (String × α)) (apart : ((sorted ++ members).map Prod.fst).Nodup) :
      (members.foldl (fun sorted m => insertMember m.1 m.2 sorted) sorted).Perm
        (sorted ++ members) := by
    clear nodup
    induction members generalizing sorted with
    | nil =>
      rw [List.append_nil]
      exact .refl sorted
    | cons m rest ih =>
      have moved : (sorted ++ m :: rest).Perm (m :: sorted ++ rest) := List.perm_middle
      have apart' := (moved.map Prod.fst).nodup_iff.1 apart
      have fresh : m.1 ∉ sorted.map Prod.fst := by
        rw [List.cons_append, List.map_cons, List.nodup_cons, List.map_append] at apart'
        exact fun mem => apart'.1 (List.mem_append_left _ mem)
      have inserted : (insertMember m.1 m.2 sorted ++ rest).Perm (m :: sorted ++ rest) :=
        (perm_insertMember fresh).append_right rest
      rw [List.foldl_cons]
      exact (ih _ ((inserted.map Prod.fst).nodup_iff.2 apart')).trans (inserted.trans moved.symm)
  exact onto [] nodup

end Json

/-! ### Numbers -/

namespace Double

theorem natAbs_signed (negative : Bool) (n : Nat) : (signed negative n).natAbs = n := by
  cases negative with
  | false => rfl
  | true => exact Int.natAbs_neg n

theorem signed_lt_zero_iff {negative : Bool} {n : Nat} (positive : 0 < n) :
    signed negative n < 0 ↔ negative = true := by
  cases negative with
  | false => simp [signed]
  | true => simp [signed, positive]

theorem ofInt_toInt {d : Double} (whole : d.isIntegral) (small : d.magnitude < 2 ^ 53) :
    ofInt d.toInt = Bridge.crossing d := by
  cases d with
  | nan | infinity => cases whole
  | finite negative units fits =>
    have divides : units % one = 0 := of_decide_eq_true whole
    have units_eq : units / one * one = units := Nat.div_mul_cancel (Nat.dvd_of_mod_eq_zero divides)
    change units / one < 2 ^ 53 at small
    rw [toInt, ofInt_eq (by rw [natAbs_signed]; exact Nat.le_of_lt small), Bridge.crossing]
    simp only [natAbs_signed, units_eq, isZero_finite]
    by_cases zero : units = 0
    · subst zero
      rw [if_pos rfl, Double.zero]
      cases negative <;> simp [signed]
    · have positive : 0 < units / one := by
        refine Nat.pos_of_ne_zero fun none => zero ?_
        rw [← units_eq, none, Nat.zero_mul]
      simp only [if_neg zero, signed_lt_zero_iff positive, Bool.decide_eq_true]

end Double

theorem Bridge.isFinite_crossing (d : Double) : (crossing d).isFinite = d.isFinite := by
  unfold crossing
  split
  · cases d with
    | nan | infinity => cases ‹_›
    | finite => rfl
  · rfl

theorem Bridge.isNegativeZero_crossing (d : Double) : (crossing d).isNegativeZero = false := by
  cases d with
  | nan | infinity => rfl
  | finite negative units fits =>
    cases units with
    | zero => rfl
    | succ n =>
      rw [crossing, if_neg (by rw [Double.isZero_finite]; exact Nat.succ_ne_zero n)]
      cases negative <;> rfl

namespace Json

theorem whole_of_isZero {d : Double} (zero : d.isZero) :
    d.isIntegral ∧ d.magnitude < wholeLimit := by
  cases d with
  | nan | infinity => cases zero
  | finite negative units fits =>
    obtain rfl := Double.isZero_finite.1 zero
    constructor
    · simp only [Double.isIntegral, Nat.zero_mod, decide_true]
    · simp only [Double.magnitude, Nat.zero_div, wholeLimit, Nat.two_pow_pos]

theorem ofNumber_of_isZero {d : Double} (zero : d.isZero) : ofNumber d = .int 0 := by
  rw [ofNumber, if_pos (whole_of_isZero zero)]
  cases d with
  | nan | infinity => cases zero
  | finite negative units fits =>
    obtain rfl := Double.isZero_finite.1 zero
    rw [Double.toInt, Nat.zero_div]
    cases negative <;> rfl

/-- The document of a finite number is the number, without the sign of a zero. -/
theorem double?_ofNumber {d : Double} (finite : d.isFinite) :
    (ofNumber d).double? = some (Bridge.crossing d) := by
  unfold ofNumber
  split
  · rename_i whole
    exact congrArg some (Double.ofInt_toInt whole.1 whole.2)
  · rename_i notWhole
    rw [Bridge.crossing, if_neg fun zero => notWhole (whole_of_isZero zero)]
    rfl

theorem same_ofNumber {d : Double} (finite : d.isFinite) :
    Same (.real (Bridge.crossing d)) (ofNumber d) :=
  .number rfl (double?_ofNumber finite)

theorem ofNumber_of_not_finite {d : Double} (infinite : d.isFinite = false) :
    ofNumber d = .null := by
  cases d with
  | nan | infinity => rfl
  | finite => cases infinite

end Json

/-! ### Texts that scripts write -/

namespace Script

open Json

theorem quoted_hexEscape (u : UInt16) {inside text : Utf16} (rest : Quoted inside text) :
    Quoted (Utf16.ofChars (hexEscape u) ++ inside) (u :: text) := by
  have value : ∀ k < 16, Number.digitValue (Nat.digitChar k) = k := by decide
  have bound : u.toNat < 65536 := u.toNat_lt
  let digits := [Nat.digitChar (u.toNat / 4096), Nat.digitChar (u.toNat / 256 % 16),
    Nat.digitChar (u.toNat / 16 % 16), Nat.digitChar (u.toNat % 16)]
  have unit : u = UInt16.ofNat (Number.ofDigits 16 digits) := by
    have number : Number.ofDigits 16 digits = u.toNat := by
      simp only [digits, Number.ofDigits, List.foldl_cons, List.foldl_nil]
      rw [value _ (by omega), value _ (by omega), value _ (by omega), value _ (by omega)]
      omega
    rw [number, UInt16.ofNat_toNat]
  have all : ∀ c ∈ digits, Number.digitValue c < 16 := by
    intro c mem
    obtain ⟨k, small, rfl⟩ : ∃ k, k < 16 ∧ c = Nat.digitChar k := by
      simp only [digits, List.mem_cons, List.not_mem_nil, or_false] at mem
      rcases mem with rfl | rfl | rfl | rfl <;> exact ⟨_, by omega, rfl⟩
    rw [value k small]
    exact small
  have four : digits.length = 4 := rfl
  have quoted := Quoted.hex four all rest
  rw [← unit] at quoted
  exact quoted

theorem quoted_escapeUnit (u : UInt16) {inside text : Utf16} (rest : Quoted inside text) :
    Quoted (escapeUnit u ++ inside) (u :: text) := by
  unfold escapeUnit
  -- one case for each letter that stands for a unit
  split
  · subst u
    exact .letter (l := 0x22) rfl rest
  · split
    · subst u
      exact .letter (l := 0x5c) rfl rest
    · split
      · subst u
        exact .letter (l := 0x62) rfl rest
      · split
        · subst u
          exact .letter (l := 0x74) rfl rest
        · split
          · subst u
            exact .letter (l := 0x6e) rfl rest
          · split
            · subst u
              exact .letter (l := 0x66) rfl rest
            · split
              · subst u
                exact .letter (l := 0x72) rfl rest
              · split
                · exact quoted_hexEscape u rest
                · rename_i noQuote noBackslash _ _ _ _ _ noEscape
                  refine .plain ?_ noQuote noBackslash rest
                  simp only [Bool.or_eq_true, decide_eq_true_eq, not_or] at noEscape
                  exact UInt16.not_lt.1 noEscape.1.1

/-- The inside of the literal that a script writes stands for the text, whatever is in it. -/
theorem quoted_escapeUnits (t : Utf16) : Quoted (escapeUnits t) t := by
  induction t using escapeUnits.induct with
  | case1 => exact .nil
  | case2 u =>
    have quoted := quoted_escapeUnit u .nil
    rw [List.append_nil] at quoted
    exact quoted
  | case3 u v rest pair ih =>
    rw [escapeUnits, if_pos pair]
    obtain ⟨lead, trail⟩ := Bool.and_eq_true_iff.1 pair
    rw [Utf16.isLead_iff] at lead
    rw [Utf16.isTrail_iff] at trail
    have printable {u : UInt16} (high : 0xD800 ≤ u.toNat) {inside text : Utf16}
        (rest : Quoted inside text) : Quoted (u :: inside) (u :: text) := by
      refine .plain ?_ ?_ ?_ rest
      · rw [UInt16.le_iff_toNat_le]
        exact Nat.le_trans (by decide) high
      · rintro rfl
        exact absurd high (by decide)
      · rintro rfl
        exact absurd high (by decide)
    exact printable lead.1 (printable (Nat.le_trans (by decide) trail.1) ih)
  | case4 u v rest notPair ih =>
    rw [escapeUnits, if_neg notPair]
    exact quoted_escapeUnit u ih

theorem denotes_quoteUnits (s : String) : Denotes (quoteUnits (.ofString s)) (.string s) :=
  .string (quoted_escapeUnits _)

theorem denotes_scriptText {d : Double} (finite : d.isFinite) (sign : d.isNegativeZero = false) :
    Denotes (.ofChars (Number.scriptText d)) (.real d) := by
  obtain ⟨literal, reads⟩ := Number.scriptText_reads finite sign
  exact .number literal reads

end Script

/-! ### Texts of containers -/

namespace Script

/-- The text of a sequence from those of its elements. -/
def sequenceText (items : List (Option Utf16)) : Utf16 :=
  .ofString "[" ++ List.intercalate (Utf16.ofString ",") (items.filterMap fun i => i) ++
    .ofString "]"

/-- A member from the text of its value. -/
def memberText (key : PropertyKey) (text : Utf16) : Utf16 :=
  quoteUnits (key.text?.getD []) ++ .ofString ":" ++ text

def objectText (members : List (Option Utf16)) : Utf16 :=
  .ofString "\x7b" ++ List.intercalate (Utf16.ofString ",") (members.filterMap fun m => m) ++
    .ofString "\x7d"

end Script

open Json in
/-- What is written for a value in a container: a text of its document, or, if it has none, what
stands for an absent one. -/
inductive Spelled (document : Option Json) (absent : Option Utf16) : Option Utf16 → Prop where
  | absent (missing : document = none) : Spelled document absent absent
  | present {d read : Json} {text : Utf16} (made : document = some d) (denotes : Denotes text read)
    (same : Same read d) : Spelled document absent (some text)

namespace Json

theorem denotes_sequenceText {documents : List (Option Json)} {texts : List (Option Utf16)}
    (h : List.Forall₂ (fun d => Spelled d (some (.ofString "null"))) documents texts) :
    ∃ read, Denotes (Script.sequenceText texts) read ∧
      Same read (.array (documents.map (·.getD .null))) := by
  have spelled : ∃ items, List.Forall₂ Denotes (texts.filterMap fun i => i) items ∧
      List.Forall₂ Same items (documents.map (·.getD .null)) := by
    induction h with
    | nil => exact ⟨[], .nil, .nil⟩
    | cons first _ ih =>
      obtain ⟨items, denote, same⟩ := ih
      cases first with
      | absent missing =>
        subst missing
        exact ⟨.null :: items, .cons .null denote, .cons .null same⟩
      | present made denotes first =>
        subst made
        exact ⟨_ :: items, .cons denotes denote, .cons first same⟩
  obtain ⟨items, denote, same⟩ := spelled
  exact ⟨.array items, .array (separated_intercalate denote), .array same⟩

theorem member_memberText {name : String} {text : Utf16} {value : Json} (h : Denotes text value) :
    Member Denotes (Script.memberText (.ofString name) text) (name, value) := by
  have member := Member.mk (Script.quoted_escapeUnits (.ofString name)) h
  have key : (PropertyKey.ofString name).text?.getD [] = .ofString name := by
    rw [PropertyKey.ofString, PropertyKey.text?_ofText, Option.getD_some]
  have colon : Utf16.ofString ":" = [0x3a] := by decide
  rw [Script.memberText, Script.quoteUnits, key, colon]
  simpa only [List.cons_append, List.append_assoc, List.nil_append] using member

/-- The members that have a document. -/
def documented (members : List (String × Option Json)) : List (String × Json) :=
  members.filterMap fun m => m.2.map (m.1, ·)

theorem keys_documented (members : List (String × Option Json)) :
    ((documented members).map Prod.fst).Sublist (members.map Prod.fst) := by
  induction members with
  | nil => exact .slnil
  | cons m rest ih =>
    obtain ⟨name, document⟩ := m
    cases document with
    | none => exact ih.cons name
    | some d => exact ih.cons_cons name

/-- Members without a document are left out. -/
theorem denotes_objectText {members : List (String × Option Json)} {texts : List (Option Utf16)}
    (nodup : (members.map Prod.fst).Nodup)
    (h : List.Forall₂ (fun m text => ∃ value, Spelled m.2 none value ∧
      text = value.map (Script.memberText (.ofString m.1))) members texts) :
    ∃ read, Denotes (Script.objectText texts) read ∧
      Same read (.object (sortMembers (documented members))) := by
  have spelled : ∃ written, List.Forall₂ (Member Denotes) (texts.filterMap fun m => m) written ∧
      written.map Prod.fst = (documented members).map Prod.fst ∧
      List.Forall₂ Same (written.map Prod.snd) ((documented members).map Prod.snd) := by
    clear nodup
    induction h with
    | nil => exact ⟨[], .nil, rfl, .nil⟩
    | @cons m text members texts first _ ih =>
      obtain ⟨written, denote, keys, same⟩ := ih
      obtain ⟨name, document⟩ := m
      obtain ⟨value, spelled, rfl⟩ := first
      cases spelled with
      | absent missing =>
        cases missing
        exact ⟨written, denote, keys, same⟩
      | @present d read text made denotes first =>
        cases made
        exact ⟨(name, read) :: written, .cons (member_memberText denotes) denote,
          congrArg (name :: ·) keys, .cons first same⟩
  obtain ⟨written, denote, keys, same⟩ := spelled
  have order := perm_sortMembers (nodup.sublist (keys_documented members))
  exact ⟨.object written, .object (separated_intercalate denote), .object keys same order.symm⟩

end Json

end ScriptBridge
