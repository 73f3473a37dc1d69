import ScriptBridge.Json.Reader
import ScriptBridge.Json.Writer
import ScriptBridge.Proofs.NumberTexts

/-!
Documents are read back as they were written, whatever characters their strings hold, as long as
their numbers are whole ones that the reader keeps exact.
-/

namespace ScriptBridge.Json

open Number (digitValue ofDigits)

/-! ### Strings -/

theorem digitValue_digitChar : ∀ k < 16, digitValue (Nat.digitChar k) = k := by decide

/-- Four digits of which the first two are zero are a character below 256. -/
theorem unicodeEscape_low {c : Char} (low : c.toNat < 256) (rest : List Char) :
    unicodeEscape ('0' :: '0' :: Nat.digitChar (c.toNat / 16) :: Nat.digitChar (c.toNat % 16) ::
      rest) = some (c, rest) := by
  have high := digitValue_digitChar (c.toNat / 16) (by omega)
  have last := digitValue_digitChar (c.toNat % 16) (by omega)
  have zero : digitValue '0' = 0 := rfl
  have unit : ofDigits 16 ['0', '0', Nat.digitChar (c.toNat / 16), Nat.digitChar (c.toNat % 16)] =
      c.toNat := by
    simp only [ofDigits, List.foldl_cons, List.foldl_nil, zero, high, last]
    omega
  have word : hexWord ('0' :: '0' :: Nat.digitChar (c.toNat / 16) ::
      Nat.digitChar (c.toNat % 16) :: rest) = some (c.toNat, rest) := by
    have digits : ['0', '0', Nat.digitChar (c.toNat / 16), Nat.digitChar (c.toNat % 16)].all
        (digitValue · < 16) := by
      simp only [List.all_cons, List.all_nil, zero, high, last]
      simp
      omega
    unfold hexWord
    simp only [List.take_succ_cons, List.take_zero, unit, digits]
    rfl
  unfold unicodeEscape
  rw [word]
  simp only [Option.bind_eq_bind, Option.bind_some]
  rw [if_neg (by omega), if_neg (by omega), Char.ofNat_toNat]

/-- A character in a literal: a letter stands for it, its number does, or the character itself. -/
theorem escape_cases (c : Char) :
    (∃ letter, escape c = ['\\', letter] ∧ letter ≠ 'u' ∧ simpleEscape? letter = some c) ∨
    (c.toNat < 0x20 ∧ escape c =
      ['\\', 'u', '0', '0', Nat.digitChar (c.toNat / 16), Nat.digitChar (c.toNat % 16)]) ∨
    (escape c = [c] ∧ c ≠ '"' ∧ c ≠ '\\' ∧ ¬c.toNat < 0x20) := by
  by_cases lettered : c ∈ ['"', '\\', '\n', '\r', '\t', '\x08', '\x0c']
  · simp only [List.mem_cons, List.not_mem_nil, or_false] at lettered
    obtain rfl | rfl | rfl | rfl | rfl | rfl | rfl := lettered
    · exact .inl ⟨'"', rfl, by decide, rfl⟩
    · exact .inl ⟨'\\', rfl, by decide, rfl⟩
    · exact .inl ⟨'n', rfl, by decide, rfl⟩
    · exact .inl ⟨'r', rfl, by decide, rfl⟩
    · exact .inl ⟨'t', rfl, by decide, rfl⟩
    · exact .inl ⟨'b', rfl, by decide, rfl⟩
    · exact .inl ⟨'f', rfl, by decide, rfl⟩
  · simp only [List.mem_cons, List.not_mem_nil, or_false, not_or] at lettered
    obtain ⟨noQuote, noBackslash, others⟩ := lettered
    have plain : escape c = if c.toNat < 0x20 then
        ['\\', 'u', '0', '0', Nat.digitChar (c.toNat / 16), Nat.digitChar (c.toNat % 16)]
        else [c] := by
      simp only [escape, noQuote, noBackslash, others, if_false]
    rw [plain]
    split
    case isTrue control => exact .inr (.inl ⟨control, rfl⟩)
    case isFalse visible => exact .inr (.inr ⟨rfl, noQuote, noBackslash, visible⟩)

/-- No character is written as nothing, or starting with the mark that closes a literal. -/
theorem escape_start (c : Char) : ∃ first more, escape c = first :: more ∧ first ≠ '"' := by
  obtain ⟨letter, written, -⟩ | ⟨-, written⟩ | ⟨written, noQuote, -⟩ := escape_cases c
  · exact ⟨_, _, written, by decide⟩
  · exact ⟨_, _, written, by decide⟩
  · exact ⟨_, _, written, noQuote⟩

/-- What is written for a character is read as that character. -/
theorem character_escape (c : Char) (rest : List Char) :
    character (escape c ++ rest) = some (c, rest) := by
  obtain ⟨letter, written, noUnit, stands⟩ | ⟨control, written⟩ |
    ⟨written, -, noBackslash, visible⟩ := escape_cases c
  · rw [written, List.cons_append, List.singleton_append, character, stands]
    · rfl
    · exact noUnit
  · rw [written]
    exact unicodeEscape_low (Nat.lt_trans control (by decide)) rest
  · rw [written, List.singleton_append, character, if_neg visible]
    · exact fun _ backslash _ => noBackslash backslash
    · exact fun _ _ backslash _ => noBackslash backslash
    · exact fun backslash _ => noBackslash backslash

theorem stringTail_escape (s : List Char) {fuel : Nat} (enough : s.length < fuel)
    (rest : List Char) : stringTail fuel (s.flatMap escape ++ '"' :: rest) = some (s, rest) := by
  induction s generalizing fuel with
  | nil =>
    obtain ⟨fuel, rfl⟩ := Nat.exists_eq_add_of_lt enough
    rfl
  | cons c s ih =>
    cases fuel with
    | zero => cases enough
    | succ fuel =>
      rw [List.flatMap_cons, List.append_assoc, stringTail, character_escape]
      · dsimp only
        rw [ih (Nat.lt_of_succ_lt_succ enough)]
        rfl
      · obtain ⟨first, more, written, noQuote⟩ := escape_start c
        rw [written]
        exact fun _ closes => noQuote (List.cons.inj closes).1

theorem length_le_escape (s : List Char) : s.length ≤ (s.flatMap escape).length := by
  induction s with
  | nil => exact Nat.le_refl 0
  | cons c s ih =>
    obtain ⟨first, more, written, -⟩ := escape_start c
    rw [List.flatMap_cons, List.length_append, written, List.length_cons, List.length_cons]
    omega

theorem stringLiteral_quote (s : String) (rest : List Char) :
    stringLiteral (quote s.toList ++ rest) = some (s, rest) := by
  have enough := length_le_escape s.toList
  have opened : quote s.toList ++ rest = '"' :: (s.toList.flatMap escape ++ '"' :: rest) := by
    simp [quote]
  rw [opened, stringLiteral, stringTail_escape]
  · rw [Option.map_some]
    dsimp only
    rw [String.ofList_toList]
  · rw [List.length_append]
    omega

/-! ### Whole numbers -/

/-- Nothing that continues a whole number. -/
def EndsNumber (rest : List Char) : Prop :=
  ∀ c ∈ rest.head?, c.isDigit = false ∧ c ≠ '.' ∧ c ≠ 'e' ∧ c ≠ 'E'

theorem significand_digits {ds : List Char} (digits : ∀ c ∈ ds, c.isDigit) (start : Nat)
    (fits : ds.foldl (fun n c => n * 10 + digitValue c) start < wordLimit) {rest : List Char}
    (ends : EndsNumber rest) : significand start (ds ++ rest) =
      (ds.foldl (fun n c => n * 10 + digitValue c) start, ds.length, 0, rest) := by
  induction ds generalizing start with
  | nil =>
    cases rest with
    | nil => rfl
    | cons c rest =>
      rw [List.nil_append, significand, (ends c rfl).1]
      rfl
  | cons c ds ih =>
    obtain ⟨digit, others⟩ := List.forall_mem_cons.1 digits
    rw [List.foldl_cons] at fits ⊢
    have next : start * 10 + digitValue c < wordLimit := by
      rw [Number.foldl_digits] at fits
      have grows := Nat.le_mul_of_pos_right (start * 10 + digitValue c)
        (Nat.pow_pos (n := ds.length) (show 0 < 10 by decide))
      omega
    rw [List.cons_append, significand, if_pos digit, if_pos next, ih others _ fits]
    rfl

theorem unsignedNumber_decimalDigits {n : Nat} (fits : n < wordLimit) {rest : List Char}
    (ends : EndsNumber rest) :
    unsignedNumber (decimalDigits n ++ rest) = some (.inl n, rest) := by
  have digits : ∀ c ∈ decimalDigits n, c.isDigit := fun c => isDigit_decimalDigits
  have value : (decimalDigits n).foldl (fun n c => n * 10 + digitValue c) 0 = n :=
    Number.ofDigits_decimalDigits n
  have whole := significand_digits digits 0 (by rwa [value]) ends
  rw [value] at whole
  obtain ⟨c, ds, split⟩ := List.exists_cons_of_ne_nil (decimalDigits_ne_nil n)
  have plain : ¬(c = '0' ∧ (ds ++ rest).head?.any Char.isDigit) := by
    rintro ⟨rfl, more⟩
    by_cases zero : n = 0
    · rw [zero] at split
      obtain rfl : [] = ds := (List.cons.inj split).2
      cases rest with
      | nil => cases more
      | cons c rest =>
        have digit : c.isDigit := more
        rw [(ends c rfl).1] at digit
        cases digit
    · exact head?_decimalDigits (Nat.pos_of_ne_zero zero) (by rw [split]; rfl)
  rw [split] at digits whole ⊢
  rw [List.cons_append] at whole ⊢
  rw [unsignedNumber, if_neg (by simp [digits c List.mem_cons_self]), if_neg plain, whole]
  cases rest with
  | nil => rfl
  | cons c rest =>
    obtain ⟨-, noPoint, noMark, noMark'⟩ := ends c rfl
    dsimp only
    split
    case h_1 here => exact absurd (List.cons.inj here).1 noPoint
    case h_2 here => exact absurd (List.cons.inj here).1 noMark
    case h_3 here => exact absurd (List.cons.inj here).1 noMark'
    case h_4 => rfl

/-- A whole number that the reader keeps whole. -/
def Whole (n : Int) : Prop := -2 ^ 63 ≤ n ∧ n < 2 ^ 64

theorem number_intText {n : Int} (whole : Whole n) {rest : List Char} (ends : EndsNumber rest) :
    number (intText n ++ rest) = some (.int n, rest) := by
  obtain ⟨least, less⟩ := whole
  have fits : n.natAbs < wordLimit := by
    unfold wordLimit
    omega
  have read := unsignedNumber_decimalDigits fits ends
  unfold intText
  split
  case isTrue negative =>
    rw [List.cons_append, number, read, Option.map_some]
    have exact : -(n.natAbs : Int) = n := by omega
    dsimp only
    rw [if_neg (by omega), exact]
  case isFalse natural =>
    have exact : (n.natAbs : Int) = n := by omega
    rw [number, read, Option.map_some]
    · dsimp only
      rw [exact]
    · obtain ⟨c, ds, split⟩ := List.exists_cons_of_ne_nil (decimalDigits_ne_nil n.natAbs)
      have digit : c.isDigit := isDigit_decimalDigits (n := n.natAbs) (by rw [split]; simp)
      rw [split]
      rintro _ here
      rw [(List.cons.inj here).1] at digit
      cases digit

/-! ### Several -/

section Several

variable {α : Type} {close : Char} {item : Reader α} {write : α → List Char}

/-- What is written for a thing starts with neither a space nor the mark that closes several. -/
def Starts (close : Char) (text : List Char) : Prop :=
  ∃ c more, text = c :: more ∧ isSpace c = false ∧ c ≠ close

theorem Starts.skipSpace {text : List Char} (h : Starts close text) (rest : List Char) :
    skipSpace (text ++ rest) = text ++ rest := by
  obtain ⟨c, more, rfl, solid, -⟩ := h
  rw [List.cons_append, Json.skipSpace, List.dropWhile_cons_of_neg (by simp [solid])]

/-- A reader gives back what a writer wrote, with a mark of two behind it. -/
def ReadsBack (close : Char) (item : Reader α) (write : α → List Char) (x : α) : Prop :=
  Starts close (write x) ∧
    ∀ mark rest, mark = ',' ∨ mark = close → item (write x ++ mark :: rest) = some (x, mark :: rest)

theorem sequenceTail_intercalate (solid : isSpace close = false) (apart : close ≠ ',')
    {xs : List α} (nonempty : xs ≠ []) (each : ∀ x ∈ xs, ReadsBack close item write x) (fuel : Nat)
    (enough : xs.length ≤ fuel) (rest : List Char) :
    sequenceTail close item fuel ([','].intercalate (xs.map write) ++ close :: rest) =
      some (xs, rest) := by
  have skips {c : Char} (solid : isSpace c = false) (rest : List Char) :
      skipSpace (c :: rest) = c :: rest := List.dropWhile_cons_of_neg (by simp [solid])
  induction xs generalizing fuel with
  | nil => exact absurd rfl nonempty
  | cons x xs ih =>
    obtain ⟨⟨starts, reads⟩, others⟩ := List.forall_mem_cons.1 each
    obtain _ | fuel := fuel
    · cases enough
    · cases xs with
      | nil =>
        rw [List.map_singleton, List.intercalate_singleton, sequenceTail, starts.skipSpace,
          reads _ _ (.inr rfl), Option.bind_eq_bind, Option.bind_some]
        dsimp only
        rw [skips solid]
        dsimp only
        rw [if_pos rfl]
      | cons x' xs =>
        rw [List.map_cons, List.map_cons, List.intercalate_cons_cons, List.append_assoc,
          List.append_assoc, List.singleton_append, sequenceTail, starts.skipSpace,
          reads _ _ (.inl rfl), Option.bind_eq_bind, Option.bind_some]
        dsimp only
        rw [skips rfl]
        dsimp only
        rw [if_neg apart.symm, if_pos rfl, ← List.map_cons,
          ih (List.cons_ne_nil _ _) others _ (Nat.le_of_succ_le_succ enough)]
        rfl

theorem length_le_intercalate {texts : List (List Char)} (each : ∀ text ∈ texts, text ≠ []) :
    texts.length ≤ ([','].intercalate texts).length := by
  induction texts with
  | nil => exact Nat.zero_le _
  | cons text texts ih =>
    obtain ⟨first, others⟩ := List.forall_mem_cons.1 each
    have positive := List.length_pos_iff.2 first
    cases texts with
    | nil =>
      rw [List.intercalate_singleton]
      exact positive
    | cons text' texts =>
      have shorter := ih others
      rw [List.intercalate_cons_cons, List.length_append, List.length_append, List.length_cons,
        List.length_singleton]
      omega

theorem sequenceOf_intercalate (solid : isSpace close = false) (apart : close ≠ ',') {xs : List α}
    (each : ∀ x ∈ xs, ReadsBack close item write x) (rest : List Char) :
    sequenceOf close item ([','].intercalate (xs.map write) ++ close :: rest) =
      some (xs, rest) := by
  have nonempty : ∀ text ∈ xs.map write, text ≠ [] := by
    rintro _ mem
    obtain ⟨x, inside, rfl⟩ := List.mem_map.1 mem
    obtain ⟨⟨c, more, written, -⟩, -⟩ := each x inside
    rw [written]
    exact List.cons_ne_nil c more
  have enough := length_le_intercalate nonempty
  rw [List.length_map] at enough
  have tail (some : xs ≠ []) := sequenceTail_intercalate solid apart some each
    (([','].intercalate (xs.map write) ++ close :: rest).length + 1)
    (by rw [List.length_append]; omega) rest
  cases xs with
  | nil =>
    rw [List.map_nil, List.intercalate_nil, List.nil_append, sequenceOf, skipSpace,
      List.dropWhile_cons_of_neg (by simp [solid])]
    exact if_pos rfl
  | cons x xs =>
    obtain ⟨c, more, written, solid, opened⟩ := (each x List.mem_cons_self).1
    obtain ⟨others, front⟩ : ∃ others,
        [','].intercalate ((x :: xs).map write) ++ close :: rest = c :: others := by
      rw [List.map_cons, written]
      cases xs <;> exact ⟨_, rfl⟩
    have here := tail (List.cons_ne_nil x xs)
    rw [front] at here ⊢
    rw [sequenceOf, skipSpace, List.dropWhile_cons_of_neg (by simp [solid])]
    dsimp only
    rw [if_neg opened, here]

end Several

/-! ### Documents -/

theorem compactItems_eq (items : List Json) :
    compactItems items = [','].intercalate (items.map compact) := by
  induction items with
  | nil => rfl
  | cons item items ih =>
    cases items with
    | nil => rw [compactItems, List.map_singleton, List.intercalate_singleton]
    | cons item' items =>
      rw [compactItems, ih, List.map_cons, List.map_cons, List.map_cons,
        List.intercalate_cons_cons, List.append_assoc]
      · rfl
      · exact List.cons_ne_nil _ _

/-- What is written for a member. -/
def compactMember (member : String × Json) : List Char :=
  quote member.1.toList ++ ':' :: compact member.2

theorem compactMembers_eq (members : List (String × Json)) :
    compactMembers members = [','].intercalate (members.map compactMember) := by
  induction members with
  | nil => rfl
  | cons member members ih =>
    cases members with
    | nil =>
      rw [List.map_singleton, List.intercalate_singleton]
      rfl
    | cons member' members =>
      rw [compactMembers, ih, List.map_cons, List.map_cons, List.map_cons,
        List.intercalate_cons_cons]
      · simp [compactMember]
      · exact List.cons_ne_nil _ _

/-- Documents without fractions, in which arrays and objects nest at most so deep. -/
inductive Plain : Nat → Json → Prop where
  | null {depth : Nat} : Plain depth .null
  | bool {depth : Nat} (b : Bool) : Plain depth (.bool b)
  | int {depth : Nat} {n : Int} (whole : Whole n) : Plain depth (.int n)
  | string {depth : Nat} (s : String) : Plain depth (.string s)
  | array {depth : Nat} {items : List Json} (each : ∀ item ∈ items, Plain depth item) :
    Plain (depth + 1) (.array items)
  | object {depth : Nat} {members : List (String × Json)} (each : ∀ m ∈ members, Plain depth m.2) :
    Plain (depth + 1) (.object members)

theorem literal_append {α : Type} (word : List Char) (value : α) (rest : List Char) :
    literal word value (word ++ rest) = some (value, rest) := by
  rw [literal, if_pos (List.isPrefixOf_iff_prefix.2 (List.prefix_append word rest)),
    List.drop_left]

/-- What whole numbers start with. -/
def isNumberStart (c : Char) : Bool := c = '-' || c.isDigit

theorem intText_start (n : Int) : ∃ c more, intText n = c :: more ∧ isNumberStart c := by
  unfold intText
  split
  · exact ⟨_, _, rfl, rfl⟩
  · obtain ⟨c, ds, split⟩ := List.exists_cons_of_ne_nil (decimalDigits_ne_nil n.natAbs)
    have digit : c.isDigit := isDigit_decimalDigits (n := n.natAbs) (by rw [split]; simp)
    exact ⟨c, ds, split, by simp [isNumberStart, digit]⟩

theorem ne_of_isNumberStart {c : Char} (start : isNumberStart c) (mark : Char)
    (other : isNumberStart mark = false) : c ≠ mark := by
  rintro rfl
  rw [start] at other
  cases other

theorem isSpace_of_isNumberStart {c : Char} (start : isNumberStart c) : isSpace c = false := by
  simp [isSpace, ne_of_isNumberStart start ' ' rfl,
    ne_of_isNumberStart start '\t' rfl, ne_of_isNumberStart start '\n' rfl,
    ne_of_isNumberStart start '\r' rfl]

theorem value_of_isNumberStart {c : Char} (start : isNumberStart c) (depth : Nat)
    (rest : List Char) : value (depth + 1) (c :: rest) = number (c :: rest) := by
  have apart {mark : Char} := ne_of_isNumberStart start mark
  rw [value, if_neg (apart rfl), if_neg (apart rfl), if_neg (apart rfl), if_neg (apart rfl),
    if_neg (apart rfl), if_neg (apart rfl)]

theorem Plain.starts {depth : Nat} {j : Json} (h : Plain depth j) {close : Char}
    (bracket : close = ']' ∨ close = '\x7d') : Starts close (compact j) := by
  have apart {c : Char} (other : c ≠ ']' ∧ c ≠ '\x7d') : c ≠ close := by
    rintro rfl
    exact bracket.elim other.1 other.2
  cases h with
  | null => exact ⟨_, _, rfl, rfl, apart (by decide)⟩
  | bool b => cases b <;> exact ⟨_, _, rfl, rfl, apart (by decide)⟩
  | int =>
    obtain ⟨c, more, written, start⟩ := intText_start _
    refine ⟨c, more, written, isSpace_of_isNumberStart start, apart ⟨?_, ?_⟩⟩
    · exact ne_of_isNumberStart start _ rfl
    · exact ne_of_isNumberStart start _ rfl
  | string => exact ⟨_, _, rfl, rfl, apart (by decide)⟩
  | array => exact ⟨_, _, rfl, rfl, apart (by decide)⟩
  | object => exact ⟨_, _, rfl, rfl, apart (by decide)⟩

/-- A reader that stops where numbers end reads back one of several. -/
theorem readsBack_value {close : Char} (bracket : close = ']' ∨ close = '\x7d') {depth : Nat}
    {j : Json} (plain : Plain depth j) {item : Reader Json}
    (reads : ∀ rest, EndsNumber rest → item (compact j ++ rest) = some (j, rest)) :
    ReadsBack close item compact j := by
  refine ⟨plain.starts bracket, fun mark rest marks => reads _ fun c here => ?_⟩
  cases here
  obtain rfl | rfl := marks
  · decide
  · obtain rfl | rfl := bracket <;> decide

theorem readsBack_member {item : Reader Json} {j : Json} (key : String)
    (h : ReadsBack '\x7d' item compact j) :
    ReadsBack '\x7d' (memberOf item) compactMember (key, j) := by
  obtain ⟨starts, reads⟩ := h
  refine ⟨⟨'"', _, rfl, rfl, by decide⟩, fun mark rest marks => ?_⟩
  have colon (rest : List Char) : skipSpace (':' :: rest) = ':' :: rest := rfl
  rw [compactMember, List.append_assoc, memberOf, stringLiteral_quote, Option.bind_eq_bind,
    Option.bind_some, List.cons_append]
  dsimp only
  rw [colon]
  show (item (skipSpace (compact j ++ mark :: rest))).bind _ = _
  rw [starts.skipSpace, reads mark rest marks]
  rfl

theorem value_compact {depth : Nat} {j : Json} (plain : Plain depth j) {rest : List Char}
    (ends : EndsNumber rest) : value (depth + 1) (compact j ++ rest) = some (j, rest) := by
  induction plain generalizing rest with
  | null => exact literal_append "null".toList Json.null rest
  | bool b =>
    cases b with
    | true => exact literal_append "true".toList (Json.bool true) rest
    | false => exact literal_append "false".toList (Json.bool false) rest
  | @int _ n whole =>
    obtain ⟨c, more, written, start⟩ := intText_start n
    have read := number_intText whole ends
    rw [written] at read
    rw [compact, written]
    exact (value_of_isNumberStart start _ _).trans read
  | @string depth s =>
    have reads : value (depth + 1) (compact (.string s) ++ rest) =
        (stringLiteral (quote s.toList ++ rest)).map fun read => (.string read.1, read.2) := rfl
    rw [reads, stringLiteral_quote]
    rfl
  | @array depth items each ih =>
    have reads : value (depth + 2) (compact (.array items) ++ rest) =
        (sequenceOf ']' (value (depth + 1)) (compactItems items ++ [']'] ++ rest)).map
          fun read => (.array read.1, read.2) := rfl
    have items : ∀ item ∈ items, ReadsBack ']' (value (depth + 1)) compact item := fun item mem =>
      readsBack_value (.inl rfl) (each item mem) fun _ => ih item mem
    rw [reads, compactItems_eq, List.append_assoc, List.singleton_append,
      sequenceOf_intercalate rfl (by decide) items]
    rfl
  | @object depth members each ih =>
    have reads : value (depth + 2) (compact (.object members) ++ rest) =
        (sequenceOf '\x7d' (memberOf (value (depth + 1))) (compactMembers members ++ ['\x7d'] ++
          rest)).map fun read => (.object read.1, read.2) := rfl
    have members : ∀ member ∈ members,
        ReadsBack '\x7d' (memberOf (value (depth + 1))) compactMember member := fun member mem =>
      readsBack_member member.1
        (readsBack_value (.inr rfl) (each member mem) fun _ => ih member mem)
    rw [reads, compactMembers_eq, List.append_assoc, List.singleton_append,
      sequenceOf_intercalate rfl (by decide) members]
    rfl

/-- Documents without fractions are read back as they were written. -/
theorem parse_compact {j : Json} (plain : Plain depthLimit j) : parse (compact j) = some j := by
  have starts : skipSpace (compact j) = compact j := by
    have front := (plain.starts (.inl rfl)).skipSpace []
    rwa [List.append_nil] at front
  have ends : EndsNumber [] := nofun
  have read := value_compact plain ends
  rw [List.append_nil] at read
  rw [parse, parseWithin, starts, read]
  rfl

end ScriptBridge.Json
