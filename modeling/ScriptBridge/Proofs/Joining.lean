import ScriptBridge.Proofs.Flattening
import ScriptBridge.Proofs.LanguageTags
import ScriptBridge.Proofs.Nesting

/-!
Joining. Sequences may share others and contain themselves, and joining ends on all of them. It
writes one element after another to an output and keeps a stack of the sequences it is inside of; a
sequence on the stack is not opened again. Every other one is written out in full, as often as it
occurs.
-/

namespace ScriptBridge

namespace Heap

variable {h : Heap} {leaf : Value → List Char} {separator : List Char} {s t : SequenceId}
  {path : List SequenceId} {items : List Value}

/-! ### The recursion -/

/-- The sequences that are not being joined. -/
def unopened (h : Heap) (path : List SequenceId) : List SequenceId :=
  h.allSequences.filter (· ∉ path)

/-- The text of a sequence where those in `path` are being joined. -/
def joined (h : Heap) (leaf : Value → List Char) (path : List SequenceId) (separator : List Char)
    (s : SequenceId) : List Char :=
  h.joinAvailable leaf (h.unopened path) separator s

/-- The text of an element of the innermost sequence in `path`. -/
def elementText (h : Heap) (leaf : Value → List Char) (path : List SequenceId) :
    Value → List Char
  | .undefined | .null => []
  | .sequence t => h.joined leaf path [','] t
  | v => leaf v

theorem mem_unopened : s ∈ h.unopened path ↔ s.index < h.sequences.size ∧ s ∉ path := by
  rw [unopened, List.mem_filter, mem_allSequences, decide_eq_true_iff]

theorem nodup_allSequences (h : Heap) : h.allSequences.Nodup :=
  List.nodup_range.map fun _ _ same => congrArg SequenceId.index same

theorem unopened_cons (h : Heap) (path : List SequenceId) (s : SequenceId) :
    h.unopened (s :: path) = (h.unopened path).erase s := by
  have once : (h.unopened path).Nodup := h.nodup_allSequences.filter _
  rw [once.erase_eq_filter, unopened, unopened, List.filter_filter]
  refine List.filter_congr fun t _ => ?_
  simp [not_or, bne, beq_eq_decide]

theorem unopened_nil (h : Heap) : h.unopened [] = h.allSequences :=
  List.filter_eq_self.2 fun _ _ => decide_eq_true List.not_mem_nil

theorem made_of_mem {v : Value} (mem : v ∈ h.sequence s) : s.index < h.sequences.size :=
  Holds.sequence_made mem

/-- Inside a sequence that is opened there is one less to open. -/
theorem length_unopened_lt {v : Value} (closed : s ∉ path) (mem : v ∈ h.sequence s) :
    (h.unopened (s :: path)).length < (h.unopened path).length := by
  rw [unopened_cons]
  exact length_erase_lt (mem_unopened.2 ⟨made_of_mem mem, closed⟩)

/-- A sequence that is being joined gives nothing, any other one its elements. -/
theorem joined_eq (h : Heap) (leaf : Value → List Char) (path : List SequenceId)
    (separator : List Char) (s : SequenceId) :
    h.joined leaf path separator s =
      if s ∈ path then []
      else separator.intercalate ((h.sequence s).map (h.elementText leaf (s :: path))) := by
  have element : h.elementText leaf (s :: path) = fun v => match v with
      | .undefined | .null => []
      | .sequence t => h.joinAvailable leaf ((h.unopened path).erase s) [','] t
      | v => leaf v := by
    funext v
    rw [← unopened_cons]
    cases v <;> rfl
  rw [joined, joinAvailable]
  by_cases opened : s ∈ path
  · rw [if_pos opened, dif_neg fun mem => (mem_unopened.1 mem).2 opened]
  · rw [if_neg opened, element]
    by_cases made : s.index < h.sequences.size
    · exact dif_pos (mem_unopened.2 ⟨made, opened⟩)
    · rw [dif_neg fun mem => made (mem_unopened.1 mem).1]
      cases empty : h.sequence s with
      | nil => rfl
      | cons v rest => exact absurd (made_of_mem (empty ▸ List.mem_cons_self)) made

/-! ### Sequences that occur more than once -/

/-- Joining `root` comes to a sequence while those in a path are being joined, the innermost
first. -/
inductive Comes (h : Heap) (root : SequenceId) : List SequenceId → SequenceId → Prop where
  | root : Comes h root [] root
  | inside {path : List SequenceId} {s t : SequenceId} (outer : Comes h root path s)
    (closed : s ∉ path) (mem : .sequence t ∈ h.sequence s) : Comes h root (s :: path) t

/-- What is being joined contains what is come to. -/
theorem Comes.nested {root : SequenceId} (comes : h.Comes root path t) :
    ∀ p ∈ path, ∃ u, .sequence u ∈ h.sequence p ∧ h.Nested u t := by
  induction comes with
  | root => exact List.forall_mem_nil _
  | inside _ _ mem ih =>
    refine List.forall_mem_cons.2 ⟨⟨_, mem, .self _⟩, fun p there => ?_⟩
    obtain ⟨u, inside, nested⟩ := ih p there
    exact ⟨u, inside, nested.trans (.inside mem (.self _))⟩

/-- A sequence in which one of the path was nested would contain itself. -/
theorem Comes.apart {root : SequenceId} (comes : h.Comes root path t)
    (acyclic : ¬h.ContainsItself t) : ∀ p ∈ path, ¬h.Nested t p := by
  intro p there nested
  obtain ⟨u, inside, around⟩ := comes.nested p there
  cases nested with
  | self => exact acyclic ⟨u, inside, around⟩
  | inside mem rest => exact acyclic ⟨_, mem, rest.trans (.inside inside around)⟩

/-- Sequences that are not nested in one make no difference to its text. -/
theorem joined_append (leaf : Value → List Char) (path outer : List SequenceId)
    (separator : List Char) (s : SequenceId) (apart : ∀ p ∈ outer, ¬h.Nested s p) :
    h.joined leaf (path ++ outer) separator s = h.joined leaf path separator s := by
  have other : s ∉ outer := fun mem => apart s mem (.self s)
  rw [joined_eq, joined_eq h leaf path]
  by_cases opened : s ∈ path
  · rw [if_pos opened, if_pos (List.mem_append_left outer opened)]
  · rw [if_neg opened, if_neg (mt List.mem_append.1 (not_or.2 ⟨opened, other⟩))]
    congr 1
    refine List.map_congr_left fun v mem => ?_
    cases v with
    | sequence t =>
      exact joined_append leaf (s :: path) outer [','] t fun p there nested =>
        apart p there (.inside mem nested)
    | _ => rfl
termination_by (h.unopened path).length
decreasing_by exact length_unopened_lt opened mem

theorem Comes.joined_eq {root : SequenceId} (comes : h.Comes root path t)
    (acyclic : ¬h.ContainsItself t) :
    h.joined leaf path separator t = h.joined leaf [] separator t :=
  joined_append leaf [] path separator t (comes.apart acyclic)

/-! ### Writing -/

/-- What is written so far, and the stack of the sequences that are being joined. -/
structure Writer where
  out : List Char
  joining : List SequenceId

namespace Writer

def write (w : Writer) (text : List Char) : Writer := { w with out := w.out ++ text }

def enter (w : Writer) (s : SequenceId) : Writer := { w with joining := s :: w.joining }

def leave (w : Writer) : Writer := { w with joining := w.joining.tail }

end Writer

/-- What can be written: a sequence, elements from some position of one on, or one element. -/
inductive Part where
  | sequence (separator : List Char) (s : SequenceId)
  | elements (separator : List Char) (position : Nat) (items : List Value)
  | element (v : Value)

/-- Writing leads from one state of the writer to another. -/
inductive Writes (h : Heap) (leaf : Value → List Char) : Part → Writer → Writer → Prop where
  | again {separator : List Char} {s : SequenceId} {w : Writer} (there : s ∈ w.joining) :
    Writes h leaf (.sequence separator s) w w
  | opened {separator : List Char} {s : SequenceId} {w w' : Writer} (closed : s ∉ w.joining)
    (inside : Writes h leaf (.elements separator 0 (h.sequence s)) (w.enter s) w') :
    Writes h leaf (.sequence separator s) w w'.leave
  | done {separator : List Char} {position : Nat} {w : Writer} :
    Writes h leaf (.elements separator position []) w w
  | next {separator : List Char} {position : Nat} {v : Value} {items : List Value}
    {w w₁ w₂ : Writer}
    (one : Writes h leaf (.element v) (w.write (if position = 0 then [] else separator)) w₁)
    (rest : Writes h leaf (.elements separator (position + 1) items) w₁ w₂) :
    Writes h leaf (.elements separator position (v :: items)) w w₂
  | nullish {v : Value} {w : Writer} (nullish : v.isNullish) : Writes h leaf (.element v) w w
  | nested {t : SequenceId} {w w' : Writer} (inside : Writes h leaf (.sequence [','] t) w w') :
    Writes h leaf (.element (.sequence t)) w w'
  | leaf {v : Value} {w : Writer} (given : v.isNullish = false) (plain : ∀ t, v ≠ .sequence t) :
    Writes h leaf (.element v) w (w.write (leaf v))

/-- There is one way to write. -/
theorem Writes.unique {part : Part} {w w₁ w₂ : Writer} (first : h.Writes leaf part w w₁)
    (second : h.Writes leaf part w w₂) : w₁ = w₂ := by
  induction first generalizing w₂ with
  | again there =>
    cases second with
    | again => rfl
    | opened closed => exact absurd there closed
  | opened closed _ ih =>
    cases second with
    | again there => exact absurd there closed
    | opened _ inside => rw [ih inside]
  | done =>
    cases second
    rfl
  | next _ _ ihOne ihRest =>
    cases second with
    | next one rest =>
      obtain rfl := ihOne one
      exact ihRest rest
  | nullish none =>
    cases second with
    | nullish => rfl
    | nested => cases none
    | leaf given => exact absurd none (Bool.eq_false_iff.1 given)
  | nested _ ih =>
    cases second with
    | nullish none => cases none
    | nested inside => exact ih inside
    | leaf _ plain => exact absurd rfl (plain _)
  | leaf given plain =>
    cases second with
    | nullish none => exact absurd none (Bool.eq_false_iff.1 given)
    | nested => exact absurd rfl (plain _)
    | leaf => rfl

/-- The text of elements from some position of a sequence on. -/
def elementsText (h : Heap) (leaf : Value → List Char) (path : List SequenceId)
    (separator : List Char) : Nat → List Value → List Char
  | _, [] => []
  | position, v :: rest =>
    (if position = 0 then [] else separator) ++ h.elementText leaf path v ++
      h.elementsText leaf path separator (position + 1) rest

theorem elementsText_cons (h : Heap) (leaf : Value → List Char) (path : List SequenceId)
    (separator : List Char) (position : Nat) (v : Value) (rest : List Value) :
    h.elementsText leaf path separator position (v :: rest) =
      (if position = 0 then [] else separator) ++
        separator.intercalate ((v :: rest).map (h.elementText leaf path)) := by
  induction rest generalizing position v with
  | nil => simp [elementsText]
  | cons u rest ih =>
    rw [elementsText, ih, List.map_cons (l := u :: rest), List.map_cons (l := rest),
      List.intercalate_cons_cons, if_neg (Nat.succ_ne_zero position)]
    simp only [List.append_assoc]

theorem elementsText_zero (h : Heap) (leaf : Value → List Char) (path : List SequenceId)
    (separator : List Char) (items : List Value) :
    h.elementsText leaf path separator 0 items =
      separator.intercalate (items.map (h.elementText leaf path)) := by
  cases items with
  | nil => rfl
  | cons v rest => exact elementsText_cons h leaf path separator 0 v rest

theorem writes_element {w : Writer} {v : Value}
    (nested : ∀ t, v = .sequence t →
      h.Writes leaf (.sequence [','] t) w (w.write (h.joined leaf w.joining [','] t))) :
    h.Writes leaf (.element v) w (w.write (h.elementText leaf w.joining v)) := by
  have nothing : w.write [] = w := by rw [Writer.write, List.append_nil]
  cases v with
  | undefined | null =>
    rw [elementText, nothing]
    exact .nullish rfl
  | sequence t => exact .nested (nested t rfl)
  | _ => exact .leaf rfl fun _ => Value.noConfusion

theorem writes_elements {w : Writer} (position : Nat)
    (nested : ∀ t, .sequence t ∈ items → ∀ w' : Writer, w'.joining = w.joining →
      h.Writes leaf (.sequence [','] t) w' (w'.write (h.joined leaf w.joining [','] t))) :
    h.Writes leaf (.elements separator position items) w
      (w.write (h.elementsText leaf w.joining separator position items)) := by
  induction items generalizing w position with
  | nil =>
    rw [elementsText, Writer.write, List.append_nil]
    exact .done
  | cons v rest ih =>
    let w₁ := w.write (if position = 0 then [] else separator)
    have one : h.Writes leaf (.element v) w₁ (w₁.write (h.elementText leaf w.joining v)) :=
      writes_element fun t here => nested t (here ▸ List.mem_cons_self) _ rfl
    have more := ih (w := w₁.write (h.elementText leaf w.joining v)) (position + 1)
      fun t mem w' same => nested t (List.mem_cons_of_mem v mem) w' same
    have all := Writes.next one more
    simp only [w₁, Writer.write, List.append_assoc] at all
    rw [elementsText, Writer.write, List.append_assoc]
    exact all

/-- Writing a sequence ends. It adds the text of the sequence to the output and leaves the stack as
it was. -/
theorem writes_sequence (h : Heap) (leaf : Value → List Char) (separator : List Char)
    (s : SequenceId) (w : Writer) :
    h.Writes leaf (.sequence separator s) w (w.write (h.joined leaf w.joining separator s)) := by
  rw [joined_eq]
  by_cases there : s ∈ w.joining
  · rw [if_pos there, Writer.write, List.append_nil]
    exact .again there
  · rw [if_neg there, ← elementsText_zero]
    have nested (t : SequenceId) (mem : .sequence t ∈ h.sequence s) (w' : Writer)
        (same : w'.joining = (w.enter s).joining) : h.Writes leaf (.sequence [','] t) w'
          (w'.write (h.joined leaf (w.enter s).joining [','] t)) := by
      have inner := writes_sequence h leaf [','] t w'
      rwa [same] at inner
    exact .opened there (writes_elements 0 nested)
termination_by (h.unopened w.joining).length
decreasing_by
  rw [same]
  exact length_unopened_lt there mem

theorem writes_sequence_iff {w w' : Writer} :
    h.Writes leaf (.sequence separator s) w w' ↔
      w'.out = w.out ++ h.joined leaf w.joining separator s ∧ w'.joining = w.joining := by
  have writes := writes_sequence h leaf separator s w
  constructor
  · intro written
    obtain rfl := written.unique writes
    exact ⟨rfl, rfl⟩
  · rintro ⟨out, joining⟩
    obtain rfl : w' = w.write (h.joined leaf w.joining separator s) := by
      rw [Writer.write, ← out, ← joining]
    exact writes

/-! ### Formats -/

/-- The text of an element that is not a sequence, with numbers in a format. -/
def formattedText (h : Heap) (format : NumberFormat) : Value → List Char
  | .number d => format.format d
  | v => h.leafText v

theorem join_eq (h : Heap) (separator : List Char) (s : SequenceId) :
    h.join separator s = h.joined h.leafText [] separator s := by
  rw [join, joined, unopened_nil]

theorem localeJoin_eq (h : Heap) (format : NumberFormat) (s : SequenceId) :
    h.localeJoin format s = h.joined (h.formattedText format) [] [','] s := by
  rw [joined, unopened_nil]
  rfl

end Heap

namespace Sequence

variable {r : Reentry} {s : SequenceId} {args : List Value} {w w₁ : World}

/-- What is written between two elements: a comma, unless an argument says otherwise. -/
def separatorText (h : Heap) (args : List Value) : List Char :=
  match args with
  | [] | .undefined :: _ => [',']
  | v :: _ => h.text v

theorem call_toLocaleString {locale : String} {options : NumberFormatOptions}
    {format : NumberFormat} (located : localeArg (arg args 0) w = (.value locale, w))
    (read : formatOptions r (arg args 1) w = (.value options, w₁))
    (resolved : NumberFormat.resolve locale options = .ok format) :
    call r s .toLocaleString args w =
      (.value (.value (.string (String.ofList (w₁.heap.localeJoin format s)))), w₁) := by
  have text : localeText r s (arg args 0) (arg args 1) w =
      (.value (String.ofList (w₁.heap.localeJoin format s)), w₁) := by
    rw [localeText, Act.bind_of_value located, Act.bind_of_value read, resolved]
    rfl
  have value := Act.bind_of_value text fun t => (pure (.string t) : HostAct Value)
  exact Act.bind_of_value value fun v => pure (Answer.value v)

/-- Joining ends on all sequences. What it writes are the texts of the elements, with those of
nested sequences in them, of which one that is being joined gives nothing, and the stack is
afterwards what it was. So a sequence that does not contain itself has the same text wherever
joining comes to it. -/
theorem joining_ends_on_all_sequences :
    (∀ (h : Heap) (leaf : Value → List Char) (separator : List Char) (s : SequenceId),
      (∀ o o' : Heap.Writer, h.Writes leaf (.sequence separator s) o o' ↔
        o'.out = o.out ++ h.joined leaf o.joining separator s ∧ o'.joining = o.joining) ∧
      (∀ path, h.joined leaf path separator s =
        if s ∈ path then []
        else separator.intercalate ((h.sequence s).map (h.elementText leaf (s :: path)))) ∧
      ∀ root path, h.Comes root path s → ¬h.ContainsItself s →
        h.joined leaf path separator s = h.joined leaf [] separator s) ∧
    ∀ (r : Reentry) (s : SequenceId) (args : List Value) (w : World),
      call r s .join args w = (.value (.value (.string (String.ofList
        (w.heap.joined w.heap.leafText [] (separatorText w.heap args) s)))), w) ∧
      call r s .toString args w = (.value (.value (.string (String.ofList
        (w.heap.joined w.heap.leafText [] [','] s)))), w) ∧
      ∀ locale options format w₁, localeArg (arg args 0) w = (.value locale, w) →
        formatOptions r (arg args 1) w = (.value options, w₁) →
        NumberFormat.resolve locale options = .ok format →
        call r s .toLocaleString args w = (.value (.value (.string (String.ofList
          (w₁.heap.joined (w₁.heap.formattedText format) [] [','] s)))), w₁) := by
  constructor
  · intro h leaf separator s
    exact ⟨fun _ _ => Heap.writes_sequence_iff, fun path => h.joined_eq leaf path separator s,
      fun _ _ comes acyclic => comes.joined_eq acyclic⟩
  · intro r s args w
    refine ⟨?_, ?_, fun locale options format w₁ located read resolved => ?_⟩
    · rw [← Heap.join_eq]
      rfl
    · rw [← Heap.join_eq]
      rfl
    · rw [← Heap.localeJoin_eq]
      exact call_toLocaleString located read resolved

/-- A sequence with another one in it twice, and itself in between. The second time the other is
written out like the first, at its place also in the format of a language. -/
theorem joining_ends_on_all_sequences_shared :
    let half : Double := .finite false (15 * 2 ^ 1073) (by decide +kernel)
    let h : Heap := Heap.pushSequence (Heap.pushSequence {} [.number half])
      [.sequence ⟨0⟩, .sequence ⟨1⟩, .null, .sequence ⟨0⟩]
    let w : World := { heap := h }
    h.Comes ⟨1⟩ [⟨1⟩] ⟨0⟩ ∧ ¬h.ContainsItself ⟨0⟩ ∧
      h.joined h.leafText [⟨1⟩] [','] ⟨0⟩ = "7.5".toList ∧
      call .cutting ⟨1⟩ .join [.string ";"] w = (.value (.value (.string "7.5;;;7.5")), w) ∧
      call .cutting ⟨1⟩ .toLocaleString [.string "de"] w =
        (.value (.value (.string "7,5,,,7,5")), w) := by
  intro half h w
  have comes : h.Comes ⟨1⟩ [⟨1⟩] ⟨0⟩ :=
    .inside .root List.not_mem_nil List.mem_cons_self
  have acyclic : ¬h.ContainsItself ⟨0⟩ := by
    rintro ⟨t, mem, -⟩
    cases List.mem_singleton.1 mem
  obtain ⟨joins, methods⟩ := joining_ends_on_all_sequences
  have alone (leaf : Value → List Char) : h.joined leaf [] [','] ⟨0⟩ = leaf (.number half) := by
    rw [(joins h leaf [','] ⟨0⟩).2.1]
    exact List.intercalate_singleton
  have inside (leaf : Value → List Char) :
      h.joined leaf [⟨1⟩] [','] ⟨0⟩ = leaf (.number half) :=
    ((joins h leaf [','] ⟨0⟩).2.2 _ _ comes acyclic).trans (alone leaf)
  have again (leaf : Value → List Char) : h.joined leaf [⟨1⟩] [','] ⟨1⟩ = [] := by
    rw [(joins h leaf [','] ⟨1⟩).2.1]
    exact if_pos List.mem_cons_self
  have whole (leaf : Value → List Char) (separator : List Char) :
      h.joined leaf [] separator ⟨1⟩ =
        separator.intercalate [leaf (.number half), [], [], leaf (.number half)] := by
    rw [(joins h leaf separator ⟨1⟩).2.1, if_neg List.not_mem_nil]
    change separator.intercalate [h.joined leaf [⟨1⟩] [','] ⟨0⟩, h.joined leaf [⟨1⟩] [','] ⟨1⟩, [],
      h.joined leaf [⟨1⟩] [','] ⟨0⟩] = _
    rw [inside, again]
  have point : h.leafText (.number half) = "7.5".toList := by decide +kernel
  refine ⟨comes, acyclic, (inside _).trans point, ?_, ?_⟩
  · have text : String.ofList (";".toList.intercalate ["7.5".toList, [], [], "7.5".toList]) =
        "7.5;;;7.5" := by decide
    have separator : separatorText h [.string ";"] = ";".toList := rfl
    rw [(methods .cutting ⟨1⟩ [.string ";"] w).1, whole, point, separator, text]
  · have parsed : LanguageTag.parse "de" = .ok ⟨['d', 'e'], none, none, []⟩ :=
      LanguageTag.parse_language ⟨List.all_eq_true.1 rfl, .inl rfl⟩
    obtain ⟨format, resolved, shown⟩ : ∃ format, NumberFormat.resolve "de" {} = .ok format ∧
        h.formattedText format (.number half) = "7,5".toList := by
      refine ⟨⟨⟨['d', 'e'], none, none, []⟩, .ofTag ⟨['d', 'e'], none, none, []⟩, .decimal, 0, 3,
        true⟩, ?_, by decide +kernel⟩
      rw [NumberFormat.resolve, parsed]
      rfl
    have text : String.ofList ([','].intercalate ["7,5".toList, [], [], "7,5".toList]) =
        "7,5,,,7,5" := by decide
    rw [(methods .cutting ⟨1⟩ [.string "de"] w).2.2 "de" {} format w rfl rfl resolved, whole, shown,
      text]

end Sequence

end ScriptBridge
