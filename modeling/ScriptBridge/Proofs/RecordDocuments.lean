import Mathlib.Data.List.Nodup
import ScriptBridge.Settings

/-!
Records read from documents. A document gives members for some of the fields, as an object or as an
array; the record that is read holds in each field what the member of the field is read as, and the
default in a field that has none. So only what is given matters, not the notation or the order.
-/

namespace ScriptBridge

/-! ### Notations -/

namespace Json

/-- The members that a document gives for fields: an object gives its own, all for known fields and
none twice; an array gives its items for the first fields, in their order. -/
inductive Gives (names : List String) : Json → List (String × Json) → Prop where
  | object {members : List (String × Json)} (apart : (members.map Prod.fst).Nodup)
    (known : ∀ m ∈ members, m.1 ∈ names) : Gives names (.object members) members
  | array {items : List Json} (short : items.length ≤ names.length) :
    Gives names (.array items) (names.zip items)

/-- What a field holds: what its member is read as, or the default where there is none. -/
inductive Holds {α : Type} (members : List (String × Json)) (name : String)
    (Reads : Json → α → Prop) (default : α) : α → Prop where
  | member {document : Json} {value : α} (given : (name, document) ∈ members)
    (reads : Reads document value) : Holds members name Reads default value
  | missing (absent : name ∉ members.map Prod.fst) : Holds members name Reads default default

/-- Two documents that say the same of each field, by a relation that may differ from field to
field; a field without a member says what its default document says. -/
inductive Restates (defaults : List (String × Json)) (Same : String → Json → Json → Prop)
    (document document' : Json) : Prop where
  | mk {members members' : List (String × Json)}
    (gives : Gives (defaults.map Prod.fst) document members)
    (gives' : Gives (defaults.map Prod.fst) document' members')
    (same : ∀ field ∈ defaults, ∀ j j', Holds members field.1 Eq field.2 j →
      Holds members' field.1 Eq field.2 j' → Same field.1 j j')

section

variable {names : List String} {document : Json} {members members' : List (String × Json)}

/-- An object with a member for every field, in their order. -/
theorem Gives.all (same : members.map Prod.fst = names) (distinct : names.Nodup) :
    Gives names (.object members) members := by
  subst same
  exact .object distinct fun _ => List.mem_map_of_mem

theorem Gives.unique (h : Gives names document members) (h' : Gives names document members') :
    members = members' := by
  cases h <;> cases h' <;> rfl

theorem Gives.known (h : Gives names document members) : ∀ m ∈ members, m.1 ∈ names := by
  cases h with
  | object _ known => exact known
  | array => exact fun _ mem => (List.of_mem_zip mem).1

theorem Gives.apart (h : Gives names document members) (distinct : names.Nodup) :
    (members.map Prod.fst).Nodup := by
  cases h with
  | object apart => exact apart
  | array =>
    rw [List.zip_eq_zip_take_min, List.map_fst_zip (by simp)]
    exact distinct.sublist (List.take_sublist _ _)

end

section

variable {α : Type} {members : List (String × Json)} {name : String} {Reads : Json → α → Prop}
  {default value : α}

/-- Where no key is given twice a field has one document. -/
theorem eq_of_given (apart : (members.map Prod.fst).Nodup) {j j' : Json}
    (given : (name, j) ∈ members) (given' : (name, j') ∈ members) : j = j' :=
  (Prod.mk.inj (List.inj_on_of_nodup_map apart given given' rfl)).2

theorem Holds.eq_default (h : Holds members name Reads default value)
    (absent : name ∉ members.map Prod.fst) : value = default := by
  cases h with
  | member given => exact absurd (List.mem_map_of_mem given) absent
  | missing => rfl

theorem Holds.reads_of_mem (apart : (members.map Prod.fst).Nodup)
    (h : Holds members name Reads default value) {j : Json} (given : (name, j) ∈ members) :
    ∃ v, Reads j v := by
  cases h with
  | member given' reads =>
    obtain rfl := eq_of_given apart given given'
    exact ⟨_, reads⟩
  | missing absent => exact absurd (List.mem_map_of_mem given) absent

/-- A field holds one value at most. -/
theorem Holds.unique (apart : (members.map Prod.fst).Nodup)
    (single : ∀ j v v', Reads j v → Reads j v' → v = v') {value' : α}
    (h : Holds members name Reads default value) (h' : Holds members name Reads default value') :
    value = value' := by
  cases h with
  | member given reads =>
    cases h' with
    | member given' reads' =>
      obtain rfl := eq_of_given apart given given'
      exact single _ _ _ reads reads'
    | missing absent => exact absurd (List.mem_map_of_mem given) absent
  | missing absent => exact (h'.eq_default absent).symm

theorem Holds.cons_of_ne {key : String} {j : Json} (other : name ≠ key)
    (h : Holds members name Reads default value) :
    Holds ((key, j) :: members) name Reads default value := by
  cases h with
  | member given reads => exact .member (List.mem_cons_of_mem _ given) reads
  | missing absent => exact .missing (by simpa [other] using absent)

theorem Holds.satisfies {P : α → Prop} (h : Holds members name Reads default value)
    (reads : ∀ j v, Reads j v → P v) (missing : P default) : P value := by
  cases h with
  | member _ read => exact reads _ _ read
  | missing => exact missing

theorem Holds.document (h : Holds members name Reads default value) {standing : Json}
    (stands : Reads standing default) : ∃ j, Holds members name Eq standing j ∧ Reads j value := by
  cases h with
  | member given reads => exact ⟨_, .member given rfl, reads⟩
  | missing absent => exact ⟨_, .missing absent, stands⟩

/-- A restatement says the same of a field if it keeps what documents are read as. -/
theorem Holds.restated (h : Holds members name Reads default value) {read : Json → Option α}
    (read_iff : ∀ {j v}, read j = some v ↔ Reads j v) {standing : Json}
    (stands : Reads standing default) {members' : List (String × Json)}
    {Same : Json → Json → Prop} (keeps : ∀ j j', Same j j' → ∀ v, Reads j v → Reads j' v)
    (same : ∀ j j', Holds members name Eq standing j → Holds members' name Eq standing j' →
      Same j j') : Holds members' name Reads default value := by
  obtain ⟨j, holds, reads⟩ := h.document stands
  by_cases present : name ∈ members'.map Prod.fst
  · obtain ⟨⟨_, j'⟩, given, rfl⟩ := List.mem_map.1 present
    exact .member given (keeps _ _ (same _ _ holds (.member given rfl)) _ reads)
  · have kept := keeps _ _ (same _ _ holds (.missing present)) _ reads
    have same := Option.some.inj ((read_iff.2 kept).symm.trans (read_iff.2 stands))
    exact same ▸ .missing present

theorem Holds.restated_eq (h : Holds members name Reads default value) {read : Json → Option α}
    (read_iff : ∀ {j v}, read j = some v ↔ Reads j v) {standing : Json}
    (stands : Reads standing default) {members' : List (String × Json)}
    (same : ∀ j j', Holds members name Eq standing j → Holds members' name Eq standing j' →
      j = j') : Holds members' name Reads default value := by
  refine h.restated read_iff stands ?_ same
  rintro j _ rfl v reads
  exact reads

/-- The document of a field is the one that is looked up. -/
theorem Holds.eq_member? {standing j : Json} (h : Holds members name Eq standing j)
    (apart : (members.map Prod.fst).Nodup) : j = ((object members).member? name).getD standing := by
  cases found : members.find? (·.1 == name) with
  | none =>
    have absent : name ∉ members.map Prod.fst := by
      rintro mem
      obtain ⟨m, given, rfl⟩ := List.mem_map.1 mem
      have others := List.find?_eq_none.1 found m given
      exact others (beq_self_eq_true m.1)
    rw [h.eq_default absent, member?, found]
    rfl
  | some m =>
    have named := List.find?_some found
    have given : (name, m.2) ∈ members := eq_of_beq named ▸ List.mem_of_find?_eq_some found
    have single (j v v' : Json) (same : j = v) (same' : j = v') : v = v' := same.symm.trans same'
    rw [h.unique apart single (.member given rfl), member?, found]
    rfl

end

/-- Whether documents say the same can be looked up field by field. -/
theorem Restates.of_member? {defaults : List (String × Json)} {Same : String → Json → Json → Prop}
    {document document' : Json} {members members' : List (String × Json)}
    (gives : Gives (defaults.map Prod.fst) document members)
    (gives' : Gives (defaults.map Prod.fst) document' members')
    (distinct : (defaults.map Prod.fst).Nodup)
    (same : ∀ field ∈ defaults, Same field.1 (((object members).member? field.1).getD field.2)
      (((object members').member? field.1).getD field.2)) :
    Restates defaults Same document document' := by
  refine ⟨gives, gives', fun field mem j j' holds holds' => ?_⟩
  rw [holds.eq_member? (gives.apart distinct), holds'.eq_member? (gives'.apart distinct)]
  exact same field mem

end Json

/-! ### Fields -/

/-- A field as a part of records: what its document is read as, and how a record is read and
written there. -/
structure RecordPart (σ : Type) where
  name : String
  Value : Type
  read : Json → Option Value
  get : σ → Value
  set : σ → Value → σ

namespace RecordPart

variable {σ : Type}

def field (part : RecordPart σ) : RecordField σ where
  name := part.name
  put record j := (part.read j).map (part.set record)

/-- Parts with different names that a record is made of, and that are written independently. -/
structure Independent (parts : List (RecordPart σ)) : Prop where
  distinct : (parts.map name).Nodup
  get_set : ∀ part ∈ parts, ∀ record value, part.get (part.set record value) = value
  get_set_other : ∀ part ∈ parts, ∀ other ∈ parts, part.name ≠ other.name →
    ∀ record value, part.get (other.set record value) = part.get record
  ext : ∀ record record', (∀ part ∈ parts, part.get record = part.get record') → record = record'

namespace Independent

variable {parts : List (RecordPart σ)} (h : Independent parts)

include h

theorem eq_of_name {part other : RecordPart σ} (mem : part ∈ parts) (mem' : other ∈ parts)
    (same : part.name = other.name) : part = other :=
  List.inj_on_of_nodup_map h.distinct mem mem' same

theorem find?_field {part : RecordPart σ} (mem : part ∈ parts) :
    (parts.map field).find? (·.name == part.name) = some part.field := by
  cases found : (parts.map field).find? (·.name == part.name) with
  | none =>
    have others := List.find?_eq_none.1 found _ (List.mem_map_of_mem mem)
    exact absurd (beq_self_eq_true part.name) others
  | some other =>
    obtain ⟨part', mem', rfl⟩ := List.mem_map.1 (List.mem_of_find?_eq_some found)
    have same := List.find?_some found
    rw [h.eq_of_name mem' mem (eq_of_beq same)]

/-- A member is put into the part that it names, if it can be read there. -/
theorem putMember_eq_some_iff {record record' : σ} {member : String × Json} :
    RecordField.putMember (parts.map field) record member = some record' ↔
      ∃ part ∈ parts, part.name = member.1 ∧ ∃ value, part.read member.2 = some value ∧
        part.set record value = record' := by
  constructor
  · intro put
    obtain ⟨other, found, written⟩ := Option.bind_eq_some_iff.1 put
    obtain ⟨part, mem, rfl⟩ := List.mem_map.1 (List.mem_of_find?_eq_some found)
    obtain ⟨value, read, set⟩ := Option.map_eq_some_iff.1 written
    have named := List.find?_some found
    exact ⟨part, mem, eq_of_beq named, value, read, set⟩
  · rintro ⟨part, mem, named, value, read, set⟩
    refine Option.bind_eq_some_iff.2 ⟨part.field, ?_, ?_⟩
    · rw [← named]
      exact h.find?_field mem
    · exact Option.map_eq_some_iff.2 ⟨value, read, set⟩

/-- After a run over members each part holds what its member is read as, or what it held. -/
theorem holds_of_run {members : List (String × Json)} (apart : (members.map Prod.fst).Nodup)
    {record record' : σ}
    (run : members.foldlM (RecordField.putMember (parts.map field)) record = some record') :
    (∀ m ∈ members, m.1 ∈ parts.map name) ∧ ∀ part ∈ parts,
      Json.Holds members part.name (fun j v => part.read j = some v) (part.get record)
        (part.get record') := by
  induction members generalizing record with
  | nil =>
    cases run
    exact ⟨nofun, fun part _ => .missing List.not_mem_nil⟩
  | cons member members ih =>
    obtain ⟨between, put, run⟩ := Option.bind_eq_some_iff.1 run
    obtain ⟨fresh, apart⟩ := List.nodup_cons.1 apart
    obtain ⟨part, mem, named, value, read, rfl⟩ := h.putMember_eq_some_iff.1 put
    obtain ⟨known, holds⟩ := ih apart run
    refine ⟨List.forall_mem_cons.2 ⟨List.mem_map.2 ⟨part, mem, named⟩, known⟩, ?_⟩
    intro other mem'
    -- The part written here has no member further on, so it keeps what was written.
    by_cases same : other.name = part.name
    · obtain rfl := h.eq_of_name mem' mem same
      have kept := (holds other mem).eq_default (named ▸ fresh)
      rw [kept, h.get_set other mem]
      exact .member (named ▸ List.mem_cons_self) read
    · have kept := holds other mem'
      rw [h.get_set_other other mem' part mem same] at kept
      exact kept.cons_of_ne (named ▸ same)

/-- A run over members that can be read goes to its end. -/
theorem exists_run {members : List (String × Json)} (readable : ∀ m ∈ members,
    ∃ part ∈ parts, part.name = m.1 ∧ ∃ value, part.read m.2 = some value) (record : σ) :
    ∃ record', members.foldlM (RecordField.putMember (parts.map field)) record = some record' := by
  induction members generalizing record with
  | nil => exact ⟨record, rfl⟩
  | cons member members ih =>
    obtain ⟨⟨part, mem, named, value, read⟩, others⟩ := List.forall_mem_cons.1 readable
    have put : RecordField.putMember (parts.map field) record member =
        some (part.set record value) :=
      h.putMember_eq_some_iff.2 ⟨part, mem, named, value, read, rfl⟩
    obtain ⟨record', run⟩ := ih others (part.set record value)
    exact ⟨record', Option.bind_eq_some_iff.2 ⟨_, put, run⟩⟩

/-- Items put into the first parts are a run over members with the names of these parts. -/
theorem foldlM_zip {first : List (RecordPart σ)} (sub : ∀ part ∈ first, part ∈ parts)
    (items : List Json) (record : σ) :
    ((first.map field).zip items).foldlM (fun record (field, item) => field.put record item)
      record =
        ((first.map name).zip items).foldlM (RecordField.putMember (parts.map field)) record := by
  induction first generalizing items record with
  | nil => rfl
  | cons part first ih =>
    obtain ⟨mem, others⟩ := List.forall_mem_cons.1 sub
    cases items with
    | nil => rfl
    | cons item items =>
      have put : RecordField.putMember (parts.map field) record (part.name, item) =
          part.field.put record item := by
        rw [RecordField.putMember, h.find?_field mem]
        rfl
      rw [List.map_cons, List.map_cons, List.zip_cons_cons, List.zip_cons_cons, List.foldlM_cons,
        List.foldlM_cons, put]
      exact bind_congr (ih others items)

/-- A record is read from a document if a run over what the document gives goes to its end. -/
theorem read?_eq_some_iff_run {default record : σ} {document : Json} :
    RecordField.read? (parts.map field) default document = some record ↔
      ∃ members, Json.Gives (parts.map name) document members ∧
        members.foldlM (RecordField.putMember (parts.map field)) default = some record := by
  constructor
  · intro read
    cases document with
    | object members =>
      obtain ⟨apart, run⟩ := Option.ite_none_right_eq_some.1 read
      exact ⟨members, .object apart (h.holds_of_run apart run).1, run⟩
    | array items =>
      obtain ⟨short, put⟩ := Option.ite_none_right_eq_some.1 read
      rw [List.length_map, ← List.length_map name] at short
      exact ⟨_, .array short, (h.foldlM_zip (fun _ mem => mem) items default).symm.trans put⟩
    | _ => cases read
  · rintro ⟨members, gives, run⟩
    cases gives with
    | object apart => exact Option.ite_none_right_eq_some.2 ⟨apart, run⟩
    | array short =>
      rw [List.length_map, ← List.length_map field] at short
      exact Option.ite_none_right_eq_some.2
        ⟨short, (h.foldlM_zip (fun _ mem => mem) _ default).trans run⟩

/-- **Reading a record.** What is read holds in each part what the member of the part is read as, or
the default. -/
theorem read?_eq_some_iff {default record : σ} {document : Json} :
    RecordField.read? (parts.map field) default document = some record ↔
      ∃ members, Json.Gives (parts.map name) document members ∧ ∀ part ∈ parts,
        Json.Holds members part.name (fun j v => part.read j = some v) (part.get default)
          (part.get record) := by
  rw [h.read?_eq_some_iff_run]
  refine exists_congr fun members => and_congr_right fun gives => ?_
  have apart := gives.apart h.distinct
  refine ⟨fun run => (h.holds_of_run apart run).2, fun holds => ?_⟩
  have readable : ∀ m ∈ members,
      ∃ part ∈ parts, part.name = m.1 ∧ ∃ value, part.read m.2 = some value := by
    intro m mem
    obtain ⟨part, inside, named⟩ := List.mem_map.1 (gives.known m mem)
    refine ⟨part, inside, named, ?_⟩
    exact (holds part inside).reads_of_mem apart (named ▸ mem)
  obtain ⟨record', run⟩ := h.exists_run readable default
  have same : record' = record := by
    refine h.ext _ _ fun part mem => ?_
    have single (j v v') (read : part.read j = some v) (read' : part.read j = some v') : v = v' :=
      Option.some.inj (read.symm.trans read')
    exact ((h.holds_of_run apart run).2 part mem).unique apart single (holds part mem)
  rw [run, same]

end Independent

end RecordPart

end ScriptBridge
