import ScriptBridge.Proofs.RecordDocuments
import ScriptBridge.Proofs.WrittenDocuments

/-!
What settings documents mean, apart from how they are read, and that settings are read back from the
text that is written for them.
-/

namespace ScriptBridge

/-! ### Values of fields -/

namespace Json

/-- A document that is a size: a whole number of 64 bits. -/
inductive Size : Json → Nat → Prop where
  | mk {n : Nat} (fits : n < 2 ^ 64) : Size (.int n) n

/-- A document that is a size, or null for none. -/
inductive OptionalSize : Json → Option Nat → Prop where
  | none : OptionalSize .null none
  | size {j : Json} {n : Nat} (size : Size j n) : OptionalSize j (some n)

/-- A document that is a text. -/
inductive Text : Json → String → Prop where
  | mk (s : String) : Text (.string s) s

theorem size?_eq_some_iff {j : Json} {n : Nat} : j.size? = some n ↔ Size j n := by
  constructor
  · intro read
    cases j with
    | int m =>
      rw [size?, Option.ite_none_right_eq_some, Option.some.injEq] at read
      obtain ⟨⟨natural, fits⟩, rfl⟩ := read
      obtain ⟨n, rfl⟩ := Int.eq_ofNat_of_zero_le natural
      exact .mk (by omega)
    | _ => cases read
  · rintro ⟨fits⟩
    rw [size?, if_pos (by omega)]
    rfl

theorem optionalSize?_eq_some_iff {j : Json} {size : Option Nat} :
    j.optionalSize? = some size ↔ OptionalSize j size := by
  constructor
  · intro read
    cases j with
    | null =>
      cases read
      exact .none
    | int m =>
      rw [optionalSize?, Option.map_eq_some_iff] at read
      · obtain ⟨n, read, rfl⟩ := read
        exact .size (size?_eq_some_iff.1 read)
      · nofun
    | _ => cases read
  · intro means
    cases means with
    | none => rfl
    | size size =>
      have read := size?_eq_some_iff.2 size
      obtain ⟨fits⟩ := size
      rw [optionalSize?, read]
      · rfl
      · nofun

theorem string?_eq_some_iff {j : Json} {s : String} : j.string? = some s ↔ Text j s := by
  constructor
  · intro read
    cases j with
    | string s =>
      cases read
      exact .mk s
    | _ => cases read
  · rintro ⟨s⟩
    rfl

theorem Size.lt {j : Json} {n : Nat} (h : Size j n) : n < 2 ^ 64 := by
  obtain ⟨fits⟩ := h
  exact fits

theorem OptionalSize.lt {j : Json} {size : Option Nat} (h : OptionalSize j size) :
    ∀ n ∈ size, n < 2 ^ 64 := by
  rintro n ⟨⟩
  cases h with
  | size size => exact size.lt

theorem optionalSize_sizeJson {size : Option Nat} (fits : ∀ n ∈ size, n < 2 ^ 64) :
    OptionalSize (EngineConfig.sizeJson size) size := by
  cases size with
  | none => exact .none
  | some n => exact .size (.mk (fits n rfl))

theorem Size.plain {j : Json} {n depth : Nat} (h : Size j n) : Plain depth j := by
  obtain ⟨fits⟩ := h
  refine .int ?_
  unfold Whole
  omega

theorem OptionalSize.plain {j : Json} {size : Option Nat} {depth : Nat} (h : OptionalSize j size) :
    Plain depth j := by
  cases h with
  | none => exact .null
  | size size => exact size.plain

end Json

/-! ### Engine limits -/

namespace EngineConfig

/-- The fields in their order, with documents for what holds where a field is missing. -/
def defaults : List (String × Json) :=
  [("memory_limit", .null), ("max_stack_size", .null), ("gc_threshold", .null),
   ("default_locale", .string "en-US"), ("max_array_length", .int (2 ^ 24))]

/-- A document that means a configuration. -/
inductive Means (document : Json) (c : EngineConfig) : Prop where
  | mk {members : List (String × Json)}
    (gives : Json.Gives (defaults.map Prod.fst) document members)
    (memoryLimit : Json.Holds members "memory_limit" Json.OptionalSize none c.memoryLimit)
    (maxStackSize : Json.Holds members "max_stack_size" Json.OptionalSize none c.maxStackSize)
    (gcThreshold : Json.Holds members "gc_threshold" Json.OptionalSize none c.gcThreshold)
    (defaultLocale : Json.Holds members "default_locale" Json.Text "en-US" c.defaultLocale)
    (maxArrayLength : Json.Holds members "max_array_length" Json.Size (2 ^ 24) c.maxArrayLength)

def parts : List (RecordPart EngineConfig) :=
  [⟨"memory_limit", Option Nat, Json.optionalSize?, memoryLimit,
      fun c n => { c with memoryLimit := n }⟩,
   ⟨"max_stack_size", Option Nat, Json.optionalSize?, maxStackSize,
      fun c n => { c with maxStackSize := n }⟩,
   ⟨"gc_threshold", Option Nat, Json.optionalSize?, gcThreshold,
      fun c n => { c with gcThreshold := n }⟩,
   ⟨"default_locale", String, Json.string?, defaultLocale,
      fun c s => { c with defaultLocale := s }⟩,
   ⟨"max_array_length", Nat, Json.size?, maxArrayLength,
      fun c n => { c with maxArrayLength := n }⟩]

theorem fields_eq : fields = parts.map RecordPart.field := rfl

theorem independent : RecordPart.Independent parts where
  distinct := by decide
  get_set := by simp [parts]
  get_set_other := by simp [parts]
  ext := by
    rintro ⟨⟩ ⟨⟩ same
    simpa [parts] using same

theorem ofJson?_eq_some_iff {document : Json} {c : EngineConfig} :
    ofJson? document = some c ↔ Means document c := by
  rw [ofJson?, fields_eq, independent.read?_eq_some_iff]
  simp only [parts, List.forall_mem_cons, Json.optionalSize?_eq_some_iff, Json.size?_eq_some_iff,
    Json.string?_eq_some_iff]
  constructor
  · rintro ⟨members, gives, memory, stack, threshold, locale, length, -⟩
    exact ⟨gives, memory, stack, threshold, locale, length⟩
  · rintro ⟨gives, memory, stack, threshold, locale, length⟩
    exact ⟨_, gives, memory, stack, threshold, locale, length, nofun⟩

/-- Documents that say the same of each limit, in any notation and order. -/
def Restated : Json → Json → Prop := Json.Restates defaults fun _ => Eq

theorem Means.restated {document document' : Json} {c : EngineConfig} (h : Means document c)
    (restated : Restated document document') : Means document' c := by
  obtain ⟨gives, memory, stack, threshold, locale, length⟩ := h
  obtain ⟨gives₁, gives', same⟩ := restated
  obtain rfl := gives.unique gives₁
  simp only [defaults, List.forall_mem_cons] at same
  obtain ⟨memory', stack', threshold', locale', length', -⟩ := same
  have size {j : Json} {n} : j.optionalSize? = some n ↔ j.OptionalSize n :=
    Json.optionalSize?_eq_some_iff
  exact ⟨gives', memory.restated_eq size .none memory', stack.restated_eq size .none stack',
    threshold.restated_eq size .none threshold',
    locale.restated_eq Json.string?_eq_some_iff (.mk _) locale',
    length.restated_eq Json.size?_eq_some_iff (.mk (by decide)) length'⟩

/-- All sizes are words. -/
structure Sized (c : EngineConfig) : Prop where
  memoryLimit : ∀ n ∈ c.memoryLimit, n < 2 ^ 64
  maxStackSize : ∀ n ∈ c.maxStackSize, n < 2 ^ 64
  gcThreshold : ∀ n ∈ c.gcThreshold, n < 2 ^ 64
  maxArrayLength : c.maxArrayLength < 2 ^ 64

theorem Means.sized {document : Json} {c : EngineConfig} (h : Means document c) : Sized c := by
  obtain ⟨-, memory, stack, threshold, -, length⟩ := h
  have size (j n) (means : Json.OptionalSize j n) := means.lt
  exact ⟨memory.satisfies size nofun, stack.satisfies size nofun, threshold.satisfies size nofun,
    length.satisfies (P := (· < 2 ^ 64)) (fun _ _ means => means.lt) (by decide)⟩

theorem means_toJson {c : EngineConfig} (sized : Sized c) : Means c.toJson c := by
  have gives : Json.Gives (defaults.map Prod.fst) c.toJson _ := .all rfl (by decide)
  exact ⟨gives, .member (by simp) (Json.optionalSize_sizeJson sized.memoryLimit),
    .member (by simp) (Json.optionalSize_sizeJson sized.maxStackSize),
    .member (by simp) (Json.optionalSize_sizeJson sized.gcThreshold),
    .member (by simp) (.mk _), .member (by simp) (.mk sized.maxArrayLength)⟩

theorem plain_toJson {c : EngineConfig} (sized : Sized c) {depth : Nat} :
    Json.Plain (depth + 1) c.toJson := by
  refine .object ?_
  simp only [List.forall_mem_cons]
  exact ⟨(Json.optionalSize_sizeJson sized.memoryLimit).plain,
    (Json.optionalSize_sizeJson sized.maxStackSize).plain,
    (Json.optionalSize_sizeJson sized.gcThreshold).plain, .string _,
    (Json.Size.mk sized.maxArrayLength).plain, nofun⟩

end EngineConfig

/-! ### Logging -/

namespace LoggingSettings

def defaults : List (String × Json) := [("level", .string "warn")]

inductive Means (document : Json) (l : LoggingSettings) : Prop where
  | mk {members : List (String × Json)}
    (gives : Json.Gives (defaults.map Prod.fst) document members)
    (level : Json.Holds members "level" Json.Text "warn" l.level)

def parts : List (RecordPart LoggingSettings) :=
  [⟨"level", String, Json.string?, level, fun l s => { l with level := s }⟩]

theorem fields_eq : fields = parts.map RecordPart.field := rfl

theorem independent : RecordPart.Independent parts where
  distinct := by decide
  get_set := by simp [parts]
  get_set_other := by simp [parts]
  ext := by
    rintro ⟨⟩ ⟨⟩ same
    simpa [parts] using same

theorem ofJson?_eq_some_iff {document : Json} {l : LoggingSettings} :
    ofJson? document = some l ↔ Means document l := by
  rw [ofJson?, fields_eq, independent.read?_eq_some_iff]
  simp only [parts, List.forall_mem_cons, Json.string?_eq_some_iff]
  constructor
  · rintro ⟨members, gives, level, -⟩
    exact ⟨gives, level⟩
  · rintro ⟨gives, level⟩
    exact ⟨_, gives, level, nofun⟩

def Restated : Json → Json → Prop := Json.Restates defaults fun _ => Eq

theorem Means.restated {document document' : Json} {l : LoggingSettings} (h : Means document l)
    (restated : Restated document document') : Means document' l := by
  obtain ⟨gives, level⟩ := h
  obtain ⟨gives₁, gives', same⟩ := restated
  obtain rfl := gives.unique gives₁
  have level' := same ("level", .string "warn") List.mem_cons_self
  exact ⟨gives', level.restated_eq Json.string?_eq_some_iff (.mk _) level'⟩

theorem means_toJson (l : LoggingSettings) : Means l.toJson l := by
  have gives : Json.Gives (defaults.map Prod.fst) l.toJson _ := .all rfl (by decide)
  exact ⟨gives, .member List.mem_cons_self (.mk _)⟩

theorem plain_toJson (l : LoggingSettings) {depth : Nat} : Json.Plain (depth + 1) l.toJson :=
  .object (List.forall_mem_cons.2 ⟨.string _, nofun⟩)

end LoggingSettings

/-! ### Settings -/

namespace Settings

def defaults : List (String × Json) := [("engine", .object []), ("logging", .object [])]

/-- A document that means settings. -/
inductive Means (document : Json) (s : Settings) : Prop where
  | mk {members : List (String × Json)}
    (gives : Json.Gives (defaults.map Prod.fst) document members)
    (engine : Json.Holds members "engine" EngineConfig.Means {} s.engine)
    (logging : Json.Holds members "logging" LoggingSettings.Means {} s.logging)

def parts : List (RecordPart Settings) :=
  [⟨"engine", EngineConfig, EngineConfig.ofJson?, engine, fun s c => { s with engine := c }⟩,
   ⟨"logging", LoggingSettings, LoggingSettings.ofJson?, logging,
      fun s l => { s with logging := l }⟩]

theorem fields_eq : fields = parts.map RecordPart.field := rfl

theorem independent : RecordPart.Independent parts where
  distinct := by decide
  get_set := by simp [parts]
  get_set_other := by simp [parts]
  ext := by
    rintro ⟨⟩ ⟨⟩ same
    simpa [parts] using same

theorem ofJson?_eq_some_iff {document : Json} {s : Settings} :
    ofJson? document = some s ↔ Means document s := by
  rw [ofJson?, fields_eq, independent.read?_eq_some_iff]
  simp only [parts, List.forall_mem_cons, EngineConfig.ofJson?_eq_some_iff,
    LoggingSettings.ofJson?_eq_some_iff]
  constructor
  · rintro ⟨members, gives, engine, logging, -⟩
    exact ⟨gives, engine, logging⟩
  · rintro ⟨gives, engine, logging⟩
    exact ⟨_, gives, engine, logging, nofun⟩

/-- Documents that say the same of each section, where a section may also be in the other notation
or in another order. -/
def Restated : Json → Json → Prop := Json.Restates defaults fun name =>
  if name = "engine" then EngineConfig.Restated else LoggingSettings.Restated

theorem Means.restated {document document' : Json} {s : Settings} (h : Means document s)
    (restated : Restated document document') : Means document' s := by
  obtain ⟨gives, engine, logging⟩ := h
  obtain ⟨gives₁, gives', same⟩ := restated
  obtain rfl := gives.unique gives₁
  have engine' := same ("engine", .object []) (by simp [defaults])
  have logging' := same ("logging", .object []) (by simp [defaults])
  exact ⟨gives',
    engine.restated EngineConfig.ofJson?_eq_some_iff (EngineConfig.ofJson?_eq_some_iff.1 rfl)
      (fun _ _ same _ means => means.restated same) engine',
    logging.restated LoggingSettings.ofJson?_eq_some_iff
      (LoggingSettings.ofJson?_eq_some_iff.1 rfl) (fun _ _ same _ means => means.restated same)
      logging'⟩

theorem Means.sized {document : Json} {s : Settings} (h : Means document s) : s.engine.Sized := by
  obtain ⟨-, engine, -⟩ := h
  have standard : EngineConfig.Means (.object []) {} := EngineConfig.ofJson?_eq_some_iff.1 rfl
  exact engine.satisfies (fun _ _ means => means.sized) standard.sized

theorem means_toJson {s : Settings} (sized : s.engine.Sized) : Means s.toJson s := by
  have gives : Json.Gives (defaults.map Prod.fst) s.toJson _ := .all rfl (by decide)
  exact ⟨gives, .member (by simp) (EngineConfig.means_toJson sized),
    .member (by simp) (LoggingSettings.means_toJson _)⟩

theorem plain_toJson {s : Settings} (sized : s.engine.Sized) {depth : Nat} :
    Json.Plain (depth + 2) s.toJson := by
  refine .object ?_
  simp only [List.forall_mem_cons]
  exact ⟨EngineConfig.plain_toJson sized, LoggingSettings.plain_toJson _, nofun⟩

/-- Accepted is a text of a document that means settings with a valid level. -/
theorem parse_eq_ok_iff {text : String} {s : Settings} : parse text = .ok s ↔
    (∃ document, Json.parse text.toList = some document ∧ Means document s) ∧
      ∃ level, s.logLevel = .ok level := by
  have read_iff : (∃ document, Json.parse text.toList = some document ∧ Means document s) ↔
      (Json.parse text.toList).bind ofJson? = some s := by
    simp only [Option.bind_eq_some_iff, ofJson?_eq_some_iff]
  rw [read_iff, parse]
  cases (Json.parse text.toList).bind ofJson? with
  | none => exact ⟨nofun, nofun⟩
  | some s' =>
    dsimp only
    rw [Option.some.injEq]
    constructor
    · intro accepted
      cases valid : s'.logLevel with
      | error fault =>
        rw [valid] at accepted
        cases accepted
      | ok level =>
        rw [valid] at accepted
        cases accepted
        exact ⟨rfl, level, valid⟩
    · rintro ⟨rfl, level, valid⟩
      rw [valid]
      rfl

theorem parse_text {s : Settings} (sized : s.engine.Sized) {level : LogLevel}
    (valid : s.logLevel = .ok level) : parse (String.ofList s.text) = .ok s := by
  refine parse_eq_ok_iff.2 ⟨⟨s.toJson, ?_, means_toJson sized⟩, level, valid⟩
  rw [String.toList_ofList]
  exact Json.parse_compact (plain_toJson sized)

/-- **Settings round trip.** Settings are read back from their text. A text is accepted if its
document means settings with a valid level; the text of these settings then gives them again, and so
does every text that says the same of each section in another notation or order. -/
theorem settings_read_back :
    (∀ s level, s.engine.Sized → s.logLevel = .ok level → parse (String.ofList s.text) = .ok s) ∧
    ∀ text s,
      (parse text = .ok s ↔
        (∃ document, Json.parse text.toList = some document ∧ Means document s) ∧
          ∃ level, s.logLevel = .ok level) ∧
      (parse text = .ok s → parse (String.ofList s.text) = .ok s ∧
        ∀ document text' document', Json.parse text.toList = some document →
          Json.parse text'.toList = some document' → Restated document document' →
          parse text' = .ok s) := by
  refine ⟨fun s level sized valid => parse_text sized valid, fun text s => ⟨parse_eq_ok_iff, ?_⟩⟩
  intro accepted
  obtain ⟨⟨document, read, means⟩, level, valid⟩ := parse_eq_ok_iff.1 accepted
  refine ⟨parse_text means.sized valid, fun document₁ text' document' read₁ read' restated => ?_⟩
  obtain rfl := Option.some.inj (read.symm.trans read₁)
  exact parse_eq_ok_iff.2 ⟨⟨document', read', means.restated restated⟩, level, valid⟩

theorem settings_read_back_notations :
    parse "\x7b\"logging\":[\"debug\"],\"engine\":\x7b\"default_locale\":\"d\\u0065\"\x7d\x7d" =
      .ok ⟨{ defaultLocale := "de" }, ⟨"debug"⟩⟩ ∧
    parse "[[null, null, null, \"de\"], \x7b\"level\": \"debug\"\x7d]" =
      .ok ⟨{ defaultLocale := "de" }, ⟨"debug"⟩⟩ ∧
    parse (String.ofList (text ⟨{ defaultLocale := "de" }, ⟨"debug"⟩⟩)) =
      .ok ⟨{ defaultLocale := "de" }, ⟨"debug"⟩⟩ := by
  have engine : EngineConfig.Restated (.object [("default_locale", .string "de")])
      (.array [.null, .null, .null, .string "de"]) :=
    .of_member? (.object (by decide) (by decide)) (.array (by decide)) (by decide)
      (by simp [EngineConfig.defaults, Json.member?])
  have logging : LoggingSettings.Restated (.array [.string "debug"])
      (.object [("level", .string "debug")]) :=
    .of_member? (.array (by decide)) (.object (by decide) (by decide)) (by decide)
      (by simp [LoggingSettings.defaults, Json.member?])
  have restated : Restated
      (.object [("logging", .array [.string "debug"]),
        ("engine", .object [("default_locale", .string "de")])])
      (.array [.array [.null, .null, .null, .string "de"],
        .object [("level", .string "debug")]]) :=
    .of_member? (.object (by decide) (by decide)) (.array (by decide)) (by decide)
      (List.forall_mem_cons.2 ⟨engine, List.forall_mem_singleton.2 logging⟩)
  have read : Json.parse
      "\x7b\"logging\":[\"debug\"],\"engine\":\x7b\"default_locale\":\"d\\u0065\"\x7d\x7d".toList =
      some (.object [("logging", .array [.string "debug"]),
        ("engine", .object [("default_locale", .string "de")])]) := by rfl
  have read' : Json.parse "[[null, null, null, \"de\"], \x7b\"level\": \"debug\"\x7d]".toList =
      some (.array [.array [.null, .null, .null, .string "de"],
        .object [("level", .string "debug")]]) := by rfl
  have accepted := (settings_read_back.2 _ ⟨{ defaultLocale := "de" }, ⟨"debug"⟩⟩).1.2
    ⟨⟨_, read, ofJson?_eq_some_iff.1 rfl⟩, .debug, by decide⟩
  obtain ⟨again, others⟩ := (settings_read_back.2 _ _).2 accepted
  exact ⟨accepted, others _ _ _ read read' restated, again⟩

end Settings

end ScriptBridge
