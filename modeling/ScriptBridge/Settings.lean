import ScriptBridge.Config
import ScriptBridge.Error
import ScriptBridge.Json.Reader
import ScriptBridge.Json.Writer
import ScriptBridge.Number.Literal

/-!
Settings: how they are read from a document, what can be wrong with it, and how they are written.
-/

namespace ScriptBridge

/-! ### Records -/

/-- A field of a record: its name, and how a value is put into the record. -/
structure RecordField (σ : Type) where
  name : String
  put : σ → Json → Option σ

namespace RecordField

variable {σ : Type}

/-- Puts a member into the record under its name. -/
def putMember (fields : List (RecordField σ)) (record : σ) (member : String × Json) : Option σ := do
  let field ← fields.find? (·.name == member.1)
  field.put record member.2

/-- Reads a record over its defaults: an object whose members are fields, each at most once, or the
fields as an array in their order, of which the last may be left out. -/
def read? (fields : List (RecordField σ)) (default : σ) : Json → Option σ
  | .object members =>
    if (members.map (·.1)).Nodup then members.foldlM (putMember fields) default else none
  | .array items =>
    if items.length ≤ fields.length then
      (fields.zip items).foldlM (fun record (field, item) => field.put record item) default
    else none
  | _ => none

end RecordField

/-! ### Values of fields -/

namespace Json

/-- A size: a whole number of 64 bits. -/
def size? : Json → Option Nat
  | int n => if 0 ≤ n ∧ n < 2 ^ 64 then some n.toNat else none
  | _ => none

def optionalSize? : Json → Option (Option Nat)
  | null => some none
  | j => j.size?.map some

end Json

namespace EngineConfig

def fields : List (RecordField EngineConfig) :=
  [⟨"memory_limit", fun c j => j.optionalSize?.map fun n => { c with memoryLimit := n }⟩,
   ⟨"max_stack_size", fun c j => j.optionalSize?.map fun n => { c with maxStackSize := n }⟩,
   ⟨"gc_threshold", fun c j => j.optionalSize?.map fun n => { c with gcThreshold := n }⟩,
   ⟨"default_locale", fun c j => j.string?.map fun s => { c with defaultLocale := s }⟩,
   ⟨"max_array_length", fun c j => j.size?.map fun n => { c with maxArrayLength := n }⟩]

def ofJson? : Json → Option EngineConfig := RecordField.read? fields {}

def sizeJson : Option Nat → Json
  | none => .null
  | some n => .int n

def toJson (c : EngineConfig) : Json :=
  .object
    [("memory_limit", sizeJson c.memoryLimit), ("max_stack_size", sizeJson c.maxStackSize),
     ("gc_threshold", sizeJson c.gcThreshold), ("default_locale", .string c.defaultLocale),
     ("max_array_length", .int c.maxArrayLength)]

end EngineConfig

/-! ### Log levels -/

inductive LogLevel where
  | error
  | warn
  | info
  | debug
  | trace
deriving DecidableEq, Repr

namespace LogLevel

def all : List LogLevel := [error, warn, info, debug, trace]

def name : LogLevel → String
  | error => "ERROR"
  | warn => "WARN"
  | info => "INFO"
  | debug => "DEBUG"
  | trace => "TRACE"

/-- A level by its number from 1, or by its name in any case. -/
def ofText? (text : String) : Option LogLevel :=
  let numbered := match Number.word? 10 text.toList with
    | some (n + 1) => all[n]?
    | _ => none
  numbered <|> all.find? fun level => level.name.toList == text.toList.map Char.toUpper

end LogLevel

structure LoggingSettings where
  level : String := "warn"
deriving DecidableEq, Repr

namespace LoggingSettings

def fields : List (RecordField LoggingSettings) :=
  [⟨"level", fun l j => j.string?.map fun s => { l with level := s }⟩]

def ofJson? : Json → Option LoggingSettings := RecordField.read? fields {}

def toJson (l : LoggingSettings) : Json := .object [("level", .string l.level)]

end LoggingSettings

/-! ### Settings -/

structure Settings where
  engine : EngineConfig := {}
  logging : LoggingSettings := {}
deriving DecidableEq, Repr

inductive SettingsError where
  | malformed
  | logLevel (text : String)
  | read (path : String) (fault : ReadFault)
deriving DecidableEq

def SettingsError.message : SettingsError → String
  | malformed => "invalid settings"
  | logLevel text => "invalid log level \"" ++ text ++ "\""
  | read path fault => "failed to read settings from " ++ path ++ ": " ++ fault.reason

namespace Settings

def fields : List (RecordField Settings) :=
  [⟨"engine", fun s j => (EngineConfig.ofJson? j).map fun c => { s with engine := c }⟩,
   ⟨"logging", fun s j => (LoggingSettings.ofJson? j).map fun l => { s with logging := l }⟩]

def ofJson? : Json → Option Settings := RecordField.read? fields {}

def toJson (s : Settings) : Json :=
  .object [("engine", s.engine.toJson), ("logging", s.logging.toJson)]

def logLevel (s : Settings) : Except SettingsError LogLevel :=
  match LogLevel.ofText? s.logging.level with
  | some level => .ok level
  | none => .error (.logLevel s.logging.level)

def parse (text : String) : Except SettingsError Settings := do
  match (Json.parse text.toList).bind ofJson? with
  | none => .error .malformed
  | some s =>
    let _ ← s.logLevel
    return s

def load (path : String) (content : Except ReadFault String) : Except SettingsError Settings :=
  match content with
  | .ok text => parse text
  | .error fault => .error (.read path fault)

def text (s : Settings) : List Char := s.toJson.compact

end Settings

end ScriptBridge
