import ScriptBridge.Number.Index
import ScriptBridge.Number.Literal
import ScriptBridge.Script.Get

/-!
Conversions of script values: to primitives, texts, numbers and property keys.
-/

namespace ScriptBridge.Script

def isObject : ScriptValue → Bool
  | .object _ => true
  | _ => false

/-- What a conversion to a primitive would rather have. -/
inductive Hint where
  | text
  | number
  | either
deriving DecidableEq, Repr

def Hint.name : Hint → String
  | text => "string"
  | number => "number"
  | either => "default"

/-- Asks methods in turn for a primitive. -/
def primitiveFrom (r : Reentry) (id : ObjectId) : List String → ScriptAct ScriptValue
  | [] => Act.throwType "toPrimitive"
  | method :: rest => do
    match ← callable? (← get r id (.ofString method)) with
    | none => primitiveFrom r id rest
    | some f =>
      let v ← r.call f (.object id) []
      if isObject v then primitiveFrom r id rest else return v

def toPrimitive (r : Reentry) (hint : Hint) (v : ScriptValue) : ScriptAct ScriptValue := do
  match v with
  | .object id =>
    match ← get r id (.symbol .toPrimitive) with
    | .undefined | .null =>
      primitiveFrom r id
        (if hint = .text then ["toString", "valueOf"] else ["valueOf", "toString"])
    | f =>
      let v ← callValue r f (.object id) [.ofString hint.name]
      if isObject v then Act.throwType "toPrimitive" else return v
  | v => return v

def primitiveText : ScriptValue → Utf16
  | .undefined => .ofString "undefined"
  | .null => .ofString "null"
  | .bool b => .ofString (if b then "true" else "false")
  | .number d => .ofChars (Number.scriptText d)
  | .string t => t
  | .bigint n => .ofChars (Number.signed (n < 0) (decimalDigits n.natAbs))
  | .symbol _ | .object _ => []

def toText (r : Reentry) (v : ScriptValue) : ScriptAct Utf16 := do
  match ← toPrimitive r .text v with
  | .symbol _ => Act.throwType "cannot convert symbol to string"
  | v => return primitiveText v

def primitiveNumber : ScriptValue → Double
  | .null => .zero false
  | .bool b => .ofNat (if b then 1 else 0)
  | .number d => d
  | .string t => (t.toChars?.map Number.ofScriptText).getD .nan
  | _ => .nan

def toNumber (r : Reentry) (v : ScriptValue) : ScriptAct Double := do
  match ← toPrimitive r .number v with
  | .symbol _ => Act.throwType "cannot convert symbol to number"
  | .bigint _ => Act.throwType "cannot convert bigint to number"
  | v => return primitiveNumber v

/-- A number for counting positions: whole, or infinite. -/
def toInteger (r : Reentry) (v : ScriptValue) : ScriptAct Double := do
  return Number.toIntegerOrInfinity (← toNumber r v)

def toKey (r : Reentry) (v : ScriptValue) : ScriptAct PropertyKey := do
  match ← toPrimitive r .text v with
  | .symbol s => return .symbol s
  | v => return .ofText (primitiveText v)

def truthy : ScriptValue → Bool
  | .undefined | .null => false
  | .bool b => b
  | .number d => !d.isZero && !d.isNaN
  | .string t => !t.isEmpty
  | .bigint n => n ≠ 0
  | .symbol _ | .object _ => true

def strictEquals : ScriptValue → ScriptValue → Bool
  | .number a, .number b => a.eq b
  | a, b => a == b

def sameValueZero : ScriptValue → ScriptValue → Bool
  | .number a, .number b => a.sameValueZero b
  | a, b => strictEquals a b

def typeOf (v : ScriptValue) : ScriptAct String := do
  match v with
  | .undefined => return "undefined"
  | .null => return "object"
  | .bool _ => return "boolean"
  | .number _ => return "number"
  | .string _ => return "string"
  | .symbol _ => return "symbol"
  | .bigint _ => return "bigint"
  | .object _ => return if (← callable? v).isSome then "function" else "object"

/-- Whether a value is an array or stands in for a sequence. -/
def isArray {ε : Type} (v : ScriptValue) : Act ε Bool := do
  match v with
  | .object id =>
    match ← Act.object? id with
    | some { kind := .array, .. } | some { kind := .sequenceProxy .., .. } => return true
    | _ => return false
  | _ => return false

def lengthOf (r : Reentry) (id : ObjectId) : ScriptAct Nat := do
  return (← toInteger r (← get r id .length)).toWord 53

/-- A position relative to a length, from an argument; a missing one is `default`. -/
def relativePosition (r : Reentry) (v : Option ScriptValue) (length default : Nat) :
    ScriptAct Nat := do
  match v with
  | none => return default
  | some v => return Number.relativeIndex (some (← toNumber r v)) length default

end ScriptBridge.Script
