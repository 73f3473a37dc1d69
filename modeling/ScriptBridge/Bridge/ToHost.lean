import ScriptBridge.Calendar
import ScriptBridge.Number.Index
import ScriptBridge.Script.Get

/-!
Script values and script errors on the host side.

Stand-ins give back the handle they stand for, arrays are copied with everything in them, dates and
errors are read out, and all other objects and functions are held by reference. An error object made
for a host error gives back that very error, once.
-/

namespace ScriptBridge

namespace Bridge

/-- A kind of object as the engine's type checks name it. -/
def engineObjectName (o : Object) : String :=
  match o.kind with
  | .array | .sequenceProxy .. => "array"
  | .function _ =>
    if o.properties.contains (.ofString "prototype") then "constructor" else "function"
  | .error => "exception"
  | _ => "object"

/-- A kind of value as the engine's type checks name it. -/
def engineTypeName {ε : Type} (v : ScriptValue) : Act ε String := do
  match v with
  | .undefined => return "undefined"
  | .null => return "null"
  | .bool _ => return "bool"
  | .number d =>
    let isInt := d.isIntegral && !d.isNegativeZero && decide (-(2 ^ 31 : Int) ≤ d.toInt) &&
      decide (d.toInt < 2 ^ 31)
    return if isInt then "int" else "float"
  | .string _ => return "string"
  | .symbol _ => return "symbol"
  | .bigint _ => return "big_int"
  | .object id => return ((← Act.object? id).map engineObjectName).getD "object"

def wrongType {α : Type} (v : ScriptValue) (expected : String) : HostAct α := do
  Act.fail (.engine (.wrongType (← engineTypeName v) expected))

/-- A text that may be missing: null and undefined are none, and only strings are texts. -/
def optionalText (v : ScriptValue) : HostAct (Option String) :=
  match v with
  | .undefined | .null => return none
  | .string t =>
    match t.toString? with
    | some s => return some s
    | none => Act.fail (.engine (.illFormedText t.bytesBeforeLone))
  | v => wrongType v "string"

/-- Reads a property that should be a text; anything else, or a failure, counts as missing. -/
def textOrNone (r : Reentry) (id : ObjectId) (key : String) : HostAct (Option String) := do
  match ← (Script.get r id (.ofString key)).attempt with
  | .ok v => (optionalText v).recover fun _ => return none
  | .error _ => return none

/-! ### Errors -/

/-- The host error an object was made for, if it has not been recovered before. -/
def stashedError? (r : Reentry) (id : ObjectId) : HostAct (Option Error) := do
  match ← (Script.get r id tagKey).attempt with
  | .ok (.number tag) => Act.takeError (tag.toWord 64)
  | _ => return none

/-- The engine does not name what it could not call. -/
def nameCallee (e : ScriptException) : ScriptException :=
  if e.name = "TypeError" ∧ e.message = "not a function" then
    { e with message := "value is not a function" }
  else e

/-- The text a thrown primitive has as a message; symbols and big integers have none. -/
def primitiveMessage : ScriptValue → String
  | .undefined => "undefined"
  | .null => "null"
  | .bool b => if b then "true" else "false"
  | .number d => String.ofList (Number.hostText d)
  | .string t => t.toString?.getD ""
  | _ => ""

def errorOfThrown (r : Reentry) (thrown : ScriptValue) : HostAct Error := do
  match thrown with
  | .object id =>
    match ← stashedError? r id with
    | some e => return e
    | none =>
      let name ← textOrNone r id "name"
      let message ← textOrNone r id "message"
      let stack ← textOrNone r id "stack"
      return .script (nameCallee
        { name := name.getD "Error"
          message := message.getD ""
          stack := stack.filter (!·.isEmpty) })
  | v => return Error.exception "Error" (primitiveMessage v)

def intoHost {α : Type} (r : Reentry) (x : ScriptAct α) : HostAct α :=
  x.recover fun thrown => do Act.fail (← errorOfThrown r thrown)

/-! ### Values -/

def hold (id : ObjectId) : HostAct ScriptRef := do
  let identity ← Act.identify id
  let number ← Act.root
  return { identity, runtime := ← Act.read (·.runtime), number, object := id }

/-- Takes a reference to a function, with the name it has now. -/
def holdFunction (r : Reentry) (id : ObjectId) : HostAct Value := do
  let ref ← hold id
  let name ← textOrNone r id "name"
  return .function (.script ref (name.getD ""))

/-- Reads a property that may hold a text. -/
def readText (r : Reentry) (id : ObjectId) (key : String) : HostAct (Option String) := do
  optionalText (← intoHost r (Script.get r id (.ofString key)))

def errorValue (r : Reentry) (id : ObjectId) : HostAct Value := do
  let name ← readText r id "name"
  let message ← readText r id "message"
  let stack ← readText r id "stack"
  return .error { name := name.getD "Error", message := message.getD "", stack }

def dateValue (millis : Double) : Except Error Value :=
  if !millis.isFinite then .error (.conversion .invalidDate)
  else if Calendar.isHostDate millis.toInt then .ok (.date millis.toInt)
  else .error (.conversion (.dateOutOfRange millis))

/-- The length a script gives an array, if it is one and not above a limit. -/
def copiedLength? (limit : Nat) : ScriptValue → Option Nat
  | .number d => (Number.arrayLength? d).filter (· ≤ limit)
  | _ => none

def copyElements (r : Reentry) (convert : ScriptValue → HostAct Value) (id : ObjectId) :
    HostAct Value := do
  let length ← intoHost r (Script.get r id .length)
  let limit ← Act.read (·.config.maxArrayLength)
  match copiedLength? limit length with
  | none => Act.fail (.conversion .invalidLength)
  | some n =>
    let items ← Act.mapAll (fun i => do convert (← intoHost r (Script.get r id (.index i))))
      (List.range n)
    return .sequence (← Act.newSequence items)

def objectToHost (r : Reentry) (id : ObjectId) (o : Object) : HostAct Value := do
  if ← Script.inherits id Intrinsic.datePrototype then
    match o.kind with
    | .date millis => Act.ofExcept (dateValue millis)
    | _ => intoHost r (Act.throwType "not a Date object")
  else if ← Script.inherits id Intrinsic.errorPrototype then errorValue r id
  else return .object (← hold id)

/-- The host value of a script value; arrays are copied by `copyArray`. -/
def valueToHost (r : Reentry) (copyArray : ObjectId → HostAct Value) (v : ScriptValue) :
    HostAct Value :=
  match v with
  | .undefined => return .undefined
  | .null => return .null
  | .bool b => return .bool b
  | .number d => return .number d
  | .string t =>
    match t.toString? with
    | some s => return .string s
    | none => Act.fail (.engine (.illFormedText t.bytesBeforeLone))
  | .symbol _ => Act.fail (.conversion (.noHostForm "Symbol"))
  | .bigint _ => Act.fail (.conversion (.noHostForm "BigInt"))
  | .object id => do
    match ← handleOf? id with
    | some handle => return handle.value
    | none =>
      match ← Act.object? id with
      | none => return .undefined
      | some o =>
        match o.kind with
        | .function _ => holdFunction r id
        | .array => copyArray id
        | _ => objectToHost r id o

/-- The host value of a script value in which arrays nest at most `depth` deep. -/
def toHostWithin (r : Reentry) : Nat → ScriptValue → HostAct Value
  | 0 => valueToHost r fun _ => Act.fail (.conversion .nestedTooDeep)
  | depth + 1 => valueToHost r (copyElements r (toHostWithin r depth))

def nestingLimit : Nat := 512

def toHost (r : Reentry) (v : ScriptValue) : HostAct Value := toHostWithin r nestingLimit v

end Bridge

end ScriptBridge
