import ScriptBridge.Script.Exception

/-!
Host values on the script side. A host container or function has one stand-in, made when it first
crosses and found again afterwards; script references give back the very object; all else is copied.
-/

namespace ScriptBridge

namespace Bridge

def standIn? (handle : Handle) : HostAct (Option ObjectId) :=
  Act.read (·.engine.registry.standIn? handle)

def handleOf? {ε : Type} (id : ObjectId) : Act ε (Option Handle) :=
  Act.read (·.engine.registry.resolve? id)

def emptyArray : Object :=
  { kind := .array
    prototype := some Intrinsic.arrayPrototype
    properties := Entries.empty.insert .length (.data (.number (.ofNat 0)) true false false) }

def newStandIn (handle : Handle) : HostAct ObjectId := do
  match handle with
  | .sequence s =>
    let target ← Act.newObject emptyArray
    Act.expose (.sequence s) { kind := .sequenceProxy s target [], prototype := none } rfl
  | .plain p =>
    let target ← Act.newObject (.bare .ordinary Intrinsic.objectPrototype)
    Act.expose (.plain p) { kind := .plainProxy p target, prototype := none } rfl
  | .function f =>
    let host ← Act.read (·.heap.function? f)
    let (name, arity) := match host with
      | some host => (host.name, host.arity.least)
      | none => ("", 0)
    Act.expose (.function f) (.function (.hostFunction f) (.ofString name) arity) rfl

/-- The one stand-in of a handle. -/
def standIn (handle : Handle) : HostAct ScriptValue := do
  match ← standIn? handle with
  | some id => return .object id
  | none => return .object (← newStandIn handle)

/-- The object a reference denotes. A runtime that goes releases the references it knows; one that
it did not release would be refused by the engine of another runtime. -/
def restore (what : String) (ref : ScriptRef) : HostAct ObjectId := do
  if ref.runtime = (← Act.read (·.runtime)) then return ref.object
  else if (← Act.read (·.released)).contains (ref.runtime, ref.number) then
    Act.fail (.conversion (.released what))
  else Act.fail (.engine .foreignReference)

/-- A script error with a class name, a message, and a stack if one is given. Names outside the
standard classes are put on a general error. -/
def errorObject (name message : String) (stack : Option String) : Object :=
  let made := errorProperties (.ofString message)
  let named :=
    if (Intrinsic.errorPrototype? name).isNone then
      made.insert (.ofString "name") (.hidden (.ofString name))
    else made
  { kind := .error
    prototype := some ((Intrinsic.errorPrototype? name).getD Intrinsic.errorPrototype)
    properties := match stack with
      | some stack => named.insert (.ofString "stack") (.hidden (.ofString stack))
      | none => named }

/-- A number as it crosses into the script: without the sign of a zero. -/
def crossing (d : Double) : Double := if d.isZero then .zero false else d

def toScript (v : Value) : HostAct ScriptValue :=
  match v with
  | .undefined => return .undefined
  | .null => return .null
  | .bool b => return .bool b
  | .number d => return .number (crossing d)
  | .string s => return .ofString s
  | .sequence id => standIn (.sequence id)
  | .plain id => standIn (.plain id)
  | .function (.host id) => standIn (.function id)
  | .function (.script ref _) => return .object (← restore "script function" ref)
  | .date millis => do
    return .object (← Act.newObject (.bare (.date (.ofInt millis)) Intrinsic.datePrototype))
  | .error e => return .object (← Act.newObject (errorObject e.name e.message e.stack))
  | .object ref => return .object (← restore "script object" ref)

/-! ### Host errors in the script -/

/-- Throws a host error into the script as an error object that remembers it. Failures of the engine
itself become plain type errors. -/
def throwIntoScript {α : Type} (e : Error) : ScriptAct α :=
  match e with
  | .engine fault => Act.throwType fault.message
  | e => do Act.fail (.object (← Act.raise e (errorObject e.scriptName e.message e.stack) rfl))

def intoScript {α : Type} (x : HostAct α) : ScriptAct α := x.recover throwIntoScript

end Bridge

end ScriptBridge
