import ScriptBridge.Bridge.StandIn
import ScriptBridge.Sequence.MethodName

/-!
Reading properties. A stand-in answers for the container it stands for; keys that the container does
not have are read from its target and, like those of any object, along the prototypes.
-/

namespace ScriptBridge

/-- Evaluation one level of calls down: what everything that calls functions is built on. -/
structure Reentry where
  call : ObjectId → ScriptValue → List ScriptValue → ScriptAct ScriptValue
  /-- Runs a host function: counts the arguments, then does its work. -/
  runHost : HostFunctionId → Value → List Value → HostAct Value
  /-- A bound on how deep data is followed. -/
  bound : Nat

namespace Script

/-- The function object of a host-served method of a stand-in, made on first use. -/
def boundMethod (proxy : ObjectId) (method : SequenceMethod) : ScriptAct ScriptValue := do
  match ← Act.object? proxy with
  | some { kind := .sequenceProxy s _ methods, .. } =>
    match methods.find? (·.1 == method) with
    | some (_, id) => return .object id
    | none =>
      return .object (← Act.addMethod proxy s method
        (.function (.sequenceMethod s method) (.ofString method.name) 0))
  | _ => return .undefined

/-- The host-served method a key asks for. -/
def methodOfKey? (key : PropertyKey) : Option SequenceMethod :=
  match key with
  | .symbol s => if s = .iterator then some .values else none
  | .name t => t.toString?.bind SequenceMethod.ofName?
  | .index _ => none

/-- The text under which a plain object is asked for a key; ill-formed text asks for the empty
key. -/
def plainKey? (key : PropertyKey) : Option String := key.text?.map (·.toString?.getD "")

/-- Reads a property of an object or, further along, of its prototypes, on behalf of `receiver`; at
most `steps` objects are asked. -/
def getFrom (r : Reentry) (receiver : ScriptValue) (key : PropertyKey) :
    Nat → Option ObjectId → ScriptAct ScriptValue
  | _, none => return .undefined
  | 0, some _ => Act.giveUp
  | steps + 1, some id => do
    match ← Act.object? id with
    | none => return .undefined
    | some o =>
      match o.kind with
      | .sequenceProxy s target _ =>
        if key = .length then return .number (.ofNat (← Act.elements s).length)
        else
          match key, methodOfKey? key with
          | .index n, _ => Bridge.intoScript (Bridge.toScript ((← Act.elements s)[n]?.getD .undefined))
          | _, some method => boundMethod id method
          | _, none => getFrom r receiver key steps (some target)
      | .plainProxy p target =>
        let entries ← Act.read (·.heap.plain p)
        match (plainKey? key).bind entries.get? with
        | some v => Bridge.intoScript (Bridge.toScript v)
        | none => getFrom r receiver key steps (some target)
      | _ =>
        match o.properties.get? key with
        | some (.data v ..) => return v
        | some (.accessor (some getter) ..) => r.call getter receiver []
        | some (.accessor none ..) => return .undefined
        | none => getFrom r receiver key steps o.prototype

/-- More steps than any chain of prototypes. -/
def chainBound {ε : Type} : Act ε Nat := Act.read (·.engine.objects.size + 1)

def get (r : Reentry) (id : ObjectId) (key : PropertyKey) : ScriptAct ScriptValue := do
  getFrom r (.object id) key (← chainBound) (some id)

def keyName (key : PropertyKey) : Utf16 :=
  match key with
  | .symbol (.wellKnown name) => .ofString ("Symbol." ++ name)
  | .symbol (.fresh _ description) => description.getD []
  | key => key.text?.getD []

/-- Reads a property of any value; primitives have the properties of their prototypes. -/
def getValue (r : Reentry) (v : ScriptValue) (key : PropertyKey) : ScriptAct ScriptValue := do
  let inherited (prototype : ObjectId) : ScriptAct ScriptValue := do
    getFrom r v key (← chainBound) (some prototype)
  match v with
  | .object id => get r id key
  | .undefined =>
    Act.throwNamed "TypeError" "cannot read property '" (keyName key) "' of undefined"
  | .null => Act.throwNamed "TypeError" "cannot read property '" (keyName key) "' of null"
  | .string t =>
    match key with
    | .index n =>
      match t[n]? with
      | some u => return .string [u]
      | none => inherited Intrinsic.stringPrototype
    | key =>
      if key = .length then return .number (.ofNat t.length)
      else inherited Intrinsic.stringPrototype
  | .bool _ => inherited Intrinsic.booleanPrototype
  | .number _ => inherited Intrinsic.numberPrototype
  | .symbol _ => inherited Intrinsic.symbolPrototype
  | .bigint _ => inherited Intrinsic.bigintPrototype

/-- Whether calling a value does something. -/
def callable? (v : ScriptValue) : ScriptAct (Option ObjectId) := do
  match v with
  | .object id =>
    match ← Act.object? id with
    | some { kind := .function _, .. } => return some id
    | _ => return none
  | _ => return none

def callValue (r : Reentry) (f this : ScriptValue) (args : List ScriptValue) :
    ScriptAct ScriptValue := do
  match ← callable? f with
  | some id => r.call id this args
  | none => Act.throwType "not a function"

def prototypeOf {ε : Type} (id : ObjectId) : Act ε (Option ObjectId) := do
  match ← Act.object? id with
  | none => return none
  | some o =>
    match o.kind with
    | .sequenceProxy _ target _ | .plainProxy _ target =>
      return (← Act.object? target).bind (·.prototype)
    | _ => return o.prototype

/-- Whether an object inherits from a prototype, asking at most `steps` objects. -/
def inheritsWithin {ε : Type} (prototype : ObjectId) : Nat → ObjectId → Act ε Bool
  | 0, _ => return false
  | steps + 1, id => do
    match ← prototypeOf id with
    | none => return false
    | some p => if p = prototype then return true else inheritsWithin prototype steps p

def inherits {ε : Type} (id prototype : ObjectId) : Act ε Bool := do
  inheritsWithin prototype (← chainBound) id

end Script

end ScriptBridge
