import ScriptBridge.Bridge.Invoke

/-!
Taking pictures of values. A container that a session variable holds appears as that variable, one
that lies inside itself as the number of levels to go out.
-/

namespace ScriptBridge

namespace Value

/-- Whether a value has an identity: it is a container, a function or a script object. -/
def hasIdentity : Value → Bool
  | sequence _ | plain _ | function _ | object _ => true
  | _ => false

end Value

namespace Picture

/-- The first variable, by name, that holds a value. -/
def variableOf? (v : Value) : HostAct (Option String) :=
  Act.read fun w => (w.bindings.find? (·.2.strictEquals v)).map (·.1)

/-- The listed properties of a script object, read by `read`; failures are kept. -/
def propertiesOf (r : Reentry) (v : Value) (id : ObjectId) (read : Value → HostAct Picture) :
    HostAct (List (String × Picture)) := do
  let keys ← Bridge.intoHost r (Script.listedKeys id)
  Act.mapAll (fun key => do
    let name := ((Script.keyName key).toString?).getD ""
    match ← (Bridge.property r v name).attempt with
    | .ok item => return (name, ← read item)
    | .error e => return (name, .failure e)) keys

mutual

/-- The picture of a value in its place: a variable, a container around it, or itself. -/
def placed (r : Reentry) : Nat → List Value → Value → HostAct Picture
  | 0, _, _ => Act.giveUp
  | depth + 1, around, v => do
    if v.hasIdentity then
      match ← variableOf? v with
      | some name => return .variable name
      | none =>
        match around.findIdx? (·.strictEquals v) with
        | some i => return .enclosing (i + 1)
        | none => writtenOut r depth around v
    else writtenOut r depth around v

/-- The picture of a value itself, whatever holds it; `around` are the containers it lies in, the
nearest first. -/
def writtenOut (r : Reentry) : Nat → List Value → Value → HostAct Picture
  | 0, _, _ => Act.giveUp
  | depth + 1, around, v => do
    let inner (item : Value) : HostAct Picture := placed r depth (v :: around) item
    match v with
    | .undefined => return .undefined
    | .null => return .null
    | .bool b => return .bool b
    | .number d => return .number d
    | .string s => return .string s
    | .sequence id => return .sequence (← Act.mapAll inner (← Act.elements id))
    | .plain id =>
      let entries ← Act.read (·.heap.plain id)
      return .plain (← Act.mapAll (fun (key, item) => do return (key, ← inner item)) entries.toList)
    | .function (.host f) => Act.read fun w => .function (w.heap.functionName f) true
    | .function (.script _ name) => return .function name false
    | .date millis => return .date millis
    | .error e => return .error e
    | .object ref =>
      match ← (Bridge.restore "script object" ref).attempt (δ := Error) with
      | .error _ => return .released
      | .ok id => return .script (← propertiesOf r v id inner)

end

def ofValue (r : Reentry) (v : Value) : HostAct Picture := placed r r.bound [] v

/-- The picture of what a variable holds: written out, unless a variable before it holds the
same. -/
def ofVariable (r : Reentry) (name : String) (v : Value) : HostAct Picture := do
  if v.hasIdentity && (← variableOf? v) = some name then writtenOut r r.bound [] v
  else ofValue r v

end Picture

end ScriptBridge
