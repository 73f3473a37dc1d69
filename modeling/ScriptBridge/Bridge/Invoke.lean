import ScriptBridge.Bridge.ToHost
import ScriptBridge.Script.Properties

/-!
What host code does through the bridge: calling functions and reading or writing properties.
-/

namespace ScriptBridge.Bridge

def invoke (r : Reentry) (f : Callback) (this : Value) (args : List Value) : HostAct Value := do
  match f with
  | .host id => r.runHost id this args
  | .script ref _ =>
    let id ← restore "script function" ref
    let this ← toScript this
    let args ← Act.mapAll toScript args
    let result ← intoHost r (r.call id this args)
    toHost r result

def invokeFromScript (r : Reentry) (f : HostFunctionId) (this : ScriptValue)
    (args : List ScriptValue) : ScriptAct ScriptValue :=
  intoScript do
    let this ← toHost r this
    let args ← Act.mapAll (toHost r) args
    let result ← r.runHost f this args
    toScript result

def property (r : Reentry) (target : Value) (key : String) : HostAct Value := do
  match target with
  | .plain id => return (((← Act.read (·.heap.plain id)).get? key).getD .undefined)
  | .sequence s =>
    let items ← Act.elements s
    if key = "length" then return .ofNat items.length
    else return ((Sequence.slotOfKey? key).bind (items[·]?)).getD .undefined
  | .object ref =>
    let id ← restore "script object" ref
    toHost r (← intoHost r (Script.get r id (.ofString key)))
  | _ => return .undefined

def setProperty (r : Reentry) (target : Value) (key : String) (v : Value) : HostAct Unit := do
  match target with
  | .plain id => Act.setEntry id key v
  | .sequence s =>
    match Sequence.slotOfKey? key with
    | some index => Sequence.writeSlotWithin s index v
    | none => Act.fail (.logic (.notAnIndex key))
  | .object ref =>
    let id ← restore "script object" ref
    let v ← toScript v
    intoHost r (Script.set r id (.ofString key) v)
  | _ => return ()

end ScriptBridge.Bridge
