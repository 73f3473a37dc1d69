import ScriptBridge.Script.Builtins
import ScriptBridge.Sequence.Method

/-!
Calling function objects.
-/

namespace ScriptBridge.Script

def setCode (id : ObjectId) (code : FunctionCode) : ScriptAct Unit := setKind id (.function code)

/-! ### Cursors of host sequences -/

def newCursorObject (c : Cursor) : HostAct ScriptValue := do
  let next ← newMethod "" (.cursorNext c)
  let id ← Act.newObject (.bare .ordinary Intrinsic.arrayIteratorPrototype)
  Act.putProperty id (.ofString "next") (.hidden (.object next))
  return .object id

/-- An item of a cursor as a value; an entry is a new sequence of two. -/
def itemValue : CursorItem → HostAct Value
  | .key index => return .ofNat index
  | .value v => return v
  | .entry index v => return .sequence (← Act.newSequence [.ofNat index, v])

/-- Steps the cursor behind a function. -/
def stepCursor (id : ObjectId) (c : Cursor) : ScriptAct ScriptValue := do
  let (item, c) := c.step (← Act.elements c.sequence)
  setCode id (.cursorNext c)
  match item with
  | none => newIteratorResult .undefined true
  | some item =>
    let v ← Bridge.intoScript do Bridge.toScript (← itemValue item)
    newIteratorResult v false

def callSequenceMethod (r : Reentry) (s : SequenceId) (method : SequenceMethod)
    (args : List ScriptValue) : ScriptAct ScriptValue :=
  Bridge.intoScript do
    let args ← Act.mapAll (Bridge.toHost r) args
    match ← Sequence.call r s method args with
    | .value v => Bridge.toScript v
    | .cursor c => newCursorObject c

/-! ### Iterables with fixed results -/

def openFixed (values flags : List ScriptExpr) (closes : Bool) : ScriptAct ScriptValue := do
  let next ← newMethod "next" (.iterableNext values flags)
  let methods := [("next", ScriptValue.object next)]
  if closes then
    let close ← newMethod "return" .iterableReturn
    newRecord (methods ++ [("return", .object close)])
  else newRecord methods

/-- The next fixed result; past the last there is nothing to call. -/
def nextFixed (r : Reentry) (id : ObjectId) (values flags : List ScriptExpr) :
    ScriptAct ScriptValue := do
  match values, flags with
  | value :: values, flag :: flags =>
    setCode id (.iterableNext values flags)
    let scope : Scope := { arguments := some [], this := .undefined }
    let v ← eval r scope value
    let done ← eval r scope flag
    newRecord [("value", v), ("done", done)]
  | _, _ => Act.throwType "not a function"

/-! ### Dispatch -/

def callObject (r : Reentry) (id : ObjectId) (this : ScriptValue) (args : List ScriptValue) :
    ScriptAct ScriptValue := do
  match ← Act.object? id with
  | some { kind := .function code, .. } =>
    match code with
    | .closure body => eval r { arguments := some args, this } body
    | .hostFunction f => Bridge.invokeFromScript r f this args
    | .sequenceMethod s method => callSequenceMethod r s method args
    | .cursorNext c => stepCursor id c
    | .openIterable values flags closes => openFixed values flags closes
    | .iterableNext values flags => nextFixed r id values flags
    | .iterableReturn =>
      logText r "return"
      newRecord []
    | .builtin b => callBuiltin r b this args
  | _ => Act.throwType "not a function"

end ScriptBridge.Script
