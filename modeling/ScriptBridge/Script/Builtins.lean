import ScriptBridge.Script.ArrayMethod
import ScriptBridge.Script.Eval

/-!
The functions every script finds in place.
-/

namespace ScriptBridge.Script

def logText (r : Reentry) (text : String) : ScriptAct Unit := do
  let _ ← callValue r (← globalVariable r "log") .undefined [.ofString text]

/-! ### Generators -/

/-- Moves an object on to a later state of its kind. -/
def setKind (id : ObjectId) (kind : ObjectKind) : ScriptAct Unit :=
  Act.editObject id (·.moved kind) (·.becomes_moved kind)

/-- Ends a generator that was running: what has to be done at the end is done. -/
def finishGenerator (r : Reentry) (id : ObjectId) : ScriptAct Unit := do
  setKind id (.generator .finished)
  logText r "finally"

/-- The state of a generator, which may not be running. -/
def generatorState (this : ScriptValue) : ScriptAct (ObjectId × GeneratorState) := do
  match this with
  | .object id =>
    match ← Act.object? id with
    | some { kind := .generator .running, .. } =>
      Act.throwType "cannot invoke a running generator"
    | some { kind := .generator state, .. } => return (id, state)
    | _ => Act.throwType "not a generator"
  | _ => Act.throwType "not a generator"

def generatorNext (r : Reentry) (this : ScriptValue) : ScriptAct ScriptValue := do
  let (id, state) ← generatorState this
  match state with
  | .suspended _ [] =>
    finishGenerator r id
    newIteratorResult .undefined true
  | .suspended _ (item :: rest) =>
    setKind id (.generator .running)
    match ← (eval r { arguments := some [], this := .undefined } item).attempt with
    | .ok v =>
      setKind id (.generator (.suspended true rest))
      newIteratorResult v false
    | .error thrown =>
      finishGenerator r id
      Act.fail thrown
  | _ => newIteratorResult .undefined true

/-- Ends a generator where it stands. One that has not started has nothing to do at its end. -/
def endGenerator (r : Reentry) (this : ScriptValue) : ScriptAct Unit := do
  let (id, state) ← generatorState this
  match state with
  | .suspended true _ => finishGenerator r id
  | _ => setKind id (.generator .finished)

/-! ### Iterators -/

/-- One step of an iterator over an array-like object. -/
def arrayIteratorNext (r : Reentry) (this : ScriptValue) : ScriptAct ScriptValue := do
  match this with
  | .object id =>
    match ← Act.object? id with
    | some { kind := .arrayIterator none .., .. } => newIteratorResult .undefined true
    | some { kind := .arrayIterator (some source) kind position, .. } =>
      let length ← lengthOf r source
      if position < length then
        setKind id (.arrayIterator (some source) kind (position + 1))
        let index : ScriptValue := .number (.ofNat position)
        match kind with
        | .keys => newIteratorResult index false
        | .values => newIteratorResult (← elementAt r source position) false
        | .entries =>
          let v ← elementAt r source position
          newIteratorResult (← newArray [index, v]) false
      else
        setKind id (.arrayIterator none kind position)
        newIteratorResult .undefined true
    | _ => Act.throwType "Array Iterator object expected"
  | _ => Act.throwType "Array Iterator object expected"

/-- One step of an iterator over a text: a character at a time. -/
def stringIteratorNext (this : ScriptValue) : ScriptAct ScriptValue := do
  match this with
  | .object id =>
    match ← Act.object? id with
    | some { kind := .stringIterator [], .. } => newIteratorResult .undefined true
    | some { kind := .stringIterator (u :: v :: rest), .. } =>
      if Utf16.isLead u && Utf16.isTrail v then
        setKind id (.stringIterator rest)
        newIteratorResult (.string [u, v]) false
      else
        setKind id (.stringIterator (v :: rest))
        newIteratorResult (.string [u]) false
    | some { kind := .stringIterator [u], .. } =>
      setKind id (.stringIterator [])
      newIteratorResult (.string [u]) false
    | _ => Act.throwType "String Iterator object expected"
  | _ => Act.throwType "String Iterator object expected"

/-! ### Objects and functions -/

/-- The class of an object as its text names it. -/
def className (id : ObjectId) : ScriptAct String := do
  if ← isArray (ε := ScriptValue) (.object id) then return "Array"
  else
    match ← Act.object? id with
    | some { kind := .function _, .. } => return "Function"
    | some { kind := .error, .. } => return "Error"
    | some { kind := .date _, .. } => return "Date"
    | some { kind := .wrapper (.bool _), .. } => return "Boolean"
    | some { kind := .wrapper (.number _), .. } => return "Number"
    | some { kind := .wrapper (.string _), .. } => return "String"
    | _ => return "Object"

def objectToString (r : Reentry) (this : ScriptValue) : ScriptAct ScriptValue := do
  match this with
  | .undefined => return .ofString "[object Undefined]"
  | .null => return .ofString "[object Null]"
  | v =>
    let id ← toObject v
    let name ← className id
    match ← get r id (.symbol .toStringTag) with
    | .string tag => return .string (.ofString "[object " ++ tag ++ .ofString "]")
    | _ => return .ofString ("[object " ++ name ++ "]")

def prototypeValue (this : ScriptValue) : ScriptAct ScriptValue := do
  let prototype ← prototypeOf (← toObject this)
  return (prototype.map .object).getD .null

def setPrototype (id : ObjectId) (prototype : Option ObjectId) : ScriptAct Unit := do
  let circular ← match prototype with
    | some p => if p = id then pure true else inherits p id
    | none => pure false
  if circular then Act.throwType "circular prototype chain"
  else
    let put (id : ObjectId) : ScriptAct Unit :=
      Act.editObject id ({ · with prototype }) (·.becomes_prototype prototype)
    match ← Act.object? id with
    | some o =>
      match o.kind with
      | .sequenceProxy _ target _ | .plainProxy _ target => put target
      | _ => put id
    | none => return ()

def assignPrototype (this v : ScriptValue) : ScriptAct ScriptValue := do
  match this, v with
  | .undefined, _ | .null, _ => Act.throwType "not an object"
  | .object id, .object p => setPrototype id (some p)
  | .object id, .null => setPrototype id none
  | _, _ => pure ()
  return .undefined

/-- The items of an array-like argument list; null and undefined are the empty one. -/
def argumentItems (r : Reentry) (v : ScriptValue) : ScriptAct (List ScriptValue) := do
  match v with
  | .undefined | .null => return []
  | .object id => itemsOf r id
  | _ => Act.throwType "not an object"

def functionText (r : Reentry) (this : ScriptValue) : ScriptAct ScriptValue := do
  match ← callable? this with
  | none => Act.throwType "not a function"
  | some f =>
    let name ← match ← get r f (.ofString "name") with
      | .string t => pure t
      | _ => pure []
    return .string (.ofString "function " ++ name ++ .ofString "() \x7b\n    [native code]\n\x7d")

def errorText (r : Reentry) (this : ScriptValue) : ScriptAct ScriptValue := do
  match this with
  | .object id =>
    let part (key default : String) : ScriptAct Utf16 := do
      match ← get r id (.ofString key) with
      | .undefined => return .ofString default
      | v => toText r v
    let name ← part "name" "Error"
    let message ← part "message" ""
    return .string (if name.isEmpty then message
      else if message.isEmpty then name
      else name ++ .ofString ": " ++ message)
  | _ => Act.throwType "not an object"

/-! ### Dates and primitives -/

def dateMillis (this : ScriptValue) : ScriptAct Double := do
  match this with
  | .object id =>
    match ← Act.object? id with
    | some { kind := .date millis, .. } => return millis
    | _ => Act.throwType "not a Date object"
  | _ => Act.throwType "not a Date object"

def dateStamp (this : ScriptValue) : ScriptAct ScriptValue := do
  let millis ← dateMillis this
  if millis.isFinite then return .string (.ofChars (Calendar.scriptStamp millis.toInt))
  else Act.throwNew "RangeError" "Date value is NaN"

def dateText (this : ScriptValue) : ScriptAct ScriptValue := do
  let millis ← dateMillis this
  if millis.isFinite then return .string (.ofChars (Calendar.scriptText millis.toInt))
  else return .ofString "Invalid Date"

def dateDocument (r : Reentry) (this : ScriptValue) : ScriptAct ScriptValue := do
  let id ← toObject this
  match ← toPrimitive r .number (.object id) with
  | .number d =>
    if d.isFinite then callValue r (← get r id (.ofString "toISOString")) (.object id) []
    else return .null
  | _ => callValue r (← get r id (.ofString "toISOString")) (.object id) []

def datePrimitive (r : Reentry) (this hint : ScriptValue) : ScriptAct ScriptValue := do
  match this with
  | .object id =>
    primitiveFrom r id
      (if hint = .ofString "number" then ["valueOf", "toString"] else ["toString", "valueOf"])
  | _ => Act.throwType "not an object"

/-! ### Dispatch -/

/-- Does what a function in place does. -/
def callBuiltin (r : Reentry) (b : Builtin) (this : ScriptValue) (args : List ScriptValue) :
    ScriptAct ScriptValue := do
  let arg (i : Nat) : ScriptValue := args.getD i .undefined
  match b with
  | .objectConstructor =>
    match arg 0 with
    | .undefined | .null => newRecord []
    | v => return .object (← toObject v)
  | .arrayConstructor =>
    match args with
    | [.number d] => newSparse r d
    | items => newArray items
  | .stringConstructor => if args.isEmpty then return .string [] else stringOf r (arg 0)
  | .numberConstructor =>
    if args.isEmpty then return .number (.zero false)
    else
      match ← toNumeric r (arg 0) with
      | .number d => return .number d
      | .bigint n => return .number (.ofInt n)
  | .booleanConstructor => return .bool (truthy (arg 0))
  | .symbolConstructor => symbolOf r (arg 0)
  | .promiseConstructor => Act.throwType "must be called with new"
  | .errorConstructor name =>
    let message ← match arg 0 with
      | .undefined => pure []
      | v => toText r v
    return .object (← Act.newError name message)
  | .functionConstructor | .dateConstructor | .bigintConstructor => return .undefined
  | .other name _ =>
    if name = "toLocaleString" then callValue r (← getValue r this (.ofString "toString")) this []
    else return .undefined
  | .objectToString => objectToString r this
  | .objectValueOf => return .object (← toObject this)
  | .hasOwnProperty =>
    let key ← toKey r (arg 0)
    return .bool (← ownProperty? (← toObject this) key).isSome
  | .protoGetter => prototypeValue this
  | .protoSetter => assignPrototype this (arg 0)
  | .functionCall => callValue r this (arg 0) (args.drop 1)
  | .functionApply => do callValue r this (arg 0) (← argumentItems r (arg 1))
  | .functionToString => functionText r this
  | .arrayIsArray => return .bool (← isArray (arg 0))
  | .arrayMethod name _ => arrayMethod r name (← toObject this) args
  | .iteratorSelf | .speciesGetter => return this
  | .arrayIteratorNext => arrayIteratorNext r this
  | .generatorNext => generatorNext r this
  | .generatorReturn =>
    endGenerator r this
    newIteratorResult (arg 0) true
  | .generatorThrow =>
    endGenerator r this
    Act.fail (arg 0)
  | .errorToString => errorText r this
  | .dateGetTime => return .number (← dateMillis this)
  | .dateToString => dateText this
  | .dateToStamp => dateStamp this
  | .dateToJson => dateDocument r this
  | .dateToPrimitive => datePrimitive r this (arg 0)
  | .primitiveToString => stringOf r (← unwrapped this)
  | .primitiveValueOf => unwrapped this
  | .stringIterator =>
    return .object (← Act.newObject
      (.bare (.stringIterator (← toText r this)) Intrinsic.stringIteratorPrototype))
  | .stringIteratorNext => stringIteratorNext this
  | .jsonStringify => stringify r (arg 0)

end ScriptBridge.Script
