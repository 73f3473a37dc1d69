import ScriptBridge.Script.Operators

/-!
Evaluating script expressions. Operands are evaluated from left to right; the key of an assignment
is settled before its value is evaluated, and a method is looked up before its arguments are.
-/

namespace ScriptBridge.Script

/-! ### Names -/

def globalVariable (r : Reentry) (name : String) : ScriptAct ScriptValue := do
  let key := PropertyKey.ofString name
  if ← has Intrinsic.globalObject key then get r Intrinsic.globalObject key
  else Act.throwNamed "ReferenceError" "'" (.ofString name) "' is not defined"

def argumentList (scope : Scope) : ScriptAct (List ScriptValue) :=
  match scope.arguments with
  | some args => return args
  | none => Act.throwNew "ReferenceError" "'arguments' is not defined"

/-! ### Making functions and iterators -/

/-- A new function that evaluates an expression; it can be named anything. -/
def newClosure {ε : Type} (name : String) (body : ScriptExpr) : Act ε ScriptValue := do
  let id ← Act.newObject (.function (.closure body) (.ofString name) 0)
  let prototype ← Act.newObject (.bare .ordinary Intrinsic.objectPrototype)
    (Object.standsFor?_ordinary _)
  Act.putProperty prototype (.ofString "constructor") (.hidden (.object id))
  Act.putProperty id (.ofString "prototype") (.data (.object prototype) true false false)
  return .object id

/-- A function without a prototype of its own for objects it might make. -/
def newMethod {ε : Type} (name : String) (code : FunctionCode)
    (h : (ObjectKind.function code).standsFor? = none := by rfl) : Act ε ObjectId :=
  Act.newObject (.function code (.ofString name) 0) h

def newGenerator {ε : Type} (items : List ScriptExpr) : Act ε ScriptValue := do
  return .object (← Act.newObject
    (.bare (.generator (.suspended false items)) Intrinsic.generatorPrototype))

/-- An object whose iterators each give the same results from the start. -/
def newIterable {ε : Type} (values flags : List ScriptExpr) (closes : Bool) :
    Act ε ScriptValue := do
  let opener ← newMethod "[Symbol.iterator]" (.openIterable values flags closes)
  let id ← Act.newObject (.bare .ordinary Intrinsic.objectPrototype)
    (Object.standsFor?_ordinary _)
  Act.putProperty id (.symbol .iterator) (.open_ (.object opener))
  return .object id

def nestedIn {ε : Type} (v : ScriptValue) : Nat → Act ε ScriptValue
  | 0 => return v
  | depth + 1 => do newArray [← nestedIn v depth]

/-- An empty array that is then given a length. -/
def newSparse (r : Reentry) (length : Double) : ScriptAct ScriptValue := do
  let v ← newArray []
  setValue r v .length (.number length)
  return v

def newLiteral {ε : Type} (keys : List String) (values : List ScriptValue) : Act ε ScriptValue :=
  newRecord (keys.zip values)

/-! ### Thrown values -/

def isError (v : ScriptValue) : ScriptAct Bool := do
  match v with
  | .object id => inherits id Intrinsic.errorPrototype
  | _ => return false

/-- An array that tells what was thrown: class and message of an error, or the value. -/
def reportThrown (r : Reentry) (thrown : ScriptValue) : ScriptAct ScriptValue := do
  if ← isError thrown then
    let name ← getValue r thrown (.ofString "name")
    let message ← getValue r thrown (.ofString "message")
    newArray [.ofString "caught", name, message]
  else newArray [.ofString "thrown", thrown]

def throwWrapped (r : Reentry) (thrown : ScriptValue) : ScriptAct ScriptValue := do
  let message ← getValue r thrown (.ofString "message")
  match ← add r (.ofString "wrapped: ") message with
  | .string t => Act.fail (.object (← Act.newError "Error" t))
  | _ => Act.fail thrown

/-! ### Expressions -/

mutual

def eval (r : Reentry) (scope : Scope) : ScriptExpr → ScriptAct ScriptValue
  | .undefined => return .undefined
  | .null => return .null
  | .bool b => return .bool b
  | .number d => return .number d
  | .string s => return .ofString s
  | .bigint n => return .bigint n
  | .date millis => newDate millis
  | .error name message => newThrowable name message
  | .array items => do newArray (← evalAll r scope items)
  | .object keys values => do newLiteral keys (← evalAll r scope values)
  | .function name body => newClosure name body
  | .variable name => globalVariable r name
  | .argument index => do return (← argumentList scope).getD index .undefined
  | .argumentCount => do return .number (.ofNat (← argumentList scope).length)
  | .this => return scope.this
  | .repeated text count => return .string (List.replicate count (Utf16.ofString text)).flatten
  | .range count => newArray ((List.range count).map fun i => .number (.ofNat i))
  | .nested depth value => do nestedIn (← eval r scope value) depth
  | .sparse length => newSparse r length
  | .wellKnownSymbol name => return .symbol (.wellKnown name)
  | .unary .typeName (.variable name) => do
    if ← has Intrinsic.globalObject (.ofString name) then
      applyUnary r .typeName (← globalVariable r name)
    else return .ofString "undefined"
  | .unary op operand => do applyUnary r op (← eval r scope operand)
  | .binary op left right => do
    let a ← eval r scope left
    let b ← eval r scope right
    applyBinary r op a b
  | .set object key value => do
    let target ← eval r scope object
    let key ← eval r scope key
    match target with
    | .undefined | .null => Act.throwType "value has no property"
    | target =>
      let key ← toKey r key
      let v ← eval r scope value
      setValue r target key v
      return v
  | .setGlobal name value => do
    let v ← eval r scope value
    set r Intrinsic.globalObject (.ofString name) v
    return v
  | .define object key value => do
    let target ← eval r scope object
    let key ← eval r scope key
    let v ← eval r scope value
    defineOn r target key (.value v)
  | .defineGetter object key value => do
    let target ← eval r scope object
    let key ← eval r scope key
    defineOn r target key (.getter (← newMethod "get" (.closure value)))
  | .instanceOf value className => do
    let v ← eval r scope value
    return .bool (← isInstance r v (← globalVariable r className))
  | .callMethod object key args => do
    let target ← eval r scope object
    let key ← toKey r (← eval r scope key)
    let f ← getValue r target key
    let args ← evalAll r scope args
    callValue r f target args
  | .callFunction function args => do
    let f ← eval r scope function
    let args ← evalAll r scope args
    callValue r f .undefined args
  | .callWith function receiver args => do
    let f ← eval r scope function
    let method ← getValue r f (.ofString "call")
    let receiver ← eval r scope receiver
    let args ← evalAll r scope args
    callValue r method f (receiver :: args)
  | .log value => do
    let f ← globalVariable r "log"
    let v ← eval r scope value
    callValue r f .undefined [v]
  | .sequence items => do return ((← evalAll r scope items).getLast?).getD .undefined
  | .conditional test yes no => do
    if truthy (← eval r scope test) then eval r scope yes else eval r scope no
  | .throwNew name message => do Act.fail (← newThrowable name message)
  | .throwValue value => do Act.fail (← eval r scope value)
  | .attempt body => do
    match ← (eval r scope body).attempt with
    | .ok v => newArray [.ofString "ok", v]
    | .error thrown => reportThrown r thrown
  | .caught body => (eval r scope body).recover fun thrown => return thrown
  | .rethrow body => (eval r scope body).recover fun thrown => Act.fail thrown
  | .wrapError body => (eval r scope body).recover (throwWrapped r)
  | .generator items => newGenerator items
  | .iterable values flags closes => newIterable values flags closes
  | .later body => do
    Act.queue { body, scope }
    return .undefined

def evalAll (r : Reentry) (scope : Scope) : List ScriptExpr → ScriptAct (List ScriptValue)
  | [] => return []
  | e :: rest => do
    let v ← eval r scope e
    return v :: (← evalAll r scope rest)

end

end ScriptBridge.Script
