import ScriptBridge.Picture.OfValue
import ScriptBridge.Script.Eval
import ScriptBridge.Sequence.Method

/-!
Evaluating host expressions, and running host functions.
-/

namespace ScriptBridge

/-! ### Programs -/

namespace Script

/-- Runs a program for its value. At the top, `this` is the global object and there are no
arguments. -/
def run (r : Reentry) : ScriptSource → ScriptAct ScriptValue
  | .malformed => Act.throwNew "SyntaxError" "variable name expected"
  | .expression e => eval r { arguments := none, this := .object Intrinsic.globalObject } e

end Script

namespace Host

/-- The function around a host expression: its name, `this` and the arguments. -/
structure Scope where
  function : String
  this : Value := .undefined
  arguments : List Value := []

/-- Host code outside functions. -/
def Scope.top : Scope := { function := "main" }

/-! ### Operations on evaluated operands -/

def failure (function : String) (kind : FailureKind) (message : String) : Error :=
  match kind with
  | .host => .host function message
  | .argument => .argument (.custom message)
  | .logic => .logic (.custom message)
  | .range => .conversion (.custom "RangeError" message)
  | .type => .conversion (.custom "TypeError" message)
  | .length => .conversion .invalidLength
  | .notCallable => .argument (.notCallable function)
  | .exception name => Error.exception name message

/-- The values a walk along a cursor still gives, at most `steps` of them. -/
def cursorItems (c : Cursor) : Nat → HostAct (List Value)
  | 0 => return []
  | steps + 1 => do
    let (item, c) := c.step (← Act.elements c.sequence)
    match item with
    | none => return []
    | some (.key index) => return .ofNat index :: (← cursorItems c steps)
    | some (.value v) => return v :: (← cursorItems c steps)
    | some (.entry index v) =>
      let pair ← Act.newSequence [.ofNat index, v]
      return .sequence pair :: (← cursorItems c steps)

/-- All values a cursor gives; nothing changes the sequence meanwhile. -/
def drained (c : Cursor) : HostAct (List Value) := do
  cursorItems c ((← Act.elements c.sequence).length + 1)

def expectSequence : Value → Except Error SequenceId
  | .sequence s => .ok s
  | v => .error (.conversion (.mismatch "array" v.typeName))

def expectFunction : Value → Except Error Callback
  | .function f => .ok f
  | v => .error (.conversion (.mismatch "function" v.typeName))

/-- Calls a method of a value that has to be a sequence; a cursor is collected into a sequence. -/
def callMethod (r : Reentry) (target : Value) (method : String) (args : List Value) :
    HostAct Value := do
  let s ← Act.ofExcept (expectSequence target)
  match ← Sequence.callNamed r s method args with
  | .value v => return v
  | .cursor c => return .sequence (← Act.newSequence (← drained c))

def nestedIn (v : Value) : Nat → HostAct Value
  | 0 => return v
  | depth + 1 => do return .sequence (← Act.newSequence [← nestedIn v depth])

def log (r : Reentry) (v : Value) : HostAct Unit := do
  let picture ← Picture.ofValue r v
  Act.log picture

/-- Joins texts where one operand is a text; adds numbers otherwise. -/
def add (h : Heap) (a b : Value) : Value :=
  match a, b with
  | .string _, _ | _, .string _ => .string (String.ofList (h.text a ++ h.text b))
  | a, b => .number ((h.number a).add (h.number b))

def applyUnary (r : Reentry) (op : HostUnary) (v : Value) : HostAct Value := do
  match op with
  | .not => return .bool (!v.truthy)
  | .text => Act.read fun w => .string (w.heap.textString v)
  | .typeName => return .string v.typeName
  | .log =>
    log r v
    return v

def applyBinary (r : Reentry) (op : HostBinary) (a b : Value) : HostAct Value := do
  let h ← Act.read (·.heap)
  match op with
  | .add => return add h a b
  | .subtract => return .number ((h.number a).sub (h.number b))
  | .multiply => return .number ((h.number a).mul (h.number b))
  | .remainder => return .number ((h.number a).rem (h.number b))
  | .less => return .bool ((h.number a).lt (h.number b))
  | .greater => return .bool ((h.number b).lt (h.number a))
  | .strictEqual => return .bool (a.strictEquals b)
  | .get => Bridge.property r a (h.textString b)

/-! ### Expressions -/

mutual

def eval (r : Reentry) (scope : Scope) : HostExpr → HostAct Value
  | .undefined => return .undefined
  | .null => return .null
  | .bool b => return .bool b
  | .number d => return .number d
  | .string s => return .string s
  | .date millis => return .date millis
  | .error name message stack => return .error { name, message, stack }
  | .sequence items => do return .sequence (← Act.newSequence (← evalAll r scope items))
  | .plain keys values => do
    return .plain (← Act.newPlain (.ofList (keys.zip (← evalAll r scope values))))
  | .function name arity body => do
    return .function (.host (← Act.newFunction { name, arity, body := .expression body }))
  | .variable name => Act.read fun w => (w.boundTo? name).getD .undefined
  | .argument index => return scope.arguments.getD index .undefined
  | .argumentCount => return .ofNat scope.arguments.length
  | .this => return scope.this
  | .range count => do
    return .sequence (← Act.newSequence ((List.range count).map Value.ofNat))
  | .repeated text count => return .string (String.ofList (List.replicate count text.toList).flatten)
  | .nested depth value => do nestedIn (← eval r scope value) depth
  | .set object key value => do
    let target ← eval r scope object
    let key ← eval r scope key
    let v ← eval r scope value
    Bridge.setProperty r target (← Act.read (·.heap.textString key)) v
    return v
  | .callMethod sequence method args => do
    let target ← eval r scope sequence
    let args ← evalAll r scope args
    callMethod r target method args
  | .apply function receiver args => do
    let f ← eval r scope function
    let receiver ← eval r scope receiver
    let args ← evalAll r scope args
    Bridge.invoke r (← Act.ofExcept (expectFunction f)) receiver args
  | .all items => do return ((← evalAll r scope items).getLast?).getD .undefined
  | .conditional test yes no => do
    if (← eval r scope test).truthy then eval r scope yes else eval r scope no
  | .unary op operand => do applyUnary r op (← eval r scope operand)
  | .binary op left right => do
    let a ← eval r scope left
    let b ← eval r scope right
    applyBinary r op a b
  | .fail kind message => Act.fail (failure scope.function kind message)
  | .script source => do Bridge.toHost r (← Bridge.intoHost r (Script.run r source))

def evalAll (r : Reentry) (scope : Scope) : List HostExpr → HostAct (List Value)
  | [] => return []
  | e :: rest => do
    let v ← eval r scope e
    return v :: (← evalAll r scope rest)

end

/-! ### Functions -/

def checkArity (f : HostFunction) (passed : Nat) : Except Error Unit :=
  if passed < f.arity.least then .error (.argument (.tooFew f.name f.arity.least passed))
  else
    match f.arity.greatest with
    | some greatest =>
      if greatest < passed then .error (.argument (.tooMany f.name greatest passed)) else .ok ()
    | none => .ok ()

/-- The exit code a number asks for: its whole part in 32 bits, and 1 if there is none. -/
def exitStatus (d : Double) : Int :=
  if d.isFinite then max (-(2 ^ 31)) (min d.toInt (2 ^ 31 - 1)) else 1

def runBody (r : Reentry) (f : HostFunction) (this : Value) (args : List Value) : HostAct Value := do
  match f.body with
  | .expression e => eval r { function := f.name, this, arguments := args } e
  | .exit =>
    let code ← match args with
      | [] | .undefined :: _ => pure 0
      | v :: _ => Act.read fun w => exitStatus (w.heap.number v)
    Act.exit code
    return .undefined
  | .log =>
    let v := args.getD 0 .undefined
    log r v
    return v

/-- Runs a host function: first its arguments are counted. -/
def runFunction (r : Reentry) (id : HostFunctionId) (this : Value) (args : List Value) :
    HostAct Value := do
  match ← Act.read (·.heap.function? id) with
  | none => return .undefined
  | some f =>
    Act.ofExcept (checkArity f args.length)
    runBody r f this args

end Host

end ScriptBridge
