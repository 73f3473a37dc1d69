import ScriptBridge.Double.Basic

/-!
Script expressions.
-/

namespace ScriptBridge

inductive ScriptUnary where
  | text
  | typeName
  | not
  | json
  | isArray
  | keys
  | ownKeys
  | spread
  | openIterator
  | symbol
  | date
  | codeUnit
deriving DecidableEq, Repr

/-- Operations on two operands, evaluated in this order; `has` takes the key first. -/
inductive ScriptBinary where
  | add
  | subtract
  | multiply
  | remainder
  | less
  | greater
  | strictEqual
  | get
  | has
  | delete
  | descriptor
deriving DecidableEq, Repr

inductive ScriptExpr where
  | undefined
  | null
  | bool (b : Bool)
  | number (d : Double)
  | string (s : String)
  | bigint (n : Int)
  | date (millis : Double)
  /-- A new error object of a class; other names are put on an ordinary error. -/
  | error (name message : String)
  | array (items : List ScriptExpr)
  | object (keys : List String) (values : List ScriptExpr)
  | function (name : String) (body : ScriptExpr)
  | variable (name : String)
  /-- An argument of the function around. -/
  | argument (index : Nat)
  | argumentCount
  | this
  | repeated (text : String) (count : Nat)
  | range (count : Nat)
  /-- A value inside that many arrays. -/
  | nested (depth : Nat) (value : ScriptExpr)
  /-- An empty array whose length is then assigned. -/
  | sparse (length : Double)
  | wellKnownSymbol (name : String)
  | unary (op : ScriptUnary) (operand : ScriptExpr)
  | binary (op : ScriptBinary) (left right : ScriptExpr)
  | set (object key value : ScriptExpr)
  | setGlobal (name : String) (value : ScriptExpr)
  | define (object key value : ScriptExpr)
  /-- A property read through a function that evaluates `value` each time. -/
  | defineGetter (object key value : ScriptExpr)
  | instanceOf (value : ScriptExpr) (className : String)
  | callMethod (object key : ScriptExpr) (args : List ScriptExpr)
  | callFunction (function : ScriptExpr) (args : List ScriptExpr)
  /-- A call through the `call` method, with an explicit `this`. -/
  | callWith (function this : ScriptExpr) (args : List ScriptExpr)
  | log (value : ScriptExpr)
  | sequence (items : List ScriptExpr)
  | conditional (test yes no : ScriptExpr)
  | throwNew (name message : String)
  | throwValue (value : ScriptExpr)
  /-- What became of an expression: its value, or the error it threw. -/
  | attempt (body : ScriptExpr)
  | caught (body : ScriptExpr)
  | rethrow (body : ScriptExpr)
  | wrapError (body : ScriptExpr)
  | generator (items : List ScriptExpr)
  /-- An object whose iterator gives fixed results. -/
  | iterable (values flags : List ScriptExpr) (closes : Bool)
  | later (body : ScriptExpr)

instance : Inhabited ScriptExpr := ⟨.undefined⟩

/-- A program: an expression, or text that is none. -/
inductive ScriptSource where
  | expression (e : ScriptExpr)
  | malformed

instance : Inhabited ScriptSource := ⟨.malformed⟩

end ScriptBridge
