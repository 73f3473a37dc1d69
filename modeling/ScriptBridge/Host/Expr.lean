import ScriptBridge.Script.Expr

/-!
Host expressions: what host code does with the bridge, and the bodies of host functions.
-/

namespace ScriptBridge

inductive HostUnary where
  | not
  | text
  | typeName
  | log
deriving DecidableEq, Repr

inductive HostBinary where
  | add
  | subtract
  | multiply
  | remainder
  | less
  | greater
  | strictEqual
  | get
deriving DecidableEq, Repr

inductive FailureKind where
  | host
  | argument
  | logic
  | range
  | type
  | length
  | notCallable
  | exception (name : String)
deriving DecidableEq, Repr

inductive Arity where
  | exactly (n : Nat)
  | atLeast (n : Nat)
  | between (least greatest : Nat)
deriving DecidableEq, Repr

inductive HostExpr where
  | undefined
  | null
  | bool (b : Bool)
  | number (d : Double)
  | string (s : String)
  | date (millis : Int)
  | error (name message : String) (stack : Option String)
  | sequence (items : List HostExpr)
  | plain (keys : List String) (values : List HostExpr)
  | function (name : String) (arity : Arity) (body : HostExpr)
  | variable (name : String)
  | argument (index : Nat)
  | argumentCount
  | this
  | range (count : Nat)
  | repeated (text : String) (count : Nat)
  /-- A value inside that many one-element sequences. -/
  | nested (depth : Nat) (value : HostExpr)
  | set (object key value : HostExpr)
  | callMethod (sequence : HostExpr) (method : String) (args : List HostExpr)
  | apply (function this : HostExpr) (args : List HostExpr)
  | all (items : List HostExpr)
  | conditional (test yes no : HostExpr)
  | unary (op : HostUnary) (operand : HostExpr)
  | binary (op : HostBinary) (left right : HostExpr)
  | fail (kind : FailureKind) (message : String)
  | script (source : ScriptSource)

instance : Inhabited HostExpr := ⟨.undefined⟩

namespace Arity

/-- The least number of arguments, reported as the `length` of the function. -/
def least : Arity → Nat
  | exactly n | atLeast n | between n _ => n

def greatest : Arity → Option Nat
  | exactly n | between _ n => some n
  | atLeast _ => none

end Arity

end ScriptBridge
