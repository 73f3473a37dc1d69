import ScriptBridge.Double.Basic

/-!
Host values. Sequences, plain objects and functions are held by handle, so that copies of a value
share storage; script objects and script functions are held by reference.
-/

namespace ScriptBridge

structure SequenceId where
  index : Nat
deriving DecidableEq, Repr

structure PlainId where
  index : Nat
deriving DecidableEq, Repr

structure HostFunctionId where
  index : Nat
deriving DecidableEq, Repr

structure ObjectId where
  index : Nat
deriving DecidableEq, Repr

/-- A host reference to a script object or function: the identity its runtime gave the object, that
runtime, which of its references this is, and the object. -/
structure ScriptRef where
  identity : Nat
  runtime : Nat
  number : Nat
  object : ObjectId
deriving DecidableEq, Repr

inductive Callback where
  | host (function : HostFunctionId)
  | script (ref : ScriptRef) (name : String)
deriving DecidableEq, Repr

structure ErrorValue where
  name : String
  message : String
  stack : Option String := none
deriving DecidableEq, Repr

/-- Class and message; the class alone where the message is empty. -/
def ErrorValue.text (e : ErrorValue) : String :=
  if e.message.isEmpty then e.name else e.name ++ ": " ++ e.message

inductive Value where
  | undefined
  | null
  | bool (b : Bool)
  | number (d : Double)
  | string (s : String)
  | sequence (id : SequenceId)
  | plain (id : PlainId)
  | function (f : Callback)
  | date (millis : Int)
  | error (e : ErrorValue)
  /-- An object of the script heap, held by reference. -/
  | object (ref : ScriptRef)
deriving DecidableEq

instance : Inhabited Value := ⟨.undefined⟩

inductive Handle where
  | sequence (id : SequenceId)
  | plain (id : PlainId)
  | function (id : HostFunctionId)
deriving DecidableEq, Repr

def Handle.value : Handle → Value
  | sequence id => .sequence id
  | plain id => .plain id
  | function id => .function (.host id)

/-- The two functions are one. Script functions are told apart by their identity. -/
def Callback.same : Callback → Callback → Bool
  | host f, host g => f == g
  | script r _, script s _ => r.identity == s.identity
  | _, _ => false

namespace Value

def ofNat (n : Nat) : Value := number (.ofNat n)

def typeName : Value → String
  | undefined => "undefined"
  | null => "null"
  | bool _ => "boolean"
  | number _ => "number"
  | string _ => "string"
  | sequence _ => "array"
  | plain _ => "plain object"
  | function _ => "function"
  | date _ => "date"
  | error _ => "error"
  | object _ => "object"

def isUndefined : Value → Bool
  | undefined => true
  | _ => false

def isNullish : Value → Bool
  | undefined | null => true
  | _ => false

def truthy : Value → Bool
  | undefined | null => false
  | bool b => b
  | number d => !d.isZero && !d.isNaN
  | string s => !s.isEmpty
  | _ => true

/-- The script relation `===`: containers and functions by identity, and no two dates or errors are
equal, since they cross by value. -/
def strictEquals : Value → Value → Bool
  | undefined, undefined | null, null => true
  | bool a, bool b => a == b
  | number a, number b => a.eq b
  | string a, string b => a == b
  | sequence a, sequence b => a == b
  | plain a, plain b => a == b
  | function f, function g => f.same g
  | object r, object s => r.identity == s.identity
  | _, _ => false

/-- As `strictEquals`, but not-a-number equals itself. -/
def sameValueZero : Value → Value → Bool
  | number a, number b => a.sameValueZero b
  | a, b => a.strictEquals b

end Value

end ScriptBridge
