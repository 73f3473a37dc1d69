import ScriptBridge.Collection.Entries
import ScriptBridge.Cursor
import ScriptBridge.Script.Expr
import ScriptBridge.Sequence.MethodName
import ScriptBridge.Text.Utf16

/-!
Script values, property keys and the objects of the script heap.
-/

namespace ScriptBridge

inductive Symbol where
  | wellKnown (name : String)
  | fresh (serial : Nat) (description : Option Utf16)
deriving DecidableEq, Repr

inductive ScriptValue where
  | undefined
  | null
  | bool (b : Bool)
  | number (d : Double)
  | string (t : Utf16)
  | symbol (s : Symbol)
  | bigint (n : Int)
  | object (id : ObjectId)
deriving DecidableEq

instance : Inhabited ScriptValue := ⟨.undefined⟩

/-- A property key. Canonical array indices are told apart from other names. -/
inductive PropertyKey where
  | index (n : Nat)
  | name (t : Utf16)
  | symbol (s : Symbol)
deriving DecidableEq, Repr

inductive Property where
  | data (value : ScriptValue) (writable enumerable configurable : Bool)
  | accessor (getter setter : Option ObjectId) (enumerable configurable : Bool)
deriving DecidableEq

inductive Builtin where
  | objectConstructor | functionConstructor | arrayConstructor | dateConstructor
  | stringConstructor | numberConstructor | booleanConstructor | symbolConstructor
  | bigintConstructor | promiseConstructor
  | errorConstructor (name : String)
  /-- A function whose work is outside the expression language. -/
  | other (name : String) (length : Nat)
  | objectToString | objectValueOf | hasOwnProperty | protoGetter | protoSetter
  | functionCall | functionApply | functionToString
  | arrayIsArray
  | arrayMethod (name : String) (length : Nat)
  | iteratorSelf | arrayIteratorNext
  | generatorNext | generatorReturn | generatorThrow
  | errorToString
  | dateGetTime | dateToString | dateToStamp | dateToJson | dateToPrimitive
  | primitiveToString | primitiveValueOf
  | stringIterator | stringIteratorNext
  | speciesGetter
  | jsonStringify
deriving DecidableEq, Repr

inductive FunctionCode where
  | closure (body : ScriptExpr)
  | hostFunction (id : HostFunctionId)
  /-- A method of a host sequence, bound to it whatever `this` is. -/
  | sequenceMethod (id : SequenceId) (method : SequenceMethod)
  | cursorNext (cursor : Cursor)
  | openIterable (values flags : List ScriptExpr) (closes : Bool)
  | iterableNext (values flags : List ScriptExpr)
  | iterableReturn
  | builtin (b : Builtin)

inductive GeneratorState where
  | suspended (started : Bool) (rest : List ScriptExpr)
  | running
  | finished

inductive ObjectKind where
  | ordinary
  | array
  | function (code : FunctionCode)
  | error
  | date (millis : Double)
  | generator (state : GeneratorState)
  | arrayIterator (source : Option ObjectId) (kind : CursorKind) (position : Nat)
  | stringIterator (rest : Utf16)
  | wrapper (value : ScriptValue)
  /-- The stand-in for a host sequence; keys that name no slot live on the target. -/
  | sequenceProxy (id : SequenceId) (target : ObjectId)
      (methods : List (SequenceMethod × ObjectId))
  /-- The stand-in for a plain object; symbols and accessors live on the target. -/
  | plainProxy (id : PlainId) (target : ObjectId)

structure Object where
  kind : ObjectKind
  prototype : Option ObjectId
  properties : Entries PropertyKey Property := .empty

/-- The argument list, if inside a function, and `this` of the code being evaluated. -/
structure Scope where
  arguments : Option (List ScriptValue)
  this : ScriptValue

/-- Work that waits until the running script is done. -/
structure Job where
  body : ScriptExpr
  scope : Scope

namespace PropertyKey

/-- Array indices are below this. -/
def indexLimit : Nat := 2 ^ 32 - 1

def isDigit (u : UInt16) : Bool := 0x30 ≤ u && u ≤ 0x39

/-- The number that digits say after those of `start`. -/
def digitsValue (start : Nat) (digits : Utf16) : Nat :=
  digits.foldl (fun n u => n * 10 + (u.toNat - 0x30)) start

/-- The decimal form of a number. -/
def decimal (n : Nat) : Utf16 := .ofChars (Nat.toDigits 10 n)

/-- The number whose canonical decimal form a text is. -/
def canonicalIndex? (t : Utf16) : Option Nat :=
  match t with
  | [] => none
  | u :: rest =>
    if t.all isDigit ∧ (u ≠ 0x30 ∨ rest = []) then
      let n := digitsValue 0 t
      if n < indexLimit then some n else none
    else none

def ofText (t : Utf16) : PropertyKey :=
  match canonicalIndex? t with
  | some n => index n
  | none => name t

def ofString (s : String) : PropertyKey := ofText (.ofString s)

/-- The key of a position; those past the array indices are ordinary names. -/
def ofNat (n : Nat) : PropertyKey := if n < indexLimit then index n else name (decimal n)

def text? : PropertyKey → Option Utf16
  | index n => some (decimal n)
  | name t => some t
  | symbol _ => none

def index? : PropertyKey → Option Nat
  | index n => some n
  | _ => none

def isIndex : PropertyKey → Bool
  | index _ => true
  | _ => false

def isName : PropertyKey → Bool
  | name _ => true
  | _ => false

def isSymbol : PropertyKey → Bool
  | symbol _ => true
  | _ => false

def length : PropertyKey := .name (.ofString "length")

end PropertyKey

namespace ObjectKind

/-- The host container or function an object of this kind stands for. -/
def standsFor? : ObjectKind → Option Handle
  | sequenceProxy id .. => some (.sequence id)
  | plainProxy id _ => some (.plain id)
  | function (.hostFunction id) => some (.function id)
  | _ => none

/-- The function objects a stand-in has made of the methods of its sequence. -/
def methods : ObjectKind → List (SequenceMethod × ObjectId)
  | sequenceProxy _ _ methods => methods
  | _ => []

/-- Whether one kind is a later state of another: a step of a cursor, an iterable, a generator or an
iterator. -/
def movesTo : ObjectKind → ObjectKind → Bool
  | function (.cursorNext c), function (.cursorNext d) =>
    c.sequence == d.sequence && c.kind == d.kind
  | function (.iterableNext ..), function (.iterableNext ..) => true
  | generator _, generator _ => true
  | arrayIterator .., arrayIterator .. => true
  | stringIterator _, stringIterator _ => true
  | _, _ => false

end ObjectKind

namespace Property

/-- A property that can be changed in every way. -/
def open_ (value : ScriptValue) : Property := data value true true true

def hidden (value : ScriptValue) : Property := data value true false true

def enumerable : Property → Bool
  | data _ _ e _ => e
  | accessor _ _ e _ => e

def configurable : Property → Bool
  | data _ _ _ c => c
  | accessor _ _ _ c => c

/-- A property that can be changed in no way. -/
def fixed (value : ScriptValue) : Property := data value false false false

def isFixed : Property → Bool
  | data _ w _ c => !w && !c
  | accessor .. => false

end Property

namespace Object

def write (o : Object) (key : PropertyKey) (p : Property) : Object :=
  if (o.properties.get? key).any (·.isFixed) then o
  else { o with properties := o.properties.insert key p }

def remove (o : Object) (key : PropertyKey) : Object :=
  if (o.properties.get? key).any (·.configurable) then
    { o with properties := o.properties.erase key }
  else o

/-- Moves an object on to a later state of its kind. -/
def moved (o : Object) (kind : ObjectKind) : Object :=
  if o.kind.movesTo kind then { o with kind } else o

def addMethod (o : Object) (method : SequenceMethod) (id : ObjectId) : Object :=
  match o.kind with
  | .sequenceProxy s target methods =>
    { o with kind := .sequenceProxy s target ((method, id) :: methods) }
  | _ => o

/-- The own keys in listing order: indices ascending, names in order of insertion, then symbols. -/
def ownKeys (o : Object) : List PropertyKey :=
  let keys := o.properties.keys
  ((keys.filterMap (·.index?)).mergeSort (· ≤ ·)).map .index ++ keys.filter (·.isName) ++
    keys.filter (·.isSymbol)

end Object

end ScriptBridge
