import ScriptBridge.Calendar
import ScriptBridge.Script.Array
import ScriptBridge.Script.Iteration
import ScriptBridge.Script.Stringify

/-!
The operators of the script language, on evaluated operands.
-/

namespace ScriptBridge.Script

/-! ### Arithmetic and order -/

/-- Adds primitives: texts where one is a text, numbers or big integers otherwise. -/
def addPrimitives (r : Reentry) (a b : ScriptValue) : ScriptAct ScriptValue := do
  match a, b with
  | .string _, _ | _, .string _ =>
    let s ← toText r a
    let t ← toText r b
    return .string (s ++ t)
  | .bigint m, .bigint n => return .bigint (m + n)
  | .bigint _, _ | _, .bigint _ => Act.throwType "cannot convert to bigint"
  | a, b =>
    let m ← toNumber r a
    let n ← toNumber r b
    return .number (m.add n)

def add (r : Reentry) (a b : ScriptValue) : ScriptAct ScriptValue := do
  let a ← toPrimitive r .either a
  let b ← toPrimitive r .either b
  addPrimitives r a b

inductive Numeric where
  | number (d : Double)
  | bigint (n : Int)

def toNumeric (r : Reentry) (v : ScriptValue) : ScriptAct Numeric := do
  match ← toPrimitive r .number v with
  | .bigint n => return .bigint n
  | v => return .number (← toNumber r v)

/-- Applies an operation to two numbers, or another to two big integers. -/
def arithmetic (r : Reentry) (onNumbers : Double → Double → Double)
    (onIntegers : Int → Int → ScriptAct Int) (a b : ScriptValue) : ScriptAct ScriptValue := do
  let a ← toNumeric r a
  let b ← toNumeric r b
  match a, b with
  | .number m, .number n => return .number (onNumbers m n)
  | .bigint m, .bigint n => return .bigint (← onIntegers m n)
  | _, _ => Act.throwType "cannot convert to bigint"

def integerRemainder (m n : Int) : ScriptAct Int :=
  if n = 0 then Act.throwNew "RangeError" "BigInt division by zero" else return m.tmod n

/-- Whether a whole number lies below, or above, a number. -/
def integerBelow (n : Int) : Double → Bool
  | .nan => false
  | .infinity negative => !negative
  | .finite negative units _ => n * Double.one < Double.signed negative units

def integerAbove (n : Int) : Double → Bool
  | .nan => false
  | .infinity negative => negative
  | .finite negative units _ => Double.signed negative units < n * Double.one

/-- Whether one primitive is less than another: two texts by code units, all else by number. -/
def lessPrimitives (r : Reentry) (a b : ScriptValue) : ScriptAct Bool := do
  match a, b with
  | .string s, .string t => return s.lt t
  | a, b =>
    let a ← toNumeric r a
    let b ← toNumeric r b
    match a, b with
    | .number m, .number n => return m.lt n
    | .bigint m, .bigint n => return m < n
    | .bigint m, .number d => return integerBelow m d
    | .number d, .bigint n => return integerAbove n d

def less (r : Reentry) (a b : ScriptValue) : ScriptAct Bool := do
  let a ← toPrimitive r .number a
  let b ← toPrimitive r .number b
  lessPrimitives r a b

def greater (r : Reentry) (a b : ScriptValue) : ScriptAct Bool := do
  let a ← toPrimitive r .number a
  let b ← toPrimitive r .number b
  lessPrimitives r b a

/-! ### Objects -/

def isIn (r : Reentry) (key object : ScriptValue) : ScriptAct Bool := do
  match object with
  | .object id => has id (← toKey r key)
  | _ => Act.throwType "invalid 'in' operand"

def deleteFrom (r : Reentry) (object key : ScriptValue) : ScriptAct ScriptValue := do
  let key ← toKey r key
  delete (← toObject object) key
  return .bool true

def describe {ε : Type} : Property → Act ε ScriptValue
  | .data value writable enumerable configurable =>
    newRecord [("value", value), ("writable", .bool writable), ("enumerable", .bool enumerable),
      ("configurable", .bool configurable)]
  | .accessor getter setter enumerable configurable =>
    let function (f : Option ObjectId) : ScriptValue := (f.map .object).getD .undefined
    newRecord [("get", function getter), ("set", function setter),
      ("enumerable", .bool enumerable), ("configurable", .bool configurable)]

def descriptor (r : Reentry) (object key : ScriptValue) : ScriptAct ScriptValue := do
  let id ← toObject object
  match ← ownProperty? id (← toKey r key) with
  | some p => describe p
  | none => return .undefined

def keyValue : PropertyKey → ScriptValue
  | .symbol s => .symbol s
  | key => .string (key.text?.getD [])

def keysOf (object : ScriptValue) : ScriptAct ScriptValue := do
  newArray ((← listedKeys (← toObject object)).map keyValue)

def ownKeysOf (object : ScriptValue) : ScriptAct ScriptValue := do
  match object with
  | .object id => newArray ((← ownKeys id).map keyValue)
  | _ => Act.throwType "not an object"

def defineOn (r : Reentry) (object key : ScriptValue) (d : Definition) : ScriptAct ScriptValue := do
  match object with
  | .object id =>
    define r id (← toKey r key) d
    return object
  | _ => Act.throwType "not an object"

def isInstance (r : Reentry) (value constructor : ScriptValue) : ScriptAct Bool := do
  match ← callable? constructor with
  | none => Act.throwType "invalid 'instanceof' right operand"
  | some f =>
    match value with
    | .object id =>
      match ← get r f (.ofString "prototype") with
      | .object prototype => inherits id prototype
      | _ => Act.throwType "operand 'prototype' property is not an object"
    | _ => return false

/-! ### Making values -/

def symbolOf (r : Reentry) (v : ScriptValue) : ScriptAct ScriptValue := do
  match v with
  | .undefined => return .symbol (← Act.newSymbol none)
  | v => return .symbol (← Act.newSymbol (some (← toText r v)))

/-- The instant a date holds for a number of milliseconds; not-a-number where it is out of range. -/
def clippedTime (d : Double) : Double :=
  if d.abs.le (.ofInt Calendar.scriptLimit) then d.trunc.add (.zero false) else .nan

def newDate {ε : Type} (millis : Double) : Act ε ScriptValue := do
  return .object (← Act.newObject (.bare (.date (clippedTime millis)) Intrinsic.datePrototype))

/-- A date from another one or from a number. Texts are not read. -/
def dateOf (r : Reentry) (v : ScriptValue) : ScriptAct ScriptValue := do
  let copied ← match v with
    | .object id =>
      match ← Act.object? id with
      | some { kind := .date millis, .. } => pure (some millis)
      | _ => pure none
    | _ => pure none
  match copied with
  | some millis => newDate millis
  | none =>
    match ← toPrimitive r .either v with
    | .string _ => newDate .nan
    | v => newDate (← toNumber r v)

/-- The text of one code unit, given by its number modulo 2^16. -/
def codeUnitOf (r : Reentry) (v : ScriptValue) : ScriptAct ScriptValue := do
  let d ← toNumber r v
  return .string [UInt16.ofNat (d.toInt % 2 ^ 16).toNat]

def stringOf (r : Reentry) (v : ScriptValue) : ScriptAct ScriptValue := do
  match v with
  | .symbol (.wellKnown name) => return .ofString ("Symbol(Symbol." ++ name ++ ")")
  | .symbol (.fresh _ description) =>
    return .string (.ofString "Symbol(" ++ description.getD [] ++ .ofString ")")
  | v => return .string (← toText r v)

/-- A new error of a class; names outside the standard classes are put on a general error, in
sight. -/
def newThrowable {ε : Type} (name message : String) : Act ε ScriptValue := do
  let id ← Act.newError name (.ofString message)
  if (Intrinsic.errorPrototype? name).isNone then
    Act.putProperty id (.ofString "name") (.open_ (.ofString name))
  return .object id

/-! ### Dispatch -/

def applyUnary (r : Reentry) (op : ScriptUnary) (v : ScriptValue) : ScriptAct ScriptValue := do
  match op with
  | .text => stringOf r v
  | .typeName => return .ofString (← typeOf v)
  | .not => return .bool (!truthy v)
  | .json => stringify r v
  | .isArray => return .bool (← isArray v)
  | .keys => keysOf v
  | .ownKeys => ownKeysOf v
  | .spread => newArray (← iterated r v)
  | .openIterator => callValue r (← getValue r v (.symbol .iterator)) v []
  | .symbol => symbolOf r v
  | .date => dateOf r v
  | .codeUnit => codeUnitOf r v

def applyBinary (r : Reentry) (op : ScriptBinary) (a b : ScriptValue) : ScriptAct ScriptValue := do
  match op with
  | .add => add r a b
  | .subtract => arithmetic r Double.sub (fun m n => return m - n) a b
  | .multiply => arithmetic r Double.mul (fun m n => return m * n) a b
  | .remainder => arithmetic r Double.rem integerRemainder a b
  | .less => return .bool (← less r a b)
  | .greater => return .bool (← greater r a b)
  | .strictEqual => return .bool (strictEquals a b)
  | .get => getValue r a (← toKey r b)
  | .has => return .bool (← isIn r a b)
  | .delete => deleteFrom r a b
  | .descriptor => descriptor r a b

end ScriptBridge.Script
