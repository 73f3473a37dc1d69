import ScriptBridge.Json.Basic
import ScriptBridge.Number.Literal
import ScriptBridge.Script.Expr

/-!
Script expressions written as documents. A literal is written as itself or as an object with one
marked member; all else is an array of a head and its operands.
-/

namespace ScriptBridge

namespace Json

/-- Reads hexadecimal digits of the bits of a number. -/
def bits? (text : List Char) : Option Double :=
  match text with
  | '0' :: 'x' :: ds =>
    if ds.length = 16 ∧ Number.allDigits 16 ds then some (.ofBits (Number.ofDigits 16 ds)) else none
  | _ => none

/-- Reads a number: as such, or by a name or its bits where a document has no such number. -/
def number? : Json → Option Double
  | int n => some (.ofInt n)
  | real d => some d
  | object [("$num", string s)] =>
    if s = "NaN" then some .nan
    else if s = "Infinity" then some (.infinity false)
    else if s = "-Infinity" then some (.infinity true)
    else if s = "-0" then some (.zero true)
    else bits? s.toList
  | _ => none

end Json

namespace ScriptExpr

/-- An expression that is no array. -/
def literal? : Json → Option ScriptExpr
  | .null => some .null
  | .bool b => some (.bool b)
  | .string s => some (.string s)
  | .object [("$undef", _)] => some .undefined
  | .object [("$date", ms)] => ms.number?.map .date
  | .object [("$err", .array (.string name :: .string message :: _))] => some (.error name message)
  | j => j.number?.map .number

def unaryOf? (head : String) : Option ScriptUnary :=
  [("str", .text), ("typeof", .typeName), ("not", .not), ("json", .json), ("isarr", .isArray),
   ("keys", .keys), ("ownkeys", .ownKeys), ("spread", .spread), ("symiter", .openIterator),
   ("symbol", .symbol), ("date", .date), ("codeunit", .codeUnit)].lookup head

def binaryOf? (head : String) : Option ScriptBinary :=
  [("+", .add), ("-", .subtract), ("*", .multiply), ("%", .remainder), ("<", .less),
   (">", .greater), ("===", .strictEqual), ("get", .get), ("del", .delete),
   ("desc", .descriptor)].lookup head

/-- Heads of expressions around one other, with what they do to it. -/
def aroundOf? (head : String) : Option (ScriptExpr → ScriptExpr) :=
  [("log", .log), ("throwval", .throwValue), ("try", .attempt), ("tryerr", .caught),
   ("rethrow", .rethrow), ("wrap", .wrapError), ("then", .later)].lookup head

/-- A head whose operands are no expressions. -/
def leafOf? (head : String) (operands : List Json) : Option ScriptExpr :=
  match head, operands with
  | "var", [.string name] => some (.variable name)
  | "arg", [i] => i.nat?.map .argument
  | "argc", _ => some .argumentCount
  | "this", _ => some .this
  | "range", [n] => n.nat?.map .range
  | "rep", [.string text, n] => n.nat?.map (.repeated text)
  | "sym", [.string name] => some (.wellKnownSymbol name)
  | "bigint", [.string text] => text.toInt?.map .bigint
  | "hugearr", [n] => n.number?.map .sparse
  | "throw", [.string name, .string message] => some (.throwNew name message)
  | _, _ => none

/-- A head whose operands are all expressions. -/
def innerOf? (head : String) (operands : List ScriptExpr) : Option ScriptExpr :=
  match head, operands with
  | "arr", items => some (.array items)
  | "seq", items => some (.sequence items)
  | "gen", items => some (.generator items)
  | "has", [target, key] => some (.binary .has key target)
  | "set", [target, key, value] => some (.set target key value)
  | "define", [target, key, value] => some (.define target key value)
  | "defacc", [target, key, value] => some (.defineGetter target key value)
  | "call", target :: key :: args => some (.callMethod target key args)
  | "calls", f :: args => some (.callFunction f args)
  | "apply", f :: receiver :: args => some (.callWith f receiver args)
  | "if", [test, yes, no] => some (.conditional test yes no)
  | head, [a] =>
    match unaryOf? head with
    | some op => some (.unary op a)
    | none => (aroundOf? head).map (· a)
  | head, [a, b] => (binaryOf? head).map (.binary · a b)
  | _, _ => none

mutual

def ofJson? : Json → Option ScriptExpr
  | .array (.string head :: operands) =>
    match head, operands with
    | "obj", members => (members? members).map fun ms => .object (ms.map (·.1)) (ms.map (·.2))
    | "fn", [.string name, _, body] => (ofJson? body).map (.function name)
    | "nest", [n, value] => do some (.nested (← n.nat?) (← ofJson? value))
    | "gset", [.string name, value] => (ofJson? value).map (.setGlobal name)
    | "inst", [value, .string className] => (ofJson? value).map (.instanceOf · className)
    | "iterable", [.array results, .bool closes] =>
      (pairs? results).map fun ps => .iterable (ps.map (·.1)) (ps.map (·.2)) closes
    | head, operands =>
      match leafOf? head operands with
      | some e => some e
      | none => do innerOf? head (← all? operands)
  | j => literal? j

def all? : List Json → Option (List ScriptExpr)
  | [] => some []
  | j :: rest => do some ((← ofJson? j) :: (← all? rest))

/-- Reads members, each a key with a value. -/
def members? : List Json → Option (List (String × ScriptExpr))
  | [] => some []
  | .array [.string key, value] :: rest => do
    some ((key, ← ofJson? value) :: (← members? rest))
  | _ :: _ => none

def pairs? : List Json → Option (List (ScriptExpr × ScriptExpr))
  | [] => some []
  | .array [a, b] :: rest => do some ((← ofJson? a, ← ofJson? b) :: (← pairs? rest))
  | _ :: _ => none

end

end ScriptExpr

namespace ScriptSource

/-- Reads a program; what is no expression is malformed. -/
def ofJson (j : Json) : ScriptSource :=
  match ScriptExpr.ofJson? j with
  | some e => expression e
  | none => malformed

end ScriptSource

end ScriptBridge
