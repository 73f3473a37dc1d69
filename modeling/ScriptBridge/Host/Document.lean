import ScriptBridge.Host.Expr
import ScriptBridge.Script.Document

/-!
Host expressions written as documents, in the manner of script expressions.
-/

namespace ScriptBridge

/-- Reads how many arguments a function takes: a number, a least number, or both bounds. -/
def Arity.ofJson? : Json → Option Arity
  | .array [least] => least.nat?.map .atLeast
  | .array [least, greatest] => do some (.between (← least.nat?) (← greatest.nat?))
  | j => j.nat?.map .exactly

def FailureKind.ofJson? : Json → Option FailureKind
  | .array [.string name] => some (.exception name)
  | .string s =>
    [("host", .host), ("argument", .argument), ("logic", .logic), ("range", .range),
     ("type", .type), ("length", .length), ("not_function", .notCallable)].lookup s
  | _ => none

namespace HostExpr

/-- An expression that is no array. -/
def literal? : Json → Option HostExpr
  | .null => some .null
  | .bool b => some (.bool b)
  | .string s => some (.string s)
  | .object [("$undef", _)] => some .undefined
  | .object [("$date", ms)] => ms.number?.map fun d => .date d.toInt
  | .object [("$err", .array [.string name, .string message])] => some (.error name message none)
  | .object [("$err", .array [.string name, .string message, stack])] =>
    some (.error name message stack.string?)
  | j => j.number?.map .number

def unaryOf? (head : String) : Option HostUnary :=
  [("str", .text), ("typeof", .typeName), ("not", .not), ("log", .log)].lookup head

def binaryOf? (head : String) : Option HostBinary :=
  [("+", .add), ("-", .subtract), ("*", .multiply), ("%", .remainder), ("<", .less),
   (">", .greater), ("===", .strictEqual), ("get", .get)].lookup head

/-- A head whose operands are no host expressions. -/
def leafOf? (head : String) (operands : List Json) : Option HostExpr :=
  match head, operands with
  | "var", [.string name] => some (.variable name)
  | "arg", [i] => i.nat?.map .argument
  | "argc", _ => some .argumentCount
  | "this", _ => some .this
  | "range", [n] => n.nat?.map .range
  | "rep", [.string text, n] => n.nat?.map (.repeated text)
  | "fail", [kind, .string message] => (FailureKind.ofJson? kind).map (.fail · message)
  | "js", [source] => some (.script (.ofJson source))
  | _, _ => none

/-- A head whose operands are all host expressions. -/
def innerOf? (head : String) (operands : List HostExpr) : Option HostExpr :=
  match head, operands with
  | "arr", items => some (.sequence items)
  | "seq", items => some (.all items)
  | "set", [target, key, value] => some (.set target key value)
  | "apply", f :: receiver :: args => some (.apply f receiver args)
  | "if", [test, yes, no] => some (.conditional test yes no)
  | head, [a] => (unaryOf? head).map (.unary · a)
  | head, [a, b] => (binaryOf? head).map (.binary · a b)
  | _, _ => none

mutual

def ofJson? : Json → Option HostExpr
  | .array (.string head :: operands) =>
    match head, operands with
    | "obj", members => (members? members).map fun ms => .plain (ms.map (·.1)) (ms.map (·.2))
    | "fn", [.string name, arity, body] => do
      some (.function name (← Arity.ofJson? arity) (← ofJson? body))
    | "nest", [n, value] => do some (.nested (← n.nat?) (← ofJson? value))
    | "call", target :: .string method :: args => do
      some (.callMethod (← ofJson? target) method (← all? args))
    | head, operands =>
      match leafOf? head operands with
      | some e => some e
      | none => do innerOf? head (← all? operands)
  | j => literal? j

def all? : List Json → Option (List HostExpr)
  | [] => some []
  | j :: rest => do some ((← ofJson? j) :: (← all? rest))

/-- Reads members, each a key with a value. -/
def members? : List Json → Option (List (String × HostExpr))
  | [] => some []
  | .array [.string key, value] :: rest => do
    some ((key, ← ofJson? value) :: (← members? rest))
  | _ :: _ => none

end

end HostExpr

end ScriptBridge
