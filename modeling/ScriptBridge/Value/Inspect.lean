import ScriptBridge.Calendar
import ScriptBridge.Number.Text
import ScriptBridge.Text.Literal
import ScriptBridge.World

/-!
The text of a value for programmers: texts are quoted, containers show what they hold.
-/

namespace ScriptBridge.Heap

def optionalLiteral : Option String → List Char
  | none => "None".toList
  | some s => "Some(".toList ++ quotedLiteral s ++ [')']

def errorLiteral (e : ErrorValue) : List Char :=
  "ErrorValue \x7b name: ".toList ++ quotedLiteral e.name ++ ", message: ".toList ++
    quotedLiteral e.message ++ ", stack: ".toList ++ optionalLiteral e.stack ++ " \x7d".toList

def bracketed (opening closing : Char) (items : List (List Char)) : List Char :=
  opening :: List.intercalate [',', ' '] items ++ [closing]

/-- The text of a value that nests less than `depth` deep. -/
def inspectWithin (h : Heap) : Nat → Value → List Char
  | 0, _ => []
  | depth + 1, v =>
    match v with
    | .undefined => "undefined".toList
    | .null => "null".toList
    | .bool b => if b then "true".toList else "false".toList
    | .number d => Number.hostText d
    | .string s => quotedLiteral s
    | .sequence id => bracketed '[' ']' ((h.sequence id).map (h.inspectWithin depth))
    | .plain id =>
      bracketed '\x7b' '\x7d' ((h.plain id).toList.map fun (key, v) =>
        quotedLiteral key ++ ": ".toList ++ h.inspectWithin depth v)
    | .function (.host f) => "[HostFunction: ".toList ++ (h.functionName f).toList ++ [']']
    | .function (.script _ name) => "[Function: ".toList ++ name.toList ++ [']']
    | .date millis => "Date(".toList ++ Calendar.offsetText millis ++ [')']
    | .error e => errorLiteral e
    | .object ref => "ScriptObject#".toList ++ Nat.toDigits 10 ref.identity

def inspect (h : Heap) (v : Value) : List Char := h.inspectWithin h.depthBound v

end ScriptBridge.Heap
