import ScriptBridge.Double.Decimal
import ScriptBridge.Json.Basic

/-!
The text of a JSON document, compact or indented.
-/

namespace ScriptBridge.Json

/-- A character inside a string literal: quotation mark, backslash and control characters are
escaped. -/
def escape (c : Char) : List Char :=
  if c = '"' then ['\\', '"']
  else if c = '\\' then ['\\', '\\']
  else if c = '\n' then ['\\', 'n']
  else if c = '\r' then ['\\', 'r']
  else if c = '\t' then ['\\', 't']
  else if c = '\x08' then ['\\', 'b']
  else if c = '\x0c' then ['\\', 'f']
  else if c.toNat < 0x20 then
    ['\\', 'u', '0', '0', Nat.digitChar (c.toNat / 16), Nat.digitChar (c.toNat % 16)]
  else [c]

def quote (s : List Char) : List Char := '"' :: s.flatMap escape ++ ['"']

def intText (n : Int) : List Char :=
  if n < 0 then '-' :: decimalDigits n.natAbs else decimalDigits n.natAbs

/-- The fewest digits that read back: positional from 1e-5 up to 1e16 and always with a point or an
exponent. -/
def positiveText (units : Nat) : List Char :=
  let d := Double.shortest units
  let ds := decimalDigits d.significand
  let point := d.exponent + ds.length
  if ds.length ≤ point ∧ point ≤ 16 then
    ds ++ List.replicate (point - ds.length).toNat '0' ++ ['.', '0']
  else if 0 < point ∧ point ≤ 16 then ds.take point.toNat ++ '.' :: ds.drop point.toNat
  else if -5 < point ∧ point ≤ 0 then
    '0' :: '.' :: List.replicate (-point).toNat '0' ++ ds
  else
    let e := point - 1
    let exponent := 'e' :: (if e < 0 then '-' else '+') :: decimalDigits e.natAbs
    match ds with
    | [] | [_] => ds ++ exponent
    | d :: rest => d :: '.' :: rest ++ exponent

def realText : Double → List Char
  | .finite negative units _ =>
    let text := if units = 0 then "0.0".toList else positiveText units
    if negative then '-' :: text else text
  | _ => "null".toList

mutual

def compact : Json → List Char
  | null => "null".toList
  | bool b => if b then "true".toList else "false".toList
  | int n => intText n
  | real d => realText d
  | string s => quote s.toList
  | array items => '[' :: compactItems items ++ [']']
  | object members => '\x7b' :: compactMembers members ++ ['\x7d']

def compactItems : List Json → List Char
  | [] => []
  | [item] => compact item
  | item :: rest => compact item ++ ',' :: compactItems rest

def compactMembers : List (String × Json) → List Char
  | [] => []
  | [(key, value)] => quote key.toList ++ ':' :: compact value
  | (key, value) :: rest => quote key.toList ++ ':' :: compact value ++ ',' :: compactMembers rest

end

def newline (indent : Nat) : List Char := '\n' :: List.replicate (2 * indent) ' '

mutual

/-- The text with one item or member a line, indented by two spaces a level. -/
def pretty (indent : Nat) : Json → List Char
  | array [] => ['[', ']']
  | array items => '[' :: prettyItems (indent + 1) items ++ newline indent ++ [']']
  | object [] => ['\x7b', '\x7d']
  | object members => '\x7b' :: prettyMembers (indent + 1) members ++ newline indent ++ ['\x7d']
  | null => "null".toList
  | bool b => if b then "true".toList else "false".toList
  | int n => intText n
  | real d => realText d
  | string s => quote s.toList

def prettyItems (indent : Nat) : List Json → List Char
  | [] => []
  | [item] => newline indent ++ pretty indent item
  | item :: rest => newline indent ++ pretty indent item ++ ',' :: prettyItems indent rest

def prettyMembers (indent : Nat) : List (String × Json) → List Char
  | [] => []
  | [(key, value)] =>
    newline indent ++ quote key.toList ++ ':' :: ' ' :: pretty indent value
  | (key, value) :: rest =>
    newline indent ++ quote key.toList ++ ':' :: ' ' :: pretty indent value ++
      ',' :: prettyMembers indent rest

end

end ScriptBridge.Json
