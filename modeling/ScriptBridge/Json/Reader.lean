import ScriptBridge.Json.Basic
import ScriptBridge.Number.Literal

/-!
Reading a JSON document from its text. Nothing may follow the document, and arrays and objects may
nest only so deep.
-/

namespace ScriptBridge.Json

/-- A reader takes characters off the front, or refuses. -/
abbrev Reader (α : Type) := List Char → Option (α × List Char)

def isSpace (c : Char) : Bool := c = ' ' || c = '\t' || c = '\n' || c = '\r'

def skipSpace (cs : List Char) : List Char := cs.dropWhile isSpace

def literal {α : Type} (word : List Char) (value : α) : Reader α := fun cs =>
  if word.isPrefixOf cs then some (value, cs.drop word.length) else none

/-! ### Strings -/

def hexWord : Reader Nat := fun cs =>
  let ds := cs.take 4
  if ds.length = 4 ∧ ds.all (Number.digitValue · < 16) then
    some (Number.ofDigits 16 ds, cs.drop 4)
  else none

/-- A character given by its code unit; a unit of a pair needs the other one. -/
def unicodeEscape : Reader Char := fun cs => do
  let (unit, rest) ← hexWord cs
  if 0xD800 ≤ unit ∧ unit < 0xDC00 then
    match rest with
    | '\\' :: 'u' :: rest =>
      let (low, rest) ← hexWord rest
      if 0xDC00 ≤ low ∧ low < 0xE000 then
        some (Char.ofNat (0x10000 + (unit - 0xD800) * 0x400 + (low - 0xDC00)), rest)
      else none
    | _ => none
  else if 0xDC00 ≤ unit ∧ unit < 0xE000 then none
  else some (Char.ofNat unit, rest)

/-- The character that a letter after a backslash stands for. -/
def simpleEscape? (c : Char) : Option Char :=
  if c = '"' ∨ c = '\\' ∨ c = '/' then some c
  else if c = 'b' then some '\x08'
  else if c = 'f' then some '\x0c'
  else if c = 'n' then some '\n'
  else if c = 'r' then some '\r'
  else if c = 't' then some '\t'
  else none

/-- One written character of a string literal. -/
def character : Reader Char
  | '\\' :: 'u' :: rest => unicodeEscape rest
  | '\\' :: c :: rest => (simpleEscape? c).map (·, rest)
  | '\\' :: [] => none
  | c :: rest => if c.toNat < 0x20 then none else some (c, rest)
  | [] => none

/-- The characters up to the closing quotation mark. -/
def stringTail : Nat → Reader (List Char)
  | 0, _ => none
  | _ + 1, '"' :: rest => some ([], rest)
  | fuel + 1, cs =>
    match character cs with
    | none => none
    | some (c, rest) => (stringTail fuel rest).map fun (text, rest) => (c :: text, rest)

def stringLiteral : Reader String
  | '"' :: rest => (stringTail (rest.length + 1) rest).map fun (text, rest) =>
    (String.ofList text, rest)
  | _ => none

/-! ### Numbers

Whole numbers of 64 bits are exact. Any other number is a significand that fits 64 bits, further
digits only counted, scaled by a power of ten in double arithmetic.
-/

def wordLimit : Nat := 2 ^ 64

/-- Reads digits into a significand as long as it fits a word: the significand, the number of digits
read and of digits left out, and the rest. -/
def significand (start : Nat) : List Char → Nat × Nat × Nat × List Char
  | c :: rest =>
    if c.isDigit then
      let next := start * 10 + Number.digitValue c
      if next < wordLimit then
        let (value, read, skipped, rest) := significand next rest
        (value, read + 1, skipped, rest)
      else
        let more := rest.takeWhile Char.isDigit
        (start, 0, more.length + 1, rest.drop more.length)
    else (start, 0, 0, c :: rest)
  | [] => (start, 0, 0, [])

/-- The largest power of ten that is a double. -/
def powerLimit : Nat := 308

/-- `f * 10 ^ exponent` in double arithmetic; refused when it overflows. -/
def scale (f : Double) (exponent : Int) : Option Double :=
  if h : exponent < -(powerLimit : Int) then
    if f.isZero then some f
    else scale (f.div (.ofNat (10 ^ powerLimit))) (exponent + powerLimit)
  else if exponent < 0 then some (f.div (.ofNat (10 ^ (-exponent).toNat)))
  else if exponent ≤ powerLimit then
    let scaled := f.mul (.ofNat (10 ^ exponent.toNat))
    if scaled.isFinite then some scaled else none
  else if f.isZero then some f
  else none
termination_by (-exponent).toNat
decreasing_by
  simp only [powerLimit] at h ⊢
  omega

/-- Exponents are words of 32 bits; one that is larger overflows or gives zero. -/
def exponentLimit : Nat := 2 ^ 31

/-- The exponent part after its mark. -/
def exponentPart (value : Nat) (start : Int) : Reader Double := fun cs =>
  let (negative, rest) := match cs with
    | '-' :: rest => (true, rest)
    | '+' :: rest => (false, rest)
    | _ => (false, cs)
  let ds := rest.takeWhile Char.isDigit
  let rest := rest.drop ds.length
  let e := Number.ofDigits 10 ds
  if ds.isEmpty then none
  else if e < exponentLimit then
    (scale (.ofNat value) (if negative then start - e else start + e)).map (·, rest)
  else if value ≠ 0 ∧ !negative then none
  else some (.zero false, rest)

/-- What follows the digits of the fraction. -/
def afterFraction (value : Nat) (exponent : Int) : Reader Double
  | 'e' :: rest | 'E' :: rest => exponentPart value exponent rest
  | cs => (scale (.ofNat value) exponent).map (·, cs)

/-- The fraction after its point: at least one digit. -/
def fractionPart (value : Nat) (exponent : Int) : Reader Double := fun cs =>
  let (value, read, skipped, rest) := significand value cs
  if read + skipped = 0 then none else afterFraction value (exponent - read) rest

def unsignedNumber : Reader (Nat ⊕ Double) := fun cs =>
  match cs with
  | [] => none
  | c :: next =>
    if !c.isDigit then none
    else if c = '0' ∧ (next.head?.any Char.isDigit) then none
    else
      let (value, _, skipped, rest) := significand 0 cs
      match rest with
      | '.' :: rest => (fractionPart value skipped rest).map fun (d, rest) => (.inr d, rest)
      | 'e' :: rest | 'E' :: rest =>
        (exponentPart value skipped rest).map fun (d, rest) => (.inr d, rest)
      | rest =>
        if skipped = 0 then some (.inl value, rest)
        else (scale (.ofNat value) skipped).map fun d => (.inr d, rest)

/-- A number; below the words of 63 bits, and at minus zero, it is a double. -/
def number : Reader Json
  | '-' :: rest =>
    (unsignedNumber rest).map fun (n, rest) =>
      match n with
      | .inl n => (if n = 0 ∨ 2 ^ 63 < n then real (Double.ofNat n).neg else int (-n), rest)
      | .inr d => (real d.neg, rest)
  | cs =>
    (unsignedNumber cs).map fun (n, rest) =>
      match n with
      | .inl n => (int n, rest)
      | .inr d => (real d, rest)

/-! ### Documents -/

/-- Items separated by commas, up to the closing mark. -/
def sequenceTail {α : Type} (close : Char) (item : Reader α) : Nat → Reader (List α)
  | 0, _ => none
  | fuel + 1, cs => do
    let (value, rest) ← item (skipSpace cs)
    match skipSpace rest with
    | [] => none
    | c :: rest =>
      if c = close then some ([value], rest)
      else if c = ',' then
        let (values, rest) ← sequenceTail close item fuel rest
        some (value :: values, rest)
      else none

/-- What stands between an opening and its closing mark. -/
def sequenceOf {α : Type} (close : Char) (item : Reader α) : Reader (List α) := fun cs =>
  match skipSpace cs with
  | [] => none
  | c :: rest =>
    if c = close then some ([], rest) else sequenceTail close item (cs.length + 1) (c :: rest)

/-- A key, a colon and a value. -/
def memberOf {α : Type} (item : Reader α) : Reader (String × α) := fun cs => do
  let (key, rest) ← stringLiteral cs
  match skipSpace rest with
  | ':' :: rest =>
    let (value, rest) ← item (skipSpace rest)
    some ((key, value), rest)
  | _ => none

/-- A document in which arrays and objects nest less than `depth` deep. -/
def value : Nat → Reader Json
  | 0, _ => none
  | depth + 1, cs =>
    match cs with
    | [] => none
    | c :: rest =>
      if c = '[' then
        if depth = 0 then none
        else (sequenceOf ']' (value depth) rest).map fun (items, rest) => (array items, rest)
      else if c = '\x7b' then
        if depth = 0 then none
        else
          (sequenceOf '\x7d' (memberOf (value depth)) rest).map fun (members, rest) =>
            (object members, rest)
      else if c = '"' then (stringLiteral cs).map fun (s, rest) => (string s, rest)
      else if c = 'n' then literal "null".toList null cs
      else if c = 't' then literal "true".toList (bool true) cs
      else if c = 'f' then literal "false".toList (bool false) cs
      else number cs

/-- The deepest nesting a document may have. -/
def depthLimit : Nat := 127

def parseWithin (depth : Nat) (text : List Char) : Option Json :=
  match value (depth + 1) (skipSpace text) with
  | some (document, rest) => if (skipSpace rest).isEmpty then some document else none
  | none => none

def parse (text : List Char) : Option Json := parseWithin depthLimit text

end ScriptBridge.Json
