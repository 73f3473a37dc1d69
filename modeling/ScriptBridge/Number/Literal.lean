import ScriptBridge.Double.Decimal
import ScriptBridge.Text.Blank

/-!
Reading a number from text: decimal literals, whole numbers in base 16, 8 or 2, and infinities.
-/

namespace ScriptBridge.Number

def digitValue (c : Char) : Nat :=
  if c.isDigit then c.toNat - '0'.toNat
  else if 'a' ≤ c ∧ c ≤ 'z' then c.toNat - 'a'.toNat + 10
  else if 'A' ≤ c ∧ c ≤ 'Z' then c.toNat - 'A'.toNat + 10
  else 36

def ofDigits (base : Nat) (ds : List Char) : Nat :=
  ds.foldl (fun n c => n * base + digitValue c) 0

/-- Whether a text is one or more digits of a base. -/
def allDigits (base : Nat) (ds : List Char) : Bool :=
  !ds.isEmpty && ds.all (digitValue · < base)

/-- Reads an unsigned word: an optional plus sign and digits of a base, less than 2^64. -/
def word? (base : Nat) (text : List Char) : Option Nat :=
  let ds := match text with
    | '+' :: rest => rest
    | _ => text
  if allDigits base ds then
    let n := ofDigits base ds
    if n < 2 ^ 64 then some n else none
  else none

/-- The base that a two-character prefix announces, with what follows. -/
def radixPrefix? : List Char → Option (Nat × List Char)
  | '0' :: x :: c :: rest =>
    if x = 'x' ∨ x = 'X' then some (16, c :: rest)
    else if x = 'o' ∨ x = 'O' then some (8, c :: rest)
    else if x = 'b' ∨ x = 'B' then some (2, c :: rest)
    else none
  | _ => none

def splitSign : List Char → Bool × List Char
  | '-' :: rest => (true, rest)
  | '+' :: rest => (false, rest)
  | text => (false, text)

/-- Reads an exponent part: nothing, or a mark, an optional sign and digits. -/
def exponent? : List Char → Option Int
  | [] => some 0
  | e :: rest =>
    if e = 'e' ∨ e = 'E' then
      let (negative, ds) := splitSign rest
      if allDigits 10 ds then
        some (if negative then -(ofDigits 10 ds : Int) else ofDigits 10 ds)
      else none
    else none

/-- Reads an unsigned decimal literal: digits with at most one point, at least one digit, and an
optional exponent. -/
def decimal? (text : List Char) : Option Decimal :=
  let whole := text.takeWhile Char.isDigit
  let rest := text.dropWhile Char.isDigit
  let (places, rest) := match rest with
    | '.' :: rest => (rest.takeWhile Char.isDigit, rest.dropWhile Char.isDigit)
    | _ => ([], rest)
  if whole.isEmpty && places.isEmpty then none
  else (exponent? rest).map fun e => ⟨ofDigits 10 (whole ++ places), e - places.length⟩

/-- Reads an optionally signed decimal literal. -/
def real? (text : List Char) : Option Double :=
  let (negative, text) := splitSign text
  (decimal? text).map (·.toDouble negative)

/-- The number a text denotes, white space at both ends aside: zero when nothing is left, and
not-a-number when it is no literal. -/
def ofText (text : List Char) : Double :=
  let trimmed := trimBlank text
  if trimmed.isEmpty then Double.zero false
  else
    match radixPrefix? trimmed with
    | some (base, rest) => ((word? base rest).map Double.ofNat).getD .nan
    | none =>
      if trimmed = "Infinity".toList ∨ trimmed = "+Infinity".toList then .infinity false
      else if trimmed = "-Infinity".toList then .infinity true
      else (real? trimmed).getD .nan

/-! ### Script literals -/

/-- White space in scripts: the blanks without U+0085, and the byte order mark. -/
def isScriptBlank (c : Char) : Bool := (isBlank c && c.toNat != 0x85) || c.toNat == 0xFEFF

/-- The number a script reads from a text. It differs from `ofText` in white space, in taking whole
numbers of any length after a base prefix, and in refusing a sign there. -/
def ofScriptText (text : List Char) : Double :=
  let trimmed := dropTailWhile isScriptBlank (text.dropWhile isScriptBlank)
  if trimmed.isEmpty then Double.zero false
  else
    match radixPrefix? trimmed with
    | some (base, rest) => if allDigits base rest then .ofNat (ofDigits base rest) else .nan
    | none =>
      if trimmed = "Infinity".toList ∨ trimmed = "+Infinity".toList then .infinity false
      else if trimmed = "-Infinity".toList then .infinity true
      else (real? trimmed).getD .nan

end ScriptBridge.Number
