/-!
White space: the characters with the `White_Space` property, trimming, and splitting into lines.
-/

namespace ScriptBridge

/-- The characters of the Unicode property `White_Space`. -/
def isBlank (c : Char) : Bool :=
  let n := c.toNat
  (0x09 ≤ n && n ≤ 0x0D) || n == 0x20 || n == 0x85 || n == 0xA0 || n == 0x1680 ||
    (0x2000 ≤ n && n ≤ 0x200A) || n == 0x2028 || n == 0x2029 || n == 0x202F || n == 0x205F ||
    n == 0x3000

/-- Drops the last elements that satisfy a test. -/
def dropTailWhile {α : Type} (p : α → Bool) (xs : List α) : List α :=
  (xs.reverse.dropWhile p).reverse

def trimBlank (cs : List Char) : List Char := dropTailWhile isBlank (cs.dropWhile isBlank)

/-- Splits at every separator; there is always at least one part. -/
def splitAtEvery {α : Type} (p : α → Bool) : List α → List (List α)
  | [] => [[]]
  | x :: xs =>
    if p x then [] :: splitAtEvery p xs
    else
      match splitAtEvery p xs with
      | [] => [[x]]
      | part :: parts => (x :: part) :: parts

/-- Takes a carriage return off the end of a line. -/
def dropReturn (line : List Char) : List Char :=
  if line.getLast? = some '\r' then line.dropLast else line

/-- The lines of a text: a line feed ends a line, with the carriage return before it, and no empty
line stands after the last line feed. -/
def textLines (cs : List Char) : List (List Char) :=
  let parts := splitAtEvery (· == '\n') cs
  let ended := parts.dropLast.map dropReturn
  match parts.getLast? with
  | none | some [] => ended
  | some last => ended ++ [last]

end ScriptBridge
