/-!
Text in 16-bit code units, as scripts see it. A pair of surrogates encodes a character beyond
U+FFFF; a surrogate may also stand alone, and such text has no form on the host.
-/

namespace ScriptBridge

/-- Script text: its 16-bit code units. -/
abbrev Utf16 := List UInt16

namespace Utf16

def ofChar (c : Char) : Utf16 :=
  let n := c.toNat
  if n < 0x10000 then [UInt16.ofNat n]
  else [UInt16.ofNat (0xD800 + (n - 0x10000) / 0x400), UInt16.ofNat (0xDC00 + (n - 0x10000) % 0x400)]

def ofChars (cs : List Char) : Utf16 := cs.flatMap ofChar

def ofString (s : String) : Utf16 := ofChars s.toList

def isLead (u : UInt16) : Bool := 0xD800 ≤ u && u < 0xDC00

def isTrail (u : UInt16) : Bool := 0xDC00 ≤ u && u < 0xE000

/-- The character a surrogate pair encodes. -/
def ofPair (lead trail : UInt16) : Char :=
  Char.ofNat (0x10000 + (lead.toNat - 0xD800) * 0x400 + (trail.toNat - 0xDC00))

/-- The characters of a text, if no surrogate stands alone. -/
def toChars? : Utf16 → Option (List Char)
  | [] => some []
  | [u] => if isLead u || isTrail u then none else some [Char.ofNat u.toNat]
  | u :: v :: rest =>
    if isLead u then
      if isTrail v then (toChars? rest).map (ofPair u v :: ·) else none
    else if isTrail u then none
    else (toChars? (v :: rest)).map (Char.ofNat u.toNat :: ·)

/-- How many bytes of UTF-8 stand before the first surrogate that stands alone. -/
def bytesBeforeLone : Utf16 → Nat
  | [] => 0
  | [u] => if isLead u || isTrail u then 0 else (Char.ofNat u.toNat).utf8Size
  | u :: v :: rest =>
    if isLead u then
      if isTrail v then 4 + bytesBeforeLone rest else 0
    else if isTrail u then 0
    else (Char.ofNat u.toNat).utf8Size + bytesBeforeLone (v :: rest)

def toString? (t : Utf16) : Option String := (toChars? t).map String.ofList

/-- Lexicographic order of code units. -/
def lt : Utf16 → Utf16 → Bool
  | _, [] => false
  | [], _ :: _ => true
  | a :: as, b :: bs => a < b || (a == b && lt as bs)

end Utf16

end ScriptBridge
