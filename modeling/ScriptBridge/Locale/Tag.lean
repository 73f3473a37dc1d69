import ScriptBridge.Locale.Error
import ScriptBridge.Text.Blank

/-!
Language tags such as `zh-Hant-TW`: subtags between hyphens, accepted by their shape and kept in
canonical case.
-/

namespace ScriptBridge

/-- A well-formed language tag in canonical case. -/
structure LanguageTag where
  language : List Char
  script : Option (List Char)
  region : Option (List Char)
  /-- Variants, then extensions and private use, each subtag in lower case. -/
  tail : List (List Char)
deriving DecidableEq

namespace LanguageTag

def isLower (c : Char) : Bool := 'a' ≤ c && c ≤ 'z'

def isUpper (c : Char) : Bool := 'A' ≤ c && c ≤ 'Z'

def isLetter (c : Char) : Bool := isLower c || isUpper c

def lower (c : Char) : Char := if isUpper c then Char.ofNat (c.toNat + 32) else c

def upper (c : Char) : Char := if isLower c then Char.ofNat (c.toNat - 32) else c

def titleCase : List Char → List Char
  | [] => []
  | c :: cs => upper c :: cs.map lower

/-- One to eight letters and digits. -/
def isSubtag (s : List Char) : Bool :=
  !s.isEmpty && s.length ≤ 8 && s.all fun c => isLetter c || c.isDigit

def isLanguage (s : List Char) : Bool :=
  s.all isLetter && (s.length == 2 || s.length == 3 || (5 ≤ s.length && s.length ≤ 8))

def isScript (s : List Char) : Bool := s.length == 4 && s.all isLetter

def isRegion (s : List Char) : Bool :=
  (s.length == 2 && s.all isLetter) || (s.length == 3 && s.all Char.isDigit)

def isVariant (s : List Char) : Bool :=
  (5 ≤ s.length && s.length ≤ 8) ||
    (s.length == 4 && match s with
      | c :: _ => c.isDigit
      | [] => false)

def takeIf (shape : List Char → Bool) :
    List (List Char) → Option (List Char) × List (List Char)
  | s :: rest => if shape s then (some s, rest) else (none, s :: rest)
  | [] => (none, [])

/-- Takes the variants in front; none may occur twice. -/
def takeVariants (seen : List (List Char)) :
    List (List Char) → Option (List (List Char) × List (List Char))
  | [] => some (seen, [])
  | s :: rest =>
    if isVariant s then
      let variant := s.map lower
      if variant ∈ seen then none else takeVariants (seen ++ [variant]) rest
    else some (seen, s :: rest)

/-- Reads extensions, each a single character with its subtags, and private use, which an `x`
opens and which runs to the end. -/
def extensions? (subtags : List (List Char)) : Option (List (List Char)) :=
  match subtags with
  | [] => some []
  | singleton :: rest =>
    if singleton.length ≠ 1 then none
    else if singleton.map lower = ['x'] then
      if rest.isEmpty then none else some (['x'] :: rest.map (·.map lower))
    else
      let own := rest.takeWhile (·.length ≠ 1)
      if own.isEmpty then none
      else
        (extensions? (rest.dropWhile (·.length ≠ 1))).map fun more =>
          singleton.map lower :: own.map (·.map lower) ++ more
termination_by subtags.length
decreasing_by
  have := (List.dropWhile_suffix (l := rest) (fun s => decide (s.length ≠ 1))).length_le
  simp only [List.length_cons]
  omega

def ofSubtags? (subtags : List (List Char)) : Option LanguageTag :=
  if subtags.all isSubtag then
    match takeIf isLanguage subtags with
    | (none, _) => none
    | (some language, rest) =>
      let (script, rest) := takeIf isScript rest
      let (region, rest) := takeIf isRegion rest
      match takeVariants [] rest with
      | none => none
      | some (variants, rest) =>
        (extensions? rest).map fun extensions =>
          { language := language.map lower
            script := script.map titleCase
            region := region.map (·.map upper)
            tail := variants ++ extensions }
  else none

def ofText? (text : List Char) : Option LanguageTag := ofSubtags? (splitAtEvery (· == '-') text)

def parse (tag : String) : Except LocaleError LanguageTag :=
  match ofText? tag.toList with
  | some t => .ok t
  | none => .error (.invalidTag tag)

def subtags (t : LanguageTag) : List (List Char) :=
  t.language :: t.script.toList ++ t.region.toList ++ t.tail

def text (t : LanguageTag) : List Char := List.intercalate ['-'] t.subtags

end LanguageTag

end ScriptBridge
