import ScriptBridge.Calendar
import ScriptBridge.Locale.NumberFormat
import ScriptBridge.Number.Literal
import ScriptBridge.World

/-!
Texts and numbers of host values. A sequence is joined from its elements; one that is being joined
further out gives the empty text, so joining ends on any heap.
-/

namespace ScriptBridge

namespace Heap

theorem length_erase_lt {α : Type} [DecidableEq α] {a : α} {l : List α} (h : a ∈ l) :
    (l.erase a).length < l.length := by
  rw [List.length_erase_of_mem h]
  exact Nat.sub_lt (List.length_pos_of_mem h) Nat.one_pos

/-- Joins the elements of a sequence, going down only into the available ones. Nullish elements give
the empty text, nested sequences their own join with commas, all others their `leaf` text. -/
def joinAvailable (h : Heap) (leaf : Value → List Char) (available : List SequenceId)
    (separator : List Char) (id : SequenceId) : List Char :=
  if _ : id ∈ available then
    List.intercalate separator ((h.sequence id).map fun item =>
      match item with
      | .undefined | .null => []
      | .sequence nested => joinAvailable h leaf (available.erase id) [','] nested
      | item => leaf item)
  else []
termination_by available.length
decreasing_by exact length_erase_lt ‹_›

def functionText (name : String) : List Char :=
  "function ".toList ++ name.toList ++ "() \x7b\n    [native code]\n\x7d".toList

def leafText (h : Heap) : Value → List Char
  | .undefined => "undefined".toList
  | .null => "null".toList
  | .bool b => if b then "true".toList else "false".toList
  | .number d => Number.hostText d
  | .string s => s.toList
  | .sequence _ => []
  | .plain _ | .object _ => "[object Object]".toList
  | .function f => functionText (h.callbackName f)
  | .date millis => Calendar.longText millis
  | .error e => e.text.toList

def join (h : Heap) (separator : List Char) (id : SequenceId) : List Char :=
  h.joinAvailable h.leafText h.allSequences separator id

/-- The elements joined by commas, with numbers at every level in the given format. -/
def localeJoin (h : Heap) (format : NumberFormat) (id : SequenceId) : List Char :=
  let leaf (v : Value) : List Char :=
    match v with
    | .number d => format.format d
    | v => h.leafText v
  h.joinAvailable leaf h.allSequences [','] id

def text (h : Heap) : Value → List Char
  | .sequence id => h.join [','] id
  | v => h.leafText v

def textString (h : Heap) (v : Value) : String := String.ofList (h.text v)

/-- The number of a value; a sequence is read through its text. -/
def number (h : Heap) : Value → Double
  | .null => .zero false
  | .bool b => .ofNat (if b then 1 else 0)
  | .number d => d
  | .string s => Number.ofText s.toList
  | .date millis => .ofInt millis
  | .sequence id => Number.ofText (h.join [','] id)
  | _ => .nan

end Heap

end ScriptBridge
