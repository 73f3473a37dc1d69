import ScriptBridge.Calendar
import ScriptBridge.Json.Basic
import ScriptBridge.World

/-!
Host values from JSON documents and back.
-/

namespace ScriptBridge

namespace Json

mutual

/-- Builds the value of a document on the heap. Members come in the order of their keys, and of
several with one key the last counts. -/
def toValue (h : Heap) : Json → Value × Heap
  | null => (.null, h)
  | bool b => (.bool b, h)
  | int n => (.number (.ofInt n), h)
  | real d => (.number d, h)
  | string s => (.string s, h)
  | array items =>
    let (values, h) := itemValues h items
    (.sequence h.nextSequence, h.pushSequence values)
  | object members =>
    let (entries, h) := memberValues h members
    (.plain h.nextPlain, h.pushPlain (.ofList (sortMembers entries)))

def itemValues (h : Heap) : List Json → List Value × Heap
  | [] => ([], h)
  | item :: rest =>
    let (v, h) := toValue h item
    let (vs, h) := itemValues h rest
    (v :: vs, h)

def memberValues (h : Heap) : List (String × Json) → List (String × Value) × Heap
  | [] => ([], h)
  | (key, item) :: rest =>
    let (v, h) := toValue h item
    let (vs, h) := memberValues h rest
    ((key, v) :: vs, h)

end

/-- Whole numbers are written as such below this magnitude. -/
def wholeLimit : Nat := 2 ^ 53

def ofNumber (d : Double) : Json :=
  if d.isIntegral ∧ d.magnitude < wholeLimit then int d.toInt
  else if d.isFinite then real d
  else null

end Json

namespace Heap

/-- The document of a value that nests less than `depth` deep. Undefined, functions and script
objects have none: they are null in a sequence and dropped from a plain object, whose members are sorted. -/
def jsonWithin (h : Heap) : Nat → Value → Option Json
  | 0, _ => none
  | depth + 1, v =>
    match v with
    | .undefined | .function _ | .object _ => none
    | .null => some .null
    | .bool b => some (.bool b)
    | .number d => some (.ofNumber d)
    | .string s => some (.string s)
    | .sequence id =>
      some (.array ((h.sequence id).map fun item => (h.jsonWithin depth item).getD .null))
    | .plain id =>
      some (.object (Json.sortMembers ((h.plain id).toList.filterMap fun entry =>
        (h.jsonWithin depth entry.2).map fun document => (entry.1, document))))
    | .date millis => some (.string (String.ofList (Calendar.stampText millis)))
    | .error _ => some (.object [])

def json (h : Heap) (v : Value) : Option Json := h.jsonWithin h.depthBound v

end Heap

end ScriptBridge
