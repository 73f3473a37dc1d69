import ScriptBridge.Value

/-!
Cursors: positions in a live sequence, for walking over its keys, values or entries.
-/

namespace ScriptBridge

inductive CursorKind where
  | keys
  | values
  | entries
deriving DecidableEq, Repr

/-- A walk over a sequence; an exhausted cursor stays so. -/
structure Cursor where
  sequence : SequenceId
  kind : CursorKind
  position : Nat := 0
  exhausted : Bool := false
deriving DecidableEq, Repr

/-- What a cursor gives for one slot. -/
inductive CursorItem where
  | key (index : Nat)
  | value (v : Value)
  | entry (index : Nat) (v : Value)
deriving DecidableEq

def CursorKind.item (kind : CursorKind) (index : Nat) (v : Value) : CursorItem :=
  match kind with
  | .keys => .key index
  | .values => .value v
  | .entries => .entry index v

/-- One step over the elements the sequence holds now. -/
def Cursor.step (c : Cursor) (elements : List Value) : Option CursorItem × Cursor :=
  if c.exhausted then (none, c)
  else
    match elements[c.position]? with
    | none => (none, { c with exhausted := true })
    | some v => (some (c.kind.item c.position v), { c with position := c.position + 1 })

end ScriptBridge
