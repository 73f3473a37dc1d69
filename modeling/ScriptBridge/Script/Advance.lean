import ScriptBridge.Script.Call

/-!
Advancing cursors: what they yield as a value, on the host and behind the iterators of scripts.
-/

namespace ScriptBridge

/-- The value a cursor yields next, none at its end, and the cursor after it. -/
def Cursor.advance (c : Cursor) : HostAct (Option Value × Cursor) := do
  let (item, c) := c.step (← Act.elements c.sequence)
  match item with
  | none => return (none, c)
  | some item => return (some (← Script.itemValue item), c)

end ScriptBridge
