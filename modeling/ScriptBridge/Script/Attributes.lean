import ScriptBridge.Script.Properties

/-!
Defining values with attributes on the stand-in of a sequence.
-/

namespace ScriptBridge.Script

/-- The attributes that the definition of a value asks for; any of them may be left out. -/
structure Attributes where
  writable : Option Bool := none
  enumerable : Option Bool := none
  configurable : Option Bool := none
deriving DecidableEq, Repr

namespace Attributes

/-- Those of a property that can be changed in every way. -/
def all : Attributes := ⟨some true, some true, some true⟩

/-- Whether a definition agrees with what the target of a stand-in has under the key. Its own length
is writable and fixed otherwise, and a slot it lacks, or has as an accessor that can be changed in
every way. -/
def fits (asked : Attributes) (key : PropertyKey) : Bool :=
  if key = .length then
    asked.writable != some false && asked.enumerable != some true &&
      asked.configurable != some true
  else asked.configurable != some false

end Attributes

/-- What defining a value on the stand-in of a sequence does: `none` when the sequence took it, and
the target when the key is left to that. The engine compares with the target only afterwards. -/
def defineHosted? (r : Reentry) (id : ObjectId) (key : PropertyKey) (v : ScriptValue)
    (asked : Attributes) : ScriptAct (Option ObjectId) := do
  match ← Act.object? id with
  | none => return none
  | some o =>
    match ← assignHosted? r o key v with
    | none =>
      if asked.fits key then return none else Act.throwType "proxy: inconsistent defineProperty"
    | some target => return some target

end ScriptBridge.Script
