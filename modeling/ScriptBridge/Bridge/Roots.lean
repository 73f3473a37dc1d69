import ScriptBridge.Bridge.Registry

/-!
The references into its heap that a runtime has given to the host. The runtime knows them, so that
it can release them when it goes; from time to time it forgets those that the host has let go of.
-/

namespace ScriptBridge

/-- References are numbered in the order in which they are taken. -/
structure Roots where
  taken : Nat := 0
  /-- The references the runtime knows, as they were taken. -/
  known : Array Nat := #[]
  /-- The references the host has let go of. -/
  dropped : List Nat := []

namespace Roots

def holds (g : Roots) (number : Nat) : Bool := !g.dropped.contains number

/-- What the runtime knows once it has forgotten dropped references, which it does when the list has
grown by one interval. -/
def pruned (g : Roots) : Array Nat :=
  if g.known.size % Registry.pruneInterval = Registry.pruneInterval - 1 then
    g.known.filter g.holds
  else g.known

/-- Takes a new reference; its number is the count of those before it. -/
def take (g : Roots) : Roots :=
  { g with taken := g.taken + 1, known := g.pruned.push g.taken }

/-- The host lets go of a reference. -/
def drop (g : Roots) (number : Nat) : Roots := { g with dropped := number :: g.dropped }

/-- The references that the runtime releases when it goes: those the host still has. -/
def live (g : Roots) : List Nat := (g.known.filter g.holds).toList

end Roots

end ScriptBridge
