import ScriptBridge.Value

/-!
The tables that tie host handles to their stand-ins. The script side finds the stand-in of a handle
and the handle behind a stand-in; the host side tracks the handles it can resolve, and forgets from
time to time those that nothing holds any more.
-/

namespace ScriptBridge

structure Registry where
  /-- The one stand-in of each handle that has crossed. -/
  standIns : List (Handle × ObjectId) := []
  /-- What each stand-in stands for. -/
  behind : List (ObjectId × Handle) := []
  /-- The handles the host can resolve. -/
  tracked : List Handle := []
  insertions : Nat := 0

namespace Registry

/-- After so many insertions the host forgets handles that nothing holds. -/
def pruneInterval : Nat := 256

def standIn? (g : Registry) (handle : Handle) : Option ObjectId :=
  (g.standIns.find? (·.1 == handle)).map (·.2)

def identify? (g : Registry) (id : ObjectId) : Option Handle :=
  (g.behind.find? (·.1 == id)).map (·.2)

/-- The handle behind an object, if the host can still resolve it. -/
def resolve? (g : Registry) (id : ObjectId) : Option Handle :=
  (g.identify? id).filter (g.tracked.contains ·)

/-- Whether something holds a handle: a stand-in holds the one it stands for. -/
def holds (g : Registry) (handle : Handle) : Bool := (g.standIn? handle).isSome

/-- Tracks a handle; every so many insertions those that nothing holds are forgotten. -/
def track (g : Registry) (handle : Handle) : Registry :=
  let tracked := handle :: g.tracked
  if pruneInterval ≤ g.insertions + 1 then
    { g with tracked := tracked.filter g.holds, insertions := 0 }
  else { g with tracked, insertions := g.insertions + 1 }

/-- Ties a handle to its new stand-in. -/
def register (g : Registry) (handle : Handle) (id : ObjectId) : Registry :=
  { g with
    standIns := (handle, id) :: g.standIns
    behind := (id, handle) :: g.behind }.track handle

end Registry

end ScriptBridge
