import ScriptBridge.Bridge.ToHost
import ScriptBridge.Script.Iteration

/-!
Script iterators driven from the host. An iterator ends when it says that it is done or when a step
fails; it is then not asked again, and there is nothing left to close.
-/

namespace ScriptBridge.Bridge

/-- A script iterator in the hands of the host. -/
structure Iterator where
  source : Script.OpenIterator
  ended : Bool := false

namespace Iterator

def ofValue (r : Reentry) (v : Value) : HostAct Iterator := do
  let v ← toScript v
  let iterator ← intoHost r do
    let method ← Script.getValue r v (.symbol .iterator)
    match ← Script.callable? method with
    | none => Act.throwType "value is not iterable"
    | some f => Script.callValue r (← Script.get r f (.ofString "call")) method [v]
  if Script.isObject iterator then
    let next ← intoHost r (Script.getValue r iterator (.ofString "next"))
    match ← intoHost r (Script.callable? next) with
    | some _ => return { source := { iterator, next } }
    | none => wrongType next "function"
  else wrongType iterator "object"

/-- Asks for the next value; `none` when the iterator says that it is done. -/
def ask (r : Reentry) (source : Script.OpenIterator) : HostAct (Option Value) := do
  let result ← intoHost r (Script.callValue r source.next source.iterator [])
  if Script.isObject result then
    let done ← intoHost r (Script.getValue r result (.ofString "done"))
    if (← toHost r done).truthy then return none
    else return some (← toHost r (← intoHost r (Script.getValue r result (.ofString "value"))))
  else wrongType result "object"

/-- The next item, a value or the failure that ends the iteration; `none` from the end on. -/
def advance (r : Reentry) (it : Iterator) : HostAct (Option (Except Error Value) × Iterator) := do
  if it.ended then return (none, it)
  else
    match ← (ask r it.source).attempt (δ := Error) with
    | .ok (some v) => return (some (.ok v), it)
    | .ok none => return (none, { it with ended := true })
    | .error e => return (some (.error e), { it with ended := true })

/-- The next items, at most `limit` of them, and the iterator after them. -/
def take (r : Reentry) : Nat → Iterator → HostAct (List (Except Error Value) × Iterator)
  | 0, it => return ([], it)
  | limit + 1, it => do
    match ← it.advance r with
    | (none, it) => return ([], it)
    | (some item, it) =>
      let (items, it) ← take r limit it
      return (item :: items, it)

/-- Stops early: tells the iterator, if it has not ended and wants to know. -/
def close (r : Reentry) (it : Iterator) : HostAct Unit := do
  if it.ended then return ()
  else
    intoHost r do
      let method ← Script.getValue r it.source.iterator (.ofString "return")
      match ← Script.callable? method with
      | none => return ()
      | some f =>
        let _ ← Script.callValue r (← Script.get r f (.ofString "call")) method
          [it.source.iterator]

end Iterator

end ScriptBridge.Bridge
