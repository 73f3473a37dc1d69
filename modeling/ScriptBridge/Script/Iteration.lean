import ScriptBridge.Script.Convert

/-!
The iterator protocol, driven from the script side.
-/

namespace ScriptBridge.Script

structure OpenIterator where
  iterator : ScriptValue
  next : ScriptValue

def openIterator (r : Reentry) (v : ScriptValue) : ScriptAct OpenIterator := do
  match ← callable? (← getValue r v (.symbol .iterator)) with
  | none => Act.throwType "value is not iterable"
  | some f =>
    let iterator ← r.call f v []
    if isObject iterator then
      return { iterator, next := ← getValue r iterator (.ofString "next") }
    else Act.throwType "not an object"

/-- One step; `none` when the iterator says that it is done. -/
def OpenIterator.step (r : Reentry) (it : OpenIterator) : ScriptAct (Option ScriptValue) := do
  let result ← callValue r it.next it.iterator []
  if !isObject result then Act.throwType "iterator must return an object"
  else if truthy (← getValue r result (.ofString "done")) then return none
  else return some (← getValue r result (.ofString "value"))

/-- All values an iterator still gives, in at most `steps` steps. -/
def OpenIterator.collect (r : Reentry) (it : OpenIterator) : Nat → ScriptAct (List ScriptValue)
  | 0 => Act.giveUp
  | steps + 1 => do
    match ← it.step r with
    | none => return []
    | some v => return v :: (← collect r it steps)

def iterated (r : Reentry) (v : ScriptValue) : ScriptAct (List ScriptValue) := do
  (← openIterator r v).collect r r.bound

end ScriptBridge.Script
