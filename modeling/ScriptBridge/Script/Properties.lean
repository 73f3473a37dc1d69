import ScriptBridge.Bridge.ToHost
import ScriptBridge.Script.Convert
import ScriptBridge.Sequence.Growth
import ScriptBridge.Value.Text

/-!
Writing, defining, deleting and listing properties.

Stand-ins pass slots and lengths of sequences, and all named keys of plain objects, on to the host
container; what is left goes to their targets. After a stand-in has answered, the engine compares
the answer with the target and refuses the ones that cannot be.
-/

namespace ScriptBridge.Script

/-! ### Ordinary objects -/

/-- Deletes the slots of an array from `length` on. -/
def truncated (length : Nat) (properties : Entries PropertyKey Property) :
    Entries PropertyKey Property :=
  properties.keys.foldl (fun ps key =>
    match key with
    | .index n => if n < length then ps else ps.erase key
    | _ => ps) properties

def arrayLength (properties : Entries PropertyKey Property) : Nat :=
  match properties.get? .length with
  | some (.data (.number d) ..) => d.toWord 53
  | _ => 0

theorem keepsFixed_truncated (length : Nat) (properties : Entries PropertyKey Property) :
    KeepsFixed properties (truncated length properties) := by
  unfold truncated
  generalize properties.keys = keys
  induction keys generalizing properties with
  | nil => exact .refl properties
  | cons key rest ih =>
    refine .trans ?_ (ih _)
    intro t p found _
    cases key with
    | index n =>
      simp only
      split
      · exact found
      · have hk : PropertyKey.index n ≠ .name t := by simp
        exact (Entries.get?_erase_of_ne _ hk).trans found
    | name => exact found
    | symbol => exact found

def putLength (o : Object) (length : Nat) : Object :=
  o.write .length (.data (.number (.ofNat length)) true false false)

def withLength (o : Object) (length : Nat) : Object :=
  putLength { o with properties := truncated length o.properties } length

theorem becomes_withLength (o : Object) (length : Nat) : o.Becomes (withLength o length) := by
  let cut : Object := { o with properties := truncated length o.properties }
  have h := cut.becomes_write .length (.data (.number (.ofNat length)) true false false)
  exact ⟨h.kind, (keepsFixed_truncated length o.properties).trans h.fixed⟩

/-- An object after a property was written; the length of an array follows its last slot. -/
def stored (o : Object) (key : PropertyKey) (p : Property) : Object :=
  let o := o.write key p
  match o.kind, key with
  | .array, .index n => if arrayLength o.properties ≤ n then putLength o (n + 1) else o
  | _, _ => o

theorem becomes_stored (o : Object) (key : PropertyKey) (p : Property) :
    o.Becomes (stored o key p) := by
  have h := o.becomes_write key p
  unfold stored
  simp only
  split
  · split
    · refine ⟨?_, h.fixed.trans (Object.keepsFixed_write _ _ _)⟩
      simpa only [putLength, Object.kind_write] using .same o.kind
    · exact h
  · exact h

def storeProperty (id : ObjectId) (key : PropertyKey) (p : Property) : ScriptAct Unit :=
  Act.editObject id (fun o => stored o key p) fun o => becomes_stored o key p

def storeLength (r : Reentry) (id : ObjectId) (v : ScriptValue) : ScriptAct Unit := do
  match Number.arrayLength? (← toNumber r v) with
  | none => Act.throwNew "RangeError" "invalid array length"
  | some n =>
    Act.editObject id (withLength · n) (becomes_withLength · n)

def assignOwn (r : Reentry) (id : ObjectId) (o : Object) (key : PropertyKey) (v : ScriptValue) :
    ScriptAct Unit := do
  match o.kind with
  | .array =>
    if key = .length then storeLength r id v
    else
      match o.properties.get? key with
      | some (.data _ w e c) => storeProperty id key (.data v w e c)
      | _ => storeProperty id key (.open_ v)
  | _ =>
    match o.properties.get? key with
    | some (.data _ w e c) => storeProperty id key (.data v w e c)
    | _ => storeProperty id key (.open_ v)

inductive Refusal where
  | readOnly
  | noSetter
  | standIn
deriving DecidableEq

/-! ### Assignment -/

/-- What assigning through a stand-in does: `none` when the key is left to the target. -/
def assignHosted? (r : Reentry) (o : Object) (key : PropertyKey) (v : ScriptValue) :
    ScriptAct (Option ObjectId) :=
  match o.kind with
  | .sequenceProxy s target _ =>
    if key = .length then
      Bridge.intoScript do
        let requested ← Bridge.toHost r v
        Sequence.assignLength s (← Act.read (·.heap.number requested))
        return none
    else
      match key with
      | .index n =>
        Bridge.intoScript do
          Sequence.writeSlotWithin s n (← Bridge.toHost r v)
          return none
      | _ => return some target
  | .plainProxy p target =>
    match plainKey? key with
    | some name =>
      Bridge.intoScript do
        let v ← Bridge.toHost r v
        Act.setEntry p name v
        return none
    | none => return some target
  | _ => return none

/-- Assigns on behalf of `receiver`, asking an object and its prototypes, at most `steps` of them. -/
def setFrom (r : Reentry) (receiver : ObjectId) (key : PropertyKey) (v : ScriptValue) :
    Nat → Option ObjectId → ScriptAct (Option Refusal)
  | _, none => do
    match ← Act.object? receiver with
    | some o => assignOwn r receiver o key v
    | none => pure ()
    return none
  | 0, some _ => Act.giveUp
  | steps + 1, some id => do
    match ← Act.object? id with
    | none => return none
    | some o =>
      match o.kind with
      | .sequenceProxy .. | .plainProxy .. =>
        match ← assignHosted? r o key v with
        | none => return none
        | some target =>
          match ← setFrom r target key v steps (some target) with
          | none => return none
          | some _ => return some .standIn
      | _ =>
        match o.properties.get? key with
        | some (.data _ true ..) =>
          match ← Act.object? receiver with
          | some own => assignOwn r receiver own key v
          | none => pure ()
          return none
        | some (.data _ false ..) => return some .readOnly
        | some (.accessor _ (some setter) ..) => do
          let _ ← r.call setter (.object receiver) [v]
          return none
        | some (.accessor _ none ..) => return some .noSetter
        | none => setFrom r receiver key v steps o.prototype

def set (r : Reentry) (id : ObjectId) (key : PropertyKey) (v : ScriptValue) : ScriptAct Unit := do
  match ← setFrom r id key v (← chainBound) (some id) with
  | none => return ()
  | some .readOnly => Act.throwNamed "TypeError" "'" (keyName key) "' is read-only"
  | some .noSetter => Act.throwType "no setter for property"
  | some .standIn => Act.throwType "proxy: cannot set property"

/-- Assigns a property of any value; only objects take it. -/
def setValue (r : Reentry) (target : ScriptValue) (key : PropertyKey) (v : ScriptValue) :
    ScriptAct Unit :=
  match target with
  | .object id => set r id key v
  | .undefined | .null => Act.throwType "value has no property"
  | _ => Act.throwType "not an object"

/-! ### Own properties -/

/-- Looks up an own property of a stand-in or of an ordinary object. -/
def ownProperty? (id : ObjectId) (key : PropertyKey) : ScriptAct (Option Property) := do
  match ← Act.object? id with
  | none => return none
  | some o =>
    match o.kind with
    | .sequenceProxy s target _ =>
      let elements ← Act.elements s
      match key with
      | .index n =>
        match elements[n]? with
        | none => return none
        | some v => return some (.open_ (← Bridge.intoScript (Bridge.toScript v)))
      | _ =>
        let own := (← Act.object? target).bind (·.properties.get? key)
        match own with
        | some (.data _ w e c) =>
          if key = .length then return some (.data (.number (.ofNat elements.length)) w e c)
          else return own
        | own => return own
    | .plainProxy p target =>
      let entries ← Act.read (·.heap.plain p)
      match (plainKey? key).bind entries.get? with
      | some v => return some (.open_ (← Bridge.intoScript (Bridge.toScript v)))
      | none => return (← Act.object? target).bind (·.properties.get? key)
    | _ => return o.properties.get? key

/-- The own keys of an object. A stand-in lists the keys of its container before those of its
target; a key listed twice is an error. -/
def ownKeys (id : ObjectId) : ScriptAct (List PropertyKey) := do
  match ← Act.object? id with
  | none => return []
  | some o =>
    match o.kind with
    | .sequenceProxy s target _ =>
      let elements ← Act.elements s
      let own := ((← Act.object? target).map (·.ownKeys)).getD []
      return (List.range elements.length).map .ofNat ++ own.filter (!·.isIndex)
    | .plainProxy p target =>
      let entries ← Act.read (·.heap.plain p)
      let own := ((← Act.object? target).map (·.ownKeys)).getD []
      let keys := entries.keys.map .ofString ++ own
      if keys.Nodup then return keys else Act.throwType "proxy: duplicate property"
    | _ => return o.ownKeys

/-- Marks an own key as enumerable or not; symbols do not count as enumerable. -/
def mark (id : ObjectId) (key : PropertyKey) : ScriptAct (PropertyKey × Bool) := do
  match key with
  | .symbol _ => return (key, false)
  | key => return (key, ((← ownProperty? id key).map (·.enumerable)).getD false)

def listedKeys (id : ObjectId) : ScriptAct (List PropertyKey) := do
  let keys ← ownKeys id
  let marked ← Act.mapAll (mark id) keys
  return (marked.filter (·.2)).map (·.1)

def hasFrom (key : PropertyKey) : Nat → Option ObjectId → ScriptAct Bool
  | _, none => return false
  | 0, some _ => Act.giveUp
  | steps + 1, some id => do
    match ← Act.object? id with
    | none => return false
    | some o =>
      match o.kind with
      | .sequenceProxy s target _ =>
        match key with
        | .index n => return n < (← Act.elements s).length
        | _ => hasFrom key steps (some target)
      | .plainProxy p target =>
        let entries ← Act.read (·.heap.plain p)
        if ((plainKey? key).bind entries.get?).isSome then return true
        else hasFrom key steps (some target)
      | _ => if o.properties.contains key then return true else hasFrom key steps o.prototype

def has (id : ObjectId) (key : PropertyKey) : ScriptAct Bool := do
  hasFrom key (← chainBound) (some id)

/-! ### Deletion -/

/-- Deletes an own property of an ordinary object, unless it is fixed. -/
def deleteOwn (id : ObjectId) (key : PropertyKey) : ScriptAct Bool := do
  match ← Act.object? id with
  | none => return true
  | some o =>
    match o.properties.get? key with
    | none => return true
    | some p =>
      if p.configurable then
        Act.editObject id (·.remove key) (·.becomes_remove key)
        return true
      else return false

def deleteProperty (id : ObjectId) (key : PropertyKey) : ScriptAct Bool := do
  match ← Act.object? id with
  | none => return true
  | some o =>
    match o.kind with
    | .sequenceProxy s target _ =>
      match key with
      | .index n =>
        Bridge.intoScript (Sequence.clearSlot s n)
        return true
      | _ => deleteOwn target key
    | .plainProxy p target =>
      match plainKey? key with
      | some name =>
        let _ ← Act.removeEntry p name
        return true
      | none => deleteOwn target key
    | _ => deleteOwn id key

/-- Deletes in strict code: what stays is an error. -/
def delete (id : ObjectId) (key : PropertyKey) : ScriptAct Unit := do
  if ← deleteProperty id key then return () else Act.throwType "could not delete property"

/-! ### Definition -/

/-- A property to be defined: a value that can be changed in every way, or a function to read it
through. -/
inductive Definition where
  | value (v : ScriptValue)
  | getter (f : ObjectId)

/-- Defines an own property of an ordinary object; a fixed one stays as it is. -/
def defineOwn (id : ObjectId) (key : PropertyKey) (d : Definition) : ScriptAct Bool := do
  match ← Act.object? id with
  | none => return true
  | some o =>
    let old := o.properties.get? key
    if old.any (!·.configurable) then return false
    else
      let p := match d with
        | .value v => .open_ v
        | .getter f => .accessor (some f) none ((old.map (·.enumerable)).getD false) true
      storeProperty id key p
      return true

def define (r : Reentry) (id : ObjectId) (key : PropertyKey) (d : Definition) :
    ScriptAct Unit := do
  let refuseFixed (done : Bool) (message : String) : ScriptAct Unit :=
    if done then return () else Act.throwType message
  match ← Act.object? id with
  | none => return ()
  | some o =>
    match o.kind, d with
    | .sequenceProxy .., .value v =>
      match ← assignHosted? r o key v with
      | none =>
        -- the target's own length is fixed, and the definition asked for one that is not
        if key = .length then Act.throwType "proxy: inconsistent defineProperty" else return ()
      | some target => refuseFixed (← defineOwn target key d) "proxy: defineProperty exception"
    | .plainProxy .., .value v =>
      match ← assignHosted? r o key v with
      | none => return ()
      | some target => refuseFixed (← defineOwn target key d) "proxy: defineProperty exception"
    | .sequenceProxy _ target _, .getter _ | .plainProxy _ target, .getter _ =>
      refuseFixed (← defineOwn target key d) "proxy: defineProperty exception"
    | _, _ => refuseFixed (← defineOwn id key d) "property is not configurable"

end ScriptBridge.Script
