import ScriptBridge.Bridge.StandIn

/-!
Making arrays, and the objects that primitives turn into where an object is needed.
-/

namespace ScriptBridge.Script

variable {ε : Type}

/-- A new array whose positions hold the given items; an absent one is a hole. -/
def newSparseArray (items : List (Option ScriptValue)) : Act ε ScriptValue := do
  let slots := items.zipIdx.foldl (fun properties (item, i) =>
    match item with
    | some v => properties.insert (PropertyKey.index i) (.open_ v)
    | none => properties) Entries.empty
  let length : Property := .data (.number (.ofNat items.length)) true false false
  return .object (← Act.newObject
    { kind := .array
      prototype := some Intrinsic.arrayPrototype
      properties := slots.insert .length length })

def newArray (items : List ScriptValue) : Act ε ScriptValue := newSparseArray (items.map some)

def newRecord (members : List (String × ScriptValue)) : Act ε ScriptValue := do
  return .object (← Act.newObject
    { kind := .ordinary
      prototype := some Intrinsic.objectPrototype
      properties := members.foldl (fun properties (key, v) =>
        properties.insert (.ofString key) (.open_ v)) Entries.empty })

def newIteratorResult (value : ScriptValue) (done : Bool) : Act ε ScriptValue :=
  newRecord [("value", value), ("done", .bool done)]

/-- The properties of the object around a text: its code units, and its length. -/
def textProperties (t : Utf16) : Entries PropertyKey Property :=
  (t.zipIdx.foldl (fun properties (u, i) =>
    properties.insert (PropertyKey.index i) (.data (.string [u]) false true false))
    Entries.empty).insert .length (.data (.number (.ofNat t.length)) false false false)

def newWrapper (v : ScriptValue) (prototype : ObjectId) : Act ε ObjectId :=
  Act.newObject { kind := .wrapper v, prototype := some prototype }

/-- The object a value is or turns into; null and undefined turn into none. -/
def toObject (v : ScriptValue) : ScriptAct ObjectId :=
  match v with
  | .object id => return id
  | .undefined | .null => Act.throwType "cannot convert to object"
  | .string t =>
    Act.newObject
      { kind := .wrapper v
        prototype := some Intrinsic.stringPrototype
        properties := textProperties t }
  | .number _ => newWrapper v Intrinsic.numberPrototype
  | .bool _ => newWrapper v Intrinsic.booleanPrototype
  | .symbol _ => newWrapper v Intrinsic.symbolPrototype
  | .bigint _ => newWrapper v Intrinsic.bigintPrototype

end ScriptBridge.Script
