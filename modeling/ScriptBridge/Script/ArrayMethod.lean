import ScriptBridge.Script.Operators
import ScriptBridge.Sequence.Sort

/-!
The methods of arrays, which work on anything that has a length: they read, write and delete
properties and so reach a host sequence through its stand-in.
-/

namespace ScriptBridge.Script

/-! ### Positions -/

/-- What stands at a position; `none` for a hole. -/
def elementAt? (r : Reentry) (id : ObjectId) (i : Nat) : ScriptAct (Option ScriptValue) := do
  if ← has id (.ofNat i) then return some (← get r id (.ofNat i)) else return none

def elementAt (r : Reentry) (id : ObjectId) (i : Nat) : ScriptAct ScriptValue := get r id (.ofNat i)

def writeAt (r : Reentry) (id : ObjectId) (i : Nat) (v : ScriptValue) : ScriptAct Unit :=
  set r id (.ofNat i) v

def assignLength (r : Reentry) (id : ObjectId) (length : Nat) : ScriptAct Unit :=
  set r id .length (.number (.ofNat length))

/-- Writes what stands at a position, or makes a hole. -/
def place (r : Reentry) (id : ObjectId) (i : Nat) (item : Option ScriptValue) : ScriptAct Unit :=
  match item with
  | some v => writeAt r id i v
  | none => delete id (.ofNat i)

/-- Moves `count` positions, holes included, one after the other, from the front or from the
back. -/
def move (r : Reentry) (id : ObjectId) (onto first count : Nat) (fromBack : Bool) :
    ScriptAct Unit :=
  let steps := if fromBack then (List.range count).reverse else List.range count
  Act.forEach (fun i => do place r id (onto + i) (← elementAt? r id (first + i))) steps

/-- Deletes the positions from `first` up to `stop`, from the back. -/
def deleteRange (id : ObjectId) (first stop : Nat) : ScriptAct Unit :=
  Act.forEach (fun i => delete id (.ofNat (first + i))) (List.range (stop - first)).reverse

/-- The items of a whole array, holes as undefined. -/
def itemsOf (r : Reentry) (id : ObjectId) : ScriptAct (List ScriptValue) := do
  Act.mapAll (elementAt r id) (List.range (← lengthOf r id))

/-! ### Callbacks -/

def callbackOf (args : List ScriptValue) : ScriptAct ObjectId := do
  match ← callable? (args.getD 0 .undefined) with
  | some f => return f
  | none => Act.throwType "not a function"

def visitItem (r : Reentry) (id f : ObjectId) (args : List ScriptValue) (v : ScriptValue) (i : Nat) :
    ScriptAct ScriptValue :=
  r.call f (args.getD 1 .undefined) [v, .number (.ofNat i), .object id]

/-- Steps through the positions that are no holes as long as `step` says to go on. -/
def walkPresent {β : Type} (r : Reentry) (id : ObjectId)
    (step : β → Nat → ScriptValue → ScriptAct (β × Bool)) (state : β) : List Nat → ScriptAct β
  | [] => return state
  | i :: rest => do
    match ← elementAt? r id i with
    | none => walkPresent r id step state rest
    | some v =>
      let (state, goOn) ← step state i v
      if goOn then walkPresent r id step state rest else return state

/-- The first position in a given order whose item the callback accepts. -/
def findItem (r : Reentry) (id f : ObjectId) (args : List ScriptValue) :
    List Nat → ScriptAct (Option (Nat × ScriptValue))
  | [] => return none
  | i :: rest => do
    let v ← elementAt r id i
    if truthy (← visitItem r id f args v i) then return some (i, v)
    else findItem r id f args rest

def indexValue (i : Option Nat) : ScriptValue :=
  .number ((i.map Double.ofNat).getD (.ofInt (-1)))

/-- Folds over the positions that are no holes; the first of them starts where no start is given. -/
def foldItems (r : Reentry) (id f : ObjectId) (start : Option ScriptValue)
    (positions : List Nat) : ScriptAct ScriptValue := do
  let step (acc : Option ScriptValue) (i : Nat) (v : ScriptValue) :
      ScriptAct (Option ScriptValue × Bool) := do
    match acc with
    | none => return (some v, true)
    | some acc =>
      return (some (← r.call f .undefined [acc, v, .number (.ofNat i), .object id]), true)
  match ← walkPresent r id step start positions with
  | some v => return v
  | none => Act.throwType "empty array"

/-! ### Nested arrays -/

/-- The items with those of nested arrays, `depth` levels deep; holes are left out. -/
def flattened (r : Reentry) : Nat → ObjectId → ScriptAct (List ScriptValue)
  | depth, id => do
    let length ← lengthOf r id
    walkPresent r id (fun (items : List ScriptValue) _ v => do
      match depth, v with
      | depth + 1, .object nested =>
        if ← isArray (ε := ScriptValue) v then
          return (items ++ (← flattened r depth nested), true)
        else return (items ++ [v], true)
      | _, v => return (items ++ [v], true)) [] (List.range length)

/-- How deep to flatten: one level unless said otherwise. -/
def flatDepth (r : Reentry) (v : ScriptValue) : ScriptAct Nat := do
  match v with
  | .undefined => return 1
  | v => return Nat.min ((← toInteger r v).toWord 31) r.bound

/-- A value opened as an array, or by itself. -/
def opened (r : Reentry) (v : ScriptValue) : ScriptAct (List (Option ScriptValue)) := do
  match v with
  | .object id =>
    if ← isArray (ε := ScriptValue) v then
      Act.mapAll (elementAt? r id) (List.range (← lengthOf r id))
    else return [some v]
  | v => return [some v]

/-! ### Texts -/

/-- The items joined by a separator, each turned into text by `text`; null and undefined give
none. -/
def joined (r : Reentry) (id : ObjectId) (separator : Utf16) (text : ScriptValue → ScriptAct Utf16) :
    ScriptAct ScriptValue := do
  let texts ← Act.mapAll (fun i => do
    match ← elementAt r id i with
    | .undefined | .null => return []
    | v => text v) (List.range (← lengthOf r id))
  return .string (List.intercalate separator texts)

/-- The text an item has for people. -/
def localeTextOf (r : Reentry) (v : ScriptValue) : ScriptAct Utf16 := do
  toText r (← callValue r (← getValue r v (.ofString "toLocaleString")) v [])

/-! ### Sorting -/

def comparatorOf (args : List ScriptValue) : ScriptAct (Option ObjectId) := do
  match args.getD 0 .undefined with
  | .undefined => return none
  | _ => return some (← callbackOf args)

/-- Sorts items: by a comparison, or by their texts; undefined ones go last. -/
def sorted (r : Reentry) (comparator : Option ObjectId) (items : List ScriptValue) :
    ScriptAct (List ScriptValue) := do
  let (absent, defined) := items.partition (· = .undefined)
  match comparator with
  | some f =>
    let after (a b : ScriptValue) : ScriptAct Bool := do
      return (Double.zero false).lt (← toNumber r (← r.call f .undefined [a, b]))
    return (← Sequence.mergeSort after defined) ++ absent
  | none =>
    let keyed ← Act.mapAll (fun v => do return (← toText r v, v)) defined
    let result : Id (List (Utf16 × ScriptValue)) :=
      Sequence.mergeSort (fun a b => Pure.pure (b.1.lt a.1)) keyed
    return result.run.map Prod.snd ++ absent

def sortItems (r : Reentry) (id : ObjectId) (args : List ScriptValue) : ScriptAct Unit := do
  let comparator ← comparatorOf args
  let length ← lengthOf r id
  let slots ← Act.mapAll (elementAt? r id) (List.range length)
  let items ← sorted r comparator (slots.filterMap fun slot => slot)
  Act.forEach (fun (v, i) => writeAt r id i v) items.zipIdx
  deleteRange id items.length length

/-! ### Removing and inserting -/

/-- The positions a splice of a list of this length starts at, and how many it removes. -/
def spliceRange (r : Reentry) (length : Nat) (args : List ScriptValue) : ScriptAct (Nat × Nat) := do
  let start ← relativePosition r args[0]? length 0
  match args with
  | [] => return (start, 0)
  | [_] => return (start, length - start)
  | _ :: count :: _ =>
    let count ← toInteger r count
    return (start, Nat.min (count.toWord 53) (length - start))

def spliceItems (r : Reentry) (id : ObjectId) (args : List ScriptValue) : ScriptAct ScriptValue := do
  let length ← lengthOf r id
  let (start, removed) ← spliceRange r length args
  let items := args.drop 2
  let taken ← Act.mapAll (fun i => elementAt? r id (start + i)) (List.range removed)
  let result ← newSparseArray taken
  let newLength := length + items.length - removed
  if items.length ≠ removed then
    move r id (start + items.length) (start + removed) (length - (start + removed))
      (removed < items.length)
    deleteRange id newLength length
  Act.forEach (fun (v, i) => writeAt r id (start + i) v) items.zipIdx
  assignLength r id newLength
  return result

def reverseItems (r : Reentry) (id : ObjectId) : ScriptAct Unit := do
  let length ← lengthOf r id
  Act.forEach (fun i => do
    let low ← elementAt? r id i
    let high ← elementAt? r id (length - 1 - i)
    if low.isSome || high.isSome then
      place r id i high
      place r id (length - 1 - i) low) (List.range (length / 2))

/-- A position counted from the end where it is negative, if it lies inside. -/
def insidePosition? (r : Reentry) (v : ScriptValue) (length : Nat) : ScriptAct (Option Nat) := do
  let d ← toInteger r v
  let position := if d.lt (.zero false) then (Double.ofNat length).add d else d
  if position.lt (.zero false) || (Double.ofNat length).le position then return none
  else return some (position.toWord 53)

/-! ### Dispatch -/

def arrayMethod (r : Reentry) (name : String) (id : ObjectId) (args : List ScriptValue) :
    ScriptAct ScriptValue := do
  let self : ScriptValue := .object id
  let arg (i : Nat) : ScriptValue := args.getD i .undefined
  match name with
  | "push" =>
    let length ← lengthOf r id
    Act.forEach (fun (v, i) => writeAt r id (length + i) v) args.zipIdx
    assignLength r id (length + args.length)
    return .number (.ofNat (length + args.length))
  | "unshift" =>
    let length ← lengthOf r id
    if !args.isEmpty then move r id args.length 0 length true
    Act.forEach (fun (v, i) => writeAt r id i v) args.zipIdx
    assignLength r id (length + args.length)
    return .number (.ofNat (length + args.length))
  | "pop" =>
    let length ← lengthOf r id
    if length = 0 then
      assignLength r id 0
      return .undefined
    else
      let v ← elementAt r id (length - 1)
      delete id (.ofNat (length - 1))
      assignLength r id (length - 1)
      return v
  | "shift" =>
    let length ← lengthOf r id
    if length = 0 then
      assignLength r id 0
      return .undefined
    else
      let v ← elementAt r id 0
      move r id 0 1 (length - 1) false
      delete id (.ofNat (length - 1))
      assignLength r id (length - 1)
      return v
  | "slice" =>
    let length ← lengthOf r id
    let start ← relativePosition r args[0]? length 0
    let stop ← relativePosition r (args[1]?.filter (· ≠ .undefined)) length length
    newSparseArray (← Act.mapAll (fun i => elementAt? r id (start + i)) (List.range (stop - start)))
  | "splice" => spliceItems r id args
  | "toSpliced" =>
    let length ← lengthOf r id
    let (start, removed) ← spliceRange r length args
    let items ← Act.mapAll (elementAt r id) (List.range length)
    newArray (items.take start ++ args.drop 2 ++ items.drop (start + removed))
  | "concat" =>
    newSparseArray (← Act.mapAll (opened r) (self :: args)).flatten
  | "join" =>
    let length ← lengthOf r id
    let separator ← match arg 0 with
      | .undefined => pure (Utf16.ofString ",")
      | v => toText r v
    if length = 0 then return .string [] else joined r id separator (toText r)
  | "toString" =>
    match ← callable? (← get r id (.ofString "join")) with
    | some f => r.call f self []
    | none => return .ofString "[object Object]"
  | "toLocaleString" => joined r id (.ofString ",") (localeTextOf r)
  | "reverse" =>
    reverseItems r id
    return self
  | "toReversed" => newArray (← itemsOf r id).reverse
  | "indexOf" =>
    let length ← lengthOf r id
    let first ← relativePosition r args[1]? length 0
    let found ← walkPresent r id (fun (_ : Option Nat) i v =>
      let same := strictEquals v (arg 0)
      return (if same then some i else none, !same)) none ((List.range length).drop first)
    return indexValue found
  | "lastIndexOf" =>
    let length ← lengthOf r id
    let count ← match args[1]? with
      | none => pure length
      | some v =>
        let d ← toInteger r v
        let last := if d.lt (.zero false) then (Double.ofNat length).add d else d
        pure (if last.lt (.zero false) then 0 else Nat.min (last.toWord 53 + 1) length)
    let found ← walkPresent r id (fun (_ : Option Nat) i v =>
      let same := strictEquals v (arg 0)
      return (if same then some i else none, !same)) none (List.range count).reverse
    return indexValue found
  | "includes" =>
    let length ← lengthOf r id
    let first ← relativePosition r args[1]? length 0
    let items ← Act.mapAll (elementAt r id) ((List.range length).drop first)
    return .bool (items.any fun v => sameValueZero v (arg 0))
  | "forEach" =>
    let length ← lengthOf r id
    let f ← callbackOf args
    walkPresent r id (fun _ i v => do
      let _ ← visitItem r id f args v i
      return ((), true)) () (List.range length)
    return .undefined
  | "map" =>
    let length ← lengthOf r id
    let f ← callbackOf args
    newSparseArray (← Act.mapAll (fun i => do
      match ← elementAt? r id i with
      | none => return none
      | some v => return some (← visitItem r id f args v i)) (List.range length))
  | "filter" =>
    let length ← lengthOf r id
    let f ← callbackOf args
    newArray (← walkPresent r id (fun kept i v => do
      return (if truthy (← visitItem r id f args v i) then kept ++ [v] else kept, true))
      [] (List.range length))
  | "some" =>
    let length ← lengthOf r id
    let f ← callbackOf args
    return .bool (← walkPresent r id (fun _ i v => do
      let found := truthy (← visitItem r id f args v i)
      return (found, !found)) false (List.range length))
  | "every" =>
    let length ← lengthOf r id
    let f ← callbackOf args
    return .bool (← walkPresent r id (fun _ i v => do
      let holds := truthy (← visitItem r id f args v i)
      return (holds, holds)) true (List.range length))
  | "find" | "findIndex" =>
    let length ← lengthOf r id
    let f ← callbackOf args
    let found ← findItem r id f args (List.range length)
    if name = "find" then return (found.map (·.2)).getD .undefined
    else return indexValue (found.map (·.1))
  | "findLast" | "findLastIndex" =>
    let length ← lengthOf r id
    let f ← callbackOf args
    let found ← findItem r id f args (List.range length).reverse
    if name = "findLast" then return (found.map (·.2)).getD .undefined
    else return indexValue (found.map (·.1))
  | "reduce" =>
    let length ← lengthOf r id
    foldItems r id (← callbackOf args) args[1]? (List.range length)
  | "reduceRight" =>
    let length ← lengthOf r id
    foldItems r id (← callbackOf args) args[1]? (List.range length).reverse
  | "flat" => newArray (← flattened r (← flatDepth r (arg 0)) id)
  | "flatMap" =>
    let length ← lengthOf r id
    let f ← callbackOf args
    newSparseArray (← walkPresent r id (fun items i v => do
      let more ← opened r (← visitItem r id f args v i)
      return (items ++ more.filter (·.isSome), true)) [] (List.range length))
  | "fill" =>
    let length ← lengthOf r id
    let start ← relativePosition r args[1]? length 0
    let stop ← relativePosition r (args[2]?.filter (· ≠ .undefined)) length length
    Act.forEach (fun i => writeAt r id (start + i) (arg 0)) (List.range (stop - start))
    return self
  | "copyWithin" =>
    let length ← lengthOf r id
    let onto ← relativePosition r args[0]? length 0
    let first ← relativePosition r args[1]? length 0
    let stop ← relativePosition r (args[2]?.filter (· ≠ .undefined)) length length
    let count := Nat.min (stop - first) (length - onto)
    move r id onto first count (first < onto ∧ onto < first + count)
    return self
  | "sort" =>
    sortItems r id args
    return self
  | "toSorted" =>
    let comparator ← comparatorOf args
    newArray (← sorted r comparator (← itemsOf r id))
  | "at" =>
    match ← insidePosition? r (arg 0) (← lengthOf r id) with
    | some i => elementAt r id i
    | none => return .undefined
  | "with" =>
    match ← insidePosition? r (arg 0) (← lengthOf r id) with
    | some i => newArray ((← itemsOf r id).set i (arg 1))
    | none => Act.throwNew "RangeError" "invalid array index"
  | "keys" | "values" | "entries" =>
    let kind : CursorKind :=
      if name = "keys" then .keys else if name = "values" then .values else .entries
    return .object (← Act.newObject
      (.bare (.arrayIterator (some id) kind 0) Intrinsic.arrayIteratorPrototype))
  | _ => return .undefined

end ScriptBridge.Script
