import ScriptBridge.World

/-!
The objects every script finds in place, and a fresh script heap that holds them.
-/

namespace ScriptBridge

namespace Intrinsic

def objectPrototype : ObjectId := ⟨0⟩
def functionPrototype : ObjectId := ⟨1⟩
def arrayPrototype : ObjectId := ⟨2⟩
def errorPrototype : ObjectId := ⟨3⟩
def datePrototype : ObjectId := ⟨4⟩
def iteratorPrototype : ObjectId := ⟨5⟩
def arrayIteratorPrototype : ObjectId := ⟨6⟩
def generatorPrototype : ObjectId := ⟨7⟩
def stringPrototype : ObjectId := ⟨8⟩
def stringIteratorPrototype : ObjectId := ⟨9⟩
def numberPrototype : ObjectId := ⟨10⟩
def booleanPrototype : ObjectId := ⟨11⟩
def symbolPrototype : ObjectId := ⟨12⟩
def bigintPrototype : ObjectId := ⟨13⟩
def promisePrototype : ObjectId := ⟨14⟩
def globalObject : ObjectId := ⟨15⟩
def mathObject : ObjectId := ⟨16⟩
def jsonObject : ObjectId := ⟨17⟩
def reflectObject : ObjectId := ⟨18⟩

/-- The error classes derived from the general one that a host error may surface as. -/
def derivedErrors : List String :=
  ["TypeError", "RangeError", "SyntaxError", "ReferenceError", "EvalError", "URIError"]

/-- Where the prototypes of the derived error classes begin. -/
def firstErrorPrototype : Nat := 19

/-- The engine's own class for internal failures. -/
def internalErrorPrototype : ObjectId := ⟨firstErrorPrototype + derivedErrors.length⟩

/-- The prototype of one of the seven standard error classes. -/
def errorPrototype? (name : String) : Option ObjectId :=
  if name = "Error" then some errorPrototype
  else (derivedErrors.idxOf? name).map fun i => ⟨firstErrorPrototype + i⟩

end Intrinsic

namespace Builtin

/-- Methods of every array, with the number of arguments they report. -/
def arrayMethods : List (String × Nat) :=
  [("at", 1), ("with", 2), ("concat", 1), ("every", 1), ("some", 1), ("forEach", 1), ("map", 1),
   ("filter", 1), ("reduce", 1), ("reduceRight", 1), ("fill", 1), ("find", 1), ("findIndex", 1),
   ("findLast", 1), ("findLastIndex", 1), ("indexOf", 1), ("lastIndexOf", 1), ("includes", 1),
   ("join", 1), ("toString", 0), ("toLocaleString", 0), ("pop", 0), ("push", 1), ("shift", 0),
   ("unshift", 1), ("reverse", 0), ("toReversed", 0), ("sort", 1), ("toSorted", 1), ("slice", 2),
   ("splice", 2), ("toSpliced", 2), ("copyWithin", 2), ("flatMap", 1), ("flat", 0), ("values", 0),
   ("keys", 0), ("entries", 0)]

def name : Builtin → String
  | objectConstructor => "Object"
  | functionConstructor => "Function"
  | arrayConstructor => "Array"
  | dateConstructor => "Date"
  | stringConstructor => "String"
  | numberConstructor => "Number"
  | booleanConstructor => "Boolean"
  | symbolConstructor => "Symbol"
  | bigintConstructor => "BigInt"
  | promiseConstructor => "Promise"
  | errorConstructor name | other name _ | arrayMethod name _ => name
  | objectToString | functionToString | errorToString | dateToString | primitiveToString =>
    "toString"
  | objectValueOf | primitiveValueOf => "valueOf"
  | hasOwnProperty => "hasOwnProperty"
  | protoGetter => "get __proto__"
  | protoSetter => "set __proto__"
  | functionCall => "call"
  | functionApply => "apply"
  | arrayIsArray => "isArray"
  | iteratorSelf | stringIterator => "[Symbol.iterator]"
  | arrayIteratorNext | generatorNext | stringIteratorNext => "next"
  | generatorReturn => "return"
  | generatorThrow => "throw"
  | dateGetTime => "getTime"
  | dateToStamp => "toISOString"
  | dateToJson => "toJSON"
  | dateToPrimitive => "[Symbol.toPrimitive]"
  | speciesGetter => "get [Symbol.species]"
  | jsonStringify => "stringify"

def length : Builtin → Nat
  | objectConstructor | functionConstructor | arrayConstructor | stringConstructor
  | numberConstructor | booleanConstructor | bigintConstructor | promiseConstructor
  | errorConstructor _ | hasOwnProperty | protoSetter | functionCall | arrayIsArray
  | generatorNext | generatorReturn | generatorThrow | dateToJson | dateToPrimitive => 1
  | functionApply => 2
  | dateConstructor => 7
  | jsonStringify => 3
  | arrayMethod _ n | other _ n => n
  | _ => 0

end Builtin

namespace Symbol

def iterator : Symbol := .wellKnown "iterator"

def toPrimitive : Symbol := .wellKnown "toPrimitive"

def toStringTag : Symbol := .wellKnown "toStringTag"

def wellKnownNames : List String :=
  ["iterator", "toStringTag", "toPrimitive", "hasInstance", "species", "isConcatSpreadable",
   "unscopables", "match", "matchAll", "replace", "search", "split", "asyncIterator"]

end Symbol

namespace Object

def bare (kind : ObjectKind) (prototype : ObjectId) : Object := { kind, prototype := some prototype }

theorem standsFor?_ordinary (prototype : ObjectId) :
    (bare .ordinary prototype).kind.standsFor? = none := rfl

/-- A function object: its `length` and `name` are not listed and cannot be assigned. -/
def function (code : FunctionCode) (name : Utf16) (length : Nat) : Object :=
  { kind := .function code
    prototype := some Intrinsic.functionPrototype
    properties := (Entries.empty.insert PropertyKey.length
        (.data (.number (.ofNat length)) false false true)).insert
      (.ofString "name") (.data (.string name) false false true) }

end Object

/-- The objects of a script heap, by their handles. -/
abbrev ObjectHeap := Arena Object

namespace ObjectHeap

/-- Puts an object on the heap. -/
def allocate (h : ObjectHeap) (o : Object) : ObjectId × ObjectHeap := (⟨h.size⟩, h.push o)

def put (h : ObjectHeap) (holder : ObjectId) (key : PropertyKey) (p : Property) : ObjectHeap :=
  match h.get? holder.index with
  | none => h
  | some o => h.set holder.index { o with properties := o.properties.insert key p }

/-- Puts a function on the heap and under a key of its holder. -/
def install (h : ObjectHeap) (holder : ObjectId) (key : PropertyKey) (b : Builtin) : ObjectHeap :=
  let (id, h) := h.allocate (.function (.builtin b) (.ofString b.name) b.length)
  h.put holder key (.hidden (.object id))

/-- Installs functions under their own names. -/
def installAll (h : ObjectHeap) (holder : ObjectId) (bs : List Builtin) : ObjectHeap :=
  bs.foldl (fun h b => h.install holder (.ofString b.name) b) h

/-- Puts a constructor under its name into the global object and ties it to its prototype. -/
def installConstructor (h : ObjectHeap) (b : Builtin) (prototype : ObjectId) : ObjectHeap :=
  let (id, h) := h.allocate (.function (.builtin b) (.ofString b.name) b.length)
  let h := h.put id (.ofString "prototype") (.data (.object prototype) false false false)
  let h := h.put prototype (.ofString "constructor") (.hidden (.object id))
  h.put Intrinsic.globalObject (.ofString b.name) (.hidden (.object id))

open Intrinsic in
/-- The intrinsic objects in the order of their handles. -/
def intrinsicObjects : List Object :=
  let plain := Object.bare .ordinary objectPrototype
  [{ kind := .ordinary, prototype := none },
   .bare (.function (.builtin (.other "" 0))) objectPrototype,
   { kind := .array, prototype := some objectPrototype,
     properties := Entries.empty.insert .length (.data (.number (.ofNat 0)) true false false) },
   plain, plain, plain,
   .bare .ordinary iteratorPrototype, .bare .ordinary iteratorPrototype,
   .bare (.wrapper (.string [])) objectPrototype,
   .bare .ordinary iteratorPrototype,
   .bare (.wrapper (.number (.ofNat 0))) objectPrototype,
   .bare (.wrapper (.bool false)) objectPrototype,
   plain, plain, plain, plain, plain, plain, plain] ++
  List.replicate (derivedErrors.length + 1) (.bare .ordinary errorPrototype)

def installErrorClass (h : ObjectHeap) (name : String) (prototype : ObjectId) : ObjectHeap :=
  let h := h.installConstructor (.errorConstructor name) prototype
  let h := h.put prototype (.ofString "name") (.hidden (.string (.ofString name)))
  h.put prototype (.ofString "message") (.hidden (.string []))

/-- A method that an object also answers to under a symbol. -/
def aliasProperty (h : ObjectHeap) (holder : ObjectId) (key source : PropertyKey) : ObjectHeap :=
  match (h.get? holder.index).bind (·.properties.get? source) with
  | some p => h.put holder key p
  | none => h

open Intrinsic in
def intrinsic : ObjectHeap :=
  let h : ObjectHeap := intrinsicObjects.foldl Arena.push .empty
  -- objects and functions
  let h := h.installConstructor .objectConstructor objectPrototype
  let h := h.installAll objectPrototype
    [.objectToString, .other "toLocaleString" 0, .objectValueOf, .hasOwnProperty,
     .other "isPrototypeOf" 1, .other "propertyIsEnumerable" 1]
  let (getter, h) := h.allocate
    (.function (.builtin .protoGetter) (.ofString "get __proto__") 0)
  let (setter, h) := h.allocate
    (.function (.builtin .protoSetter) (.ofString "set __proto__") 1)
  let h := h.put objectPrototype (.ofString "__proto__")
    (.accessor (some getter) (some setter) false true)
  let h := h.put functionPrototype .length (.data (.number (.ofNat 0)) false false true)
  let h := h.put functionPrototype (.ofString "name") (.data (.string []) false false true)
  let h := h.installConstructor .functionConstructor functionPrototype
  let h := h.installAll functionPrototype
    [.functionCall, .functionApply, .other "bind" 1, .functionToString]
  -- arrays and iterators
  let h := h.installConstructor .arrayConstructor arrayPrototype
  let h := h.installAll arrayPrototype
    (Builtin.arrayMethods.map fun m => .arrayMethod m.1 m.2)
  let h := h.aliasProperty arrayPrototype (.symbol .iterator) (.ofString "values")
  let h := h.install iteratorPrototype (.symbol .iterator) .iteratorSelf
  let h := h.installAll arrayIteratorPrototype [.arrayIteratorNext]
  let h := h.put arrayIteratorPrototype (.symbol .toStringTag)
    (.data (.string (.ofString "Array Iterator")) false false true)
  let h := h.installAll generatorPrototype [.generatorNext, .generatorReturn, .generatorThrow]
  let h := h.put generatorPrototype (.symbol .toStringTag)
    (.data (.string (.ofString "Generator")) false false true)
  -- errors and dates
  let h := h.installErrorClass "Error" errorPrototype
  let h := h.installAll errorPrototype [.errorToString]
  let h := derivedErrors.zipIdx.foldl
    (fun h (name, i) => h.installErrorClass name ⟨firstErrorPrototype + i⟩) h
  let h := h.installErrorClass "InternalError" internalErrorPrototype
  let h := h.installConstructor .dateConstructor datePrototype
  let h := h.installAll datePrototype [.dateGetTime, .dateToString, .dateToStamp, .dateToJson]
  let h := h.aliasProperty datePrototype (.ofString "valueOf") (.ofString "getTime")
  let h := h.install datePrototype (.symbol .toPrimitive) .dateToPrimitive
  -- primitives
  let h := h.installConstructor .stringConstructor stringPrototype
  let h := h.installAll stringPrototype [.primitiveToString, .primitiveValueOf]
  let h := h.install stringPrototype (.symbol .iterator) .stringIterator
  let h := h.installAll stringIteratorPrototype [.stringIteratorNext]
  let h := h.installConstructor .numberConstructor numberPrototype
  let h := h.installAll numberPrototype [.primitiveToString, .primitiveValueOf]
  let h := h.installConstructor .booleanConstructor booleanPrototype
  let h := h.installAll booleanPrototype [.primitiveToString, .primitiveValueOf]
  let h := h.installConstructor .symbolConstructor symbolPrototype
  let h := h.installAll symbolPrototype [.primitiveToString, .primitiveValueOf]
  let h := h.put symbolPrototype (.symbol .toStringTag)
    (.data (.string (.ofString "Symbol")) false false true)
  let h := h.installConstructor .bigintConstructor bigintPrototype
  let h := h.installAll bigintPrototype [.primitiveToString, .primitiveValueOf]
  let h := h.installConstructor .promiseConstructor promisePrototype
  let h := h.installAll promisePrototype [.other "then" 2, .other "catch" 1, .other "finally" 1]
  -- the global object and its namespaces
  let constant (h : ObjectHeap) (name : String) (v : ScriptValue) : ObjectHeap :=
    h.put globalObject (.ofString name) (.data v false false false)
  let h := constant h "undefined" .undefined
  let h := constant h "NaN" (.number .nan)
  let h := constant h "Infinity" (.number (.infinity false))
  let h := h.put globalObject (.ofString "globalThis") (.hidden (.object globalObject))
  let h := h.put globalObject (.ofString "Math") (.hidden (.object mathObject))
  let h := h.put globalObject (.ofString "JSON") (.hidden (.object jsonObject))
  let h := h.put globalObject (.ofString "Reflect") (.hidden (.object reflectObject))
  let h := h.installAll jsonObject [.other "parse" 2, .jsonStringify]
  let array := ((h.get? arrayPrototype.index).bind
    (·.properties.get? (.ofString "constructor")))
  let h := match array with
    | some (.data (.object id) ..) => h.installAll id [.arrayIsArray]
    | _ => h
  h.installAll globalObject
    [.other "parseInt" 2, .other "parseFloat" 1, .other "isNaN" 1, .other "isFinite" 1,
     .other "eval" 1, .other "Map" 0, .other "Set" 0, .other "WeakMap" 0, .other "WeakSet" 0,
     .other "RegExp" 2, .other "Proxy" 2]

end ObjectHeap

def Engine.fresh : Engine := { objects := ObjectHeap.intrinsic }

end ScriptBridge
