import ScriptBridge.Bridge.Invoke
import ScriptBridge.Locale.NumberFormat
import ScriptBridge.Sequence.Flatten
import ScriptBridge.Sequence.MethodName
import ScriptBridge.Sequence.Search
import ScriptBridge.Sequence.Sort
import ScriptBridge.Sequence.Walk

/-!
The methods of a host sequence, called by name with host values.
-/

namespace ScriptBridge.Sequence

inductive Answer where
  | value (v : Value)
  | cursor (c : Cursor)

/-! ### Arguments -/

/-- The number of an argument; a missing one has none. -/
def numberArg (args : List Value) (i : Nat) : HostAct (Option Double) :=
  Act.read fun w => args[i]?.map w.heap.number

/-- The number of an argument that ends a range; undefined counts as missing. -/
def boundArg (args : List Value) (i : Nat) : HostAct (Option Double) :=
  Act.read fun w => (args[i]?.filter (!·.isUndefined)).map w.heap.number

def arg (args : List Value) (i : Nat) : Value := args.getD i .undefined

def callbackArg (method : SequenceMethod) (args : List Value) : Except Error Callback :=
  match args with
  | [] => .error (.argument (.tooFew method.name 1 0))
  | .function f :: _ => .ok f
  | _ :: _ => .error (.argument (.notCallable method.name))

/-- The function a method is to call and what it is to have as `this`, which may not be null. -/
def iterationArgs (method : SequenceMethod) (args : List Value) : Except Error (Callback × Value) := do
  let f ← callbackArg method args
  match arg args 1 with
  | .null => .error (.logic (.nullThis method.name))
  | this => .ok (f, this)

def comparatorArg (args : List Value) : Except Error (Option Callback) :=
  match args with
  | [] | .undefined :: _ => .ok none
  | .function f :: _ => .ok (some f)
  | _ :: _ => .error (.argument (.notCallable SequenceMethod.sort.name))

/-- How deep `flat` goes: one level unless said otherwise. -/
def depthArg (args : List Value) : HostAct Double := do
  match ← boundArg args 0 with
  | none => return .ofNat 1
  | some d => return (Number.toIntegerOrInfinity d).max (.zero false)

def positionValue (i : Option Nat) : Value :=
  match i with
  | some i => .ofNat i
  | none => .number (.ofInt (-1))

/-! ### Callbacks -/

/-- The element at a position, when its turn comes. -/
def slot? (s : SequenceId) (i : Nat) : HostAct (Option Value) := do
  return (← Act.elements s)[i]?

def visit (r : Reentry) (s : SequenceId) (f : Callback) (this : Value) (x : Value) (i : Nat) :
    HostAct Value :=
  Bridge.invoke r f this [x, .ofNat i, .sequence s]

def visitTruthy (r : Reentry) (s : SequenceId) (f : Callback) (this : Value) (x : Value) (i : Nat) :
    HostAct Bool := do
  return (← visit r s f this x i).truthy

/-- The callback's result as a list: the elements of a sequence, or the value itself. -/
def visitList (r : Reentry) (s : SequenceId) (f : Callback) (this : Value) (x : Value) (i : Nat) :
    HostAct (List Value) := do
  match ← visit r s f this x i with
  | .sequence result => Act.elements result
  | v => return [v]

def foldValue (r : Reentry) (s : SequenceId) (f : Callback) (acc x : Value) (i : Nat) :
    HostAct Value :=
  Bridge.invoke r f .undefined [acc, x, .ofNat i, .sequence s]

/-- Folds over the positions the sequence has now, in the given order. -/
def reduceOver (r : Reentry) (s : SequenceId) (method : SequenceMethod) (args : List Value)
    (positions : Nat → List Nat) : HostAct Value := do
  let f ← Act.ofExcept (callbackArg method args)
  let length := (← Act.elements s).length
  match ← fold (slot? s) (foldValue r s f) args[1]? (positions length) with
  | some v => return v
  | none => Act.fail (.logic (.emptyFold method.name))

/-- The sorted arrangement of a list of values: by a comparison, or by their texts. -/
def arranged (r : Reentry) (comparator : Option Callback) (items : List Value) :
    HostAct (List Value) :=
  match comparator with
  | none => Act.read fun w => sortByText (fun v => Utf16.ofChars (w.heap.text v)) items
  | some f =>
    sortBy (fun a b => do
      let v ← Bridge.invoke r f .undefined [a, b]
      Act.read (·.heap.number v)) items

/-- Sorts a sequence in place. The elements are taken before the first comparison and put back after
the last; where a comparison fails, nothing is put back. -/
def sortInPlace (r : Reentry) (s : SequenceId) (comparator : Option Callback) : HostAct Unit := do
  let sorted ← arranged r comparator (← Act.elements s)
  Act.setElements s (overwriteFront sorted (← Act.elements s))

/-! ### Locale texts -/

/-- The locale an argument names: the first of a sequence, or the argument's text. -/
def localeArg (v : Value) : HostAct String :=
  Act.read fun w =>
    match v with
    | .undefined => w.config.defaultLocale
    | .sequence s =>
      match w.heap.sequence s with
      | [] | .undefined :: _ => w.config.defaultLocale
      | first :: _ => w.heap.textString first
    | v => w.heap.textString v

/-- Reads one option; undefined counts as not given. -/
def option {α : Type} (r : Reentry) (options : Value) (key : String) (read : Heap → Value → α) :
    HostAct (Option α) := do
  match ← Bridge.property r options key with
  | .undefined => return none
  | v => Act.read fun w => some (read w.heap v)

def formatOptions (r : Reentry) (options : Value) : HostAct NumberFormatOptions := do
  if options.isNullish then return {}
  else
    let style ← option r options "style" Heap.textString
    let currency ← option r options "currency" Heap.textString
    let currencyDisplay ← option r options "currencyDisplay" Heap.textString
    let minimumFractionDigits ← option r options "minimumFractionDigits" Heap.number
    let maximumFractionDigits ← option r options "maximumFractionDigits" Heap.number
    let useGrouping ← option r options "useGrouping" fun _ => Value.truthy
    return { style, currency, currencyDisplay, minimumFractionDigits, maximumFractionDigits,
             useGrouping }

/-- The elements as texts for a locale. Locale and options are checked before any element is
looked at. -/
def localeText (r : Reentry) (s : SequenceId) (locale options : Value) : HostAct String := do
  let locale ← localeArg locale
  let options ← formatOptions r options
  match NumberFormat.resolve locale options with
  | .error e => Act.fail (.conversion (.locale e))
  | .ok format => Act.read fun w => String.ofList (w.heap.localeJoin format s)

/-! ### Dispatch -/

def fresh (items : List Value) : HostAct Value := return .sequence (← Act.newSequence items)

/-- Replaces elements from `start` on by `items`; the elements removed are a new sequence. -/
def spliceInPlace (s : SequenceId) (start : Double) (count : Option Double)
    (items : List Value) : HostAct Value := do
  let (removed, spliced) := splice (← Act.elements s) start count items
  Act.setElements s spliced
  fresh removed

def callValue (r : Reentry) (s : SequenceId) (method : SequenceMethod) (args : List Value) :
    HostAct Value := do
  match method with
  | .push =>
    let items := (← Act.elements s) ++ args
    Act.setElements s items
    return .ofNat items.length
  | .pop =>
    let items ← Act.elements s
    Act.setElements s items.dropLast
    return items.getLast?.getD .undefined
  | .shift =>
    let items ← Act.elements s
    Act.setElements s items.tail
    return items.head?.getD .undefined
  | .unshift =>
    let items := args ++ (← Act.elements s)
    Act.setElements s items
    return .ofNat items.length
  | .join =>
    let separator ← Act.read fun w =>
      match args with
      | [] | .undefined :: _ => [',']
      | v :: _ => w.heap.text v
    Act.read fun w => .string (String.ofList (w.heap.join separator s))
  | .toString => Act.read fun w => .string (String.ofList (w.heap.join [','] s))
  | .toLocaleString => return .string (← localeText r s (arg args 0) (arg args 1))
  | .indexOf =>
    return positionValue (indexOf? (← Act.elements s) (arg args 0) (← numberArg args 1))
  | .lastIndexOf =>
    return positionValue (lastIndexOf? (← Act.elements s) (arg args 0) (← numberArg args 1))
  | .includes =>
    match args with
    | [] => Act.fail (.argument (.tooFew method.name 1 0))
    | target :: _ => return .bool (includes (← Act.elements s) target (← numberArg args 1))
  | .concat =>
    let more ← Act.read (·.heap.spread args)
    fresh ((← Act.elements s) ++ more)
  | .slice => fresh (slice (← Act.elements s) (← numberArg args 0) (← boundArg args 1))
  | .splice =>
    match ← numberArg args 0 with
    | none => fresh []
    | some start => spliceInPlace s start (← numberArg args 1) (args.drop 2)
  | .fill =>
    Act.setElements s
      (fill (← Act.elements s) (arg args 0) (← numberArg args 1) (← boundArg args 2))
    return .sequence s
  | .copyWithin =>
    Act.setElements s
      (copyWithin (← Act.elements s) (← numberArg args 0) (← numberArg args 1) (← boundArg args 2))
    return .sequence s
  | .reverse =>
    Act.setElements s (← Act.elements s).reverse
    return .sequence s
  | .sort =>
    sortInPlace r s (← Act.ofExcept (comparatorArg args))
    return .sequence s
  | .forEach =>
    let (f, this) ← Act.ofExcept (iterationArgs method args)
    forEach (slot? s) (← Act.elements s).length fun x i => do
      let _ ← visit r s f this x i
    return .undefined
  | .map =>
    let (f, this) ← Act.ofExcept (iterationArgs method args)
    fresh (← map (slot? s) (← Act.elements s).length (visit r s f this))
  | .filter =>
    let (f, this) ← Act.ofExcept (iterationArgs method args)
    fresh (← filter (slot? s) (← Act.elements s).length (visitTruthy r s f this))
  | .some =>
    let (f, this) ← Act.ofExcept (iterationArgs method args)
    return .bool (← any (slot? s) (← Act.elements s).length (visitTruthy r s f this))
  | .every =>
    let (f, this) ← Act.ofExcept (iterationArgs method args)
    return .bool (← every (slot? s) (← Act.elements s).length (visitTruthy r s f this))
  | .find =>
    let (f, this) ← Act.ofExcept (iterationArgs method args)
    let found ← find (slot? s) .undefined (← Act.elements s).length (visitTruthy r s f this)
    return (found.map (·.2)).getD .undefined
  | .findIndex =>
    let (f, this) ← Act.ofExcept (iterationArgs method args)
    let found ← find (slot? s) .undefined (← Act.elements s).length (visitTruthy r s f this)
    return positionValue (found.map (·.1))
  | .flatMap =>
    let (f, this) ← Act.ofExcept (iterationArgs method args)
    fresh (← flatMap (slot? s) (← Act.elements s).length (visitList r s f this))
  | .reduce => reduceOver r s method args List.range
  | .reduceRight => reduceOver r s method args fun n => (List.range n).reverse
  | .flat =>
    let depth ← depthArg args
    fresh (← Act.read (·.heap.flatten s depth))
  | .entries | .keys | .values | .valueOf => return .sequence s

def call (r : Reentry) (s : SequenceId) (method : SequenceMethod) (args : List Value) :
    HostAct Answer := do
  match method with
  | .entries => return .cursor { sequence := s, kind := .entries }
  | .keys => return .cursor { sequence := s, kind := .keys }
  | .values => return .cursor { sequence := s, kind := .values }
  | method => return .value (← callValue r s method args)

def callNamed (r : Reentry) (s : SequenceId) (name : String) (args : List Value) :
    HostAct Answer := do
  match SequenceMethod.ofName? name with
  | some method => call r s method args
  | none => Act.fail (Error.exception "TypeError" (name ++ " is not a function"))

end ScriptBridge.Sequence
