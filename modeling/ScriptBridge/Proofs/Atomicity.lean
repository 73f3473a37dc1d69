import ScriptBridge.Proofs.Answers
import ScriptBridge.Proofs.CallingBack
import ScriptBridge.Proofs.Conversions
import ScriptBridge.Proofs.Runs
import ScriptBridge.Script.Call

/-!
Errors leave the state intact. A method that fails has written nothing itself, and an operation of
a script on a host container whose arguments cannot cross changes no host container.
-/

namespace ScriptBridge

/-! ### Refused arguments of methods -/

namespace Sequence

/-- The methods that walk and take `this` for their callback. -/
def iterates : SequenceMethod → Bool
  | .forEach | .map | .filter | .some | .every | .find | .findIndex | .flatMap => true
  | _ => false

def folds : SequenceMethod → Bool
  | .reduce | .reduceRight => true
  | _ => false

/-- The arguments that methods refuse before they call anything, with the error they refuse them
with. -/
inductive Refused (items args : List Value) : SequenceMethod → Error → Prop where
  | missing (method : SequenceMethod) (walks : iterates method ∨ folds method) (none : args = []) :
    Refused items args method (.argument (.tooFew method.name 1 0))
  | notCallable (method : SequenceMethod) (walks : iterates method ∨ folds method) (v : Value)
      (rest : List Value) (given : args = v :: rest) (wrong : ∀ f, v ≠ .function f) :
    Refused items args method (.argument (.notCallable method.name))
  | nullThis (method : SequenceMethod) (walks : iterates method) (f : Callback)
      (rest : List Value) (given : args = .function f :: .null :: rest) :
    Refused items args method (.logic (.nullThis method.name))
  | emptyFold (method : SequenceMethod) (walks : folds method) (f : Callback)
      (given : args = [.function f]) (empty : items = []) :
    Refused items args method (.logic (.emptyFold method.name))
  | comparator (v : Value) (rest : List Value) (given : args = v :: rest)
      (some : v ≠ .undefined) (wrong : ∀ f, v ≠ .function f) :
    Refused items args .sort (.argument (.notCallable "sort"))
  | noTarget (none : args = []) :
    Refused items args .includes (.argument (.tooFew "includes" 1 0))

section

variable {method : SequenceMethod} {args : List Value}

theorem callbackArg_of_wrong {v : Value} {rest : List Value} (wrong : ∀ f, v ≠ .function f) :
    callbackArg method (v :: rest) = .error (.argument (.notCallable method.name)) := by
  unfold callbackArg
  split
  · contradiction
  · exact absurd (List.cons.inj ‹_›).1 (wrong _)
  · rfl

theorem iterationArgs_of_callbackArg {e : Error} (h : callbackArg method args = .error e) :
    iterationArgs method args = .error e := by
  rw [iterationArgs, h]
  rfl

end

variable {r : Reentry} {s : SequenceId} {method : SequenceMethod} {args : List Value} {e : Error}

theorem call_of_iterationArgs (walks : iterates method) (h : iterationArgs method args = .error e)
    (w : World) : call r s method args w = (.failure e, w) := by
  cases method with
  | forEach | map | filter | some | every | find | findIndex | flatMap =>
    simp only [call, callValue, h]
    rfl
  | _ => cases walks

theorem call_of_callbackArg (walks : folds method) (h : callbackArg method args = .error e)
    (w : World) : call r s method args w = (.failure e, w) := by
  cases method with
  | reduce | reduceRight =>
    simp only [call, callValue, reduceOver, h]
    rfl
  | _ => cases walks

theorem reduceOver_of_empty {f : Callback} {w : World} (empty : w.heap.sequence s = [])
    (positions : Nat → List Nat) (h : positions 0 = []) :
    reduceOver r s method [.function f] positions w =
      (.failure (.logic (.emptyFold method.name)), w) := by
  change (fold (slot? s) (foldValue r s f) none (positions (w.heap.sequence s).length) >>= _) w = _
  rw [empty, List.length_nil, h]
  rfl

theorem call_of_refused {w : World} (h : Refused (w.heap.sequence s) args method e) :
    call r s method args w = (.failure e, w) := by
  cases h with
  | missing _ walks none =>
    subst none
    cases walks with
    | inl walks => exact call_of_iterationArgs walks (iterationArgs_of_callbackArg rfl) w
    | inr walks => exact call_of_callbackArg walks rfl w
  | notCallable _ walks v rest given wrong =>
    subst given
    have refused : callbackArg method (v :: rest) = .error (.argument (.notCallable method.name)) :=
      callbackArg_of_wrong wrong
    cases walks with
    | inl walks => exact call_of_iterationArgs walks (iterationArgs_of_callbackArg refused) w
    | inr walks => exact call_of_callbackArg walks refused w
  | nullThis _ walks f rest given =>
    subst given
    exact call_of_iterationArgs walks rfl w
  | emptyFold _ walks f given empty =>
    subst given
    cases method with
    | reduce => exact Act.bind_of_failure (reduceOver_of_empty empty List.range rfl) _
    | reduceRight =>
      exact Act.bind_of_failure
        (reduceOver_of_empty empty (fun n => (List.range n).reverse) rfl) _
    | _ => cases walks
  | comparator v rest given some wrong =>
    subst given
    have refused : comparatorArg (v :: rest) = .error (.argument (.notCallable "sort")) := by
      unfold comparatorArg
      split
      · contradiction
      · exact absurd (List.cons.inj ‹_›).1 some
      · exact absurd (List.cons.inj ‹_›).1 (wrong _)
      · rfl
    simp only [call, callValue, refused]
    rfl
  | noTarget none =>
    subst none
    rfl

/-- A method that fails has itself written nothing. -/
theorem failsClean_call (r : Reentry) (s : SequenceId) (method : SequenceMethod)
    (args : List Value) : (call r s method args).FailsClean (CallsBack r method args) := by
  have value := (failsClean_callValue r s method args).thenPure Answer.value
  cases method with
  | entries | keys | values => exact (Act.OnlyCalls.pure _).failure
  | _ => exact value

theorem callNamed_eq {name : String} (h : SequenceMethod.ofName? name = some method) :
    callNamed r s name args = call r s method args := by
  rw [callNamed, h]

theorem callNamed_of_unknown {name : String} (h : SequenceMethod.ofName? name = none) :
    callNamed r s name args =
      Act.fail (Error.exception "TypeError" (name ++ " is not a function")) := by
  rw [callNamed, h]

/-- Options that are no script object are read without a trace. -/
theorem idle_of_callsBack (h : ∀ ref, arg args 1 ≠ .object ref) (x : HostAct Value)
    (calls : CallsBack r .toLocaleString args x) (w : World) : (x w).2 = w := by
  cases calls with
  | callback _ _ _ takes => cases takes
  | option key _ =>
    unfold Bridge.property
    split
    · rfl
    · rw [Act.run_bind]
      simp only [Act.elements, Act.run_read]
      split <;> rfl
    · exact absurd ‹_› (h _)
    · rfl

end Sequence

/-! ### Errors thrown into the script -/

variable {α β : Type}

/-- An operation of the script ends by throwing a host error, in the world the error came up in. -/
def Throws (op : ScriptAct α) (e : Error) (w w₁ : World) : Prop :=
  ∃ v w₂, (Bridge.throwIntoScript e : ScriptAct Unit) w₁ = (.failure v, w₂) ∧
    op w = (.failure v, w₂)

namespace Throws

variable {e : Error} {w w₁ : World}

theorem of_intoScript {x : HostAct α} (h : x w = (.failure e, w₁)) :
    Throws (Bridge.intoScript x) e w w₁ := by
  cases e with
  | engine fault => exact ⟨_, _, rfl, Act.recover_of_failure h _⟩
  | argument | conversion | logic | host | script | read =>
    exact ⟨_, _, rfl, Act.recover_of_failure h _⟩

theorem of_eq {op op' : ScriptAct α} (h : op w = op' w) (t : Throws op' e w w₁) :
    Throws op e w w₁ := by
  obtain ⟨v, w₂, thrown, here⟩ := t
  exact ⟨v, w₂, thrown, h.trans here⟩

theorem bind {x : ScriptAct α} (h : Throws x e w w₁) (f : α → ScriptAct β) :
    Throws (x >>= f) e w w₁ := by
  obtain ⟨v, w₂, thrown, here⟩ := h
  exact ⟨v, w₂, thrown, Act.bind_of_failure here f⟩

/-- Throwing makes an error object; the host containers stay as they are. -/
theorem heap_eq {op : ScriptAct α} (h : Throws op e w w₁) : (op w).2.heap = w₁.heap := by
  obtain ⟨v, w₂, thrown, here⟩ := h
  rw [here]
  have heap : ((Bridge.throwIntoScript e : ScriptAct Unit) w₁).2.heap = w₁.heap := by
    cases e <;> rfl
  rw [thrown] at heap
  exact heap

end Throws

/-! ### Operations on stand-ins -/

/-- A key of a stand-in that names a slot or the length of its sequence, or an entry of its plain
object. -/
inductive Hosted (o : Object) (key : PropertyKey) : Prop where
  | slot (s : SequenceId) (target : ObjectId) (methods : List (SequenceMethod × ObjectId)) (n : Nat)
      (kind : o.kind = .sequenceProxy s target methods) (index : key = .index n)
  | length (s : SequenceId) (target : ObjectId) (methods : List (SequenceMethod × ObjectId))
      (kind : o.kind = .sequenceProxy s target methods) (length : key = .length)
  | entry (p : PlainId) (target : ObjectId) (name : String) (kind : o.kind = .plainProxy p target)
      (named : Script.plainKey? key = some name)

namespace Script

variable {r : Reentry} {id : ObjectId} {o : Object} {key : PropertyKey} {v : ScriptValue}
  {e : Error} {w w₁ : World}

theorem assignHosted?_throws (hosted : Hosted o key)
    (h : Bridge.toHost r v w = (.failure e, w₁)) : Throws (assignHosted? r o key v) e w w₁ := by
  cases hosted with
  | slot s target methods n kind index =>
    subst index
    rw [assignHosted?_index kind]
    exact .of_intoScript (Act.bind_of_failure h _)
  | length s target methods kind length =>
    subst length
    rw [assignHosted?_length kind]
    exact .of_intoScript (Act.bind_of_failure h _)
  | entry p target name kind named =>
    rw [assignHosted?_named kind named]
    exact .of_intoScript (Act.bind_of_failure h _)

/-- Objects that pass on what is set on them. -/
def PassesOn (o : Object) : Prop :=
  (∃ s target methods, o.kind = .sequenceProxy s target methods) ∨
    ∃ p target, o.kind = .plainProxy p target

theorem PassesOn.aims (passesOn : PassesOn o) : ∃ target, o.kind.target? = some target := by
  obtain ⟨s, target, methods, kind⟩ | ⟨p, target, kind⟩ := passesOn
  · exact ⟨target, by rw [kind]; rfl⟩
  · exact ⟨target, by rw [kind]; rfl⟩

theorem passesOn_of_hosted (hosted : Hosted o key) : PassesOn o := by
  cases hosted with
  | slot s target methods _ kind _ => exact .inl ⟨s, target, methods, kind⟩
  | length s target methods kind _ => exact .inl ⟨s, target, methods, kind⟩
  | entry p target _ kind _ => exact .inr ⟨p, target, kind⟩

theorem set_of_taken (found : w.engine.objects.get? id.index = some o) (passesOn : PassesOn o)
    (h : assignHosted? r o key v w = (.value none, w₁)) : set r id key v w = (.value (), w₁) := by
  have asked : setFrom r id key v (w.engine.objects.size + 1) (some id) w =
      (.value none, w₁) := by
    obtain ⟨target, aims⟩ := passesOn.aims
    rw [setFrom_proxy found aims]
    exact Act.bind_of_value h _
  exact Act.bind_of_value asked _

theorem set_of_throws (found : w.engine.objects.get? id.index = some o) (passesOn : PassesOn o)
    (h : Throws (assignHosted? r o key v) e w w₁) : Throws (set r id key v) e w w₁ := by
  have asked : Throws (setFrom r id key v (w.engine.objects.size + 1) (some id)) e w w₁ := by
    obtain ⟨target, aims⟩ := passesOn.aims
    exact .of_eq (setFrom_proxy found aims) (h.bind _)
  exact .of_eq (Act.read_bind _ _ w) (asked.bind _)

theorem set_throws (found : w.engine.objects.get? id.index = some o) (hosted : Hosted o key)
    (h : Bridge.toHost r v w = (.failure e, w₁)) : Throws (set r id key v) e w w₁ :=
  set_of_throws found (passesOn_of_hosted hosted) (assignHosted?_throws hosted h)

theorem define_throws (found : w.engine.objects.get? id.index = some o) (hosted : Hosted o key)
    (h : Bridge.toHost r v w = (.failure e, w₁)) :
    Throws (define r id key (.value v)) e w w₁ := by
  have thrown := assignHosted?_throws hosted h
  obtain ⟨s, target, methods, kind⟩ | ⟨p, target, kind⟩ := passesOn_of_hosted hosted
  · exact .of_eq (define_sequence found kind v) (thrown.bind _)
  · exact .of_eq (define_plain found kind v) (thrown.bind _)

theorem callObject_throws {s : SequenceId} {method : SequenceMethod}
    {this : ScriptValue} {args : List ScriptValue}
    (found : w.engine.objects.get? id.index = some o)
    (kind : o.kind = .function (.sequenceMethod s method))
    (h : Act.mapAll (Bridge.toHost r) args w = (.failure e, w₁)) :
    Throws (callObject r id this args) e w w₁ := by
  have thrown : Throws (callSequenceMethod r s method args) e w w₁ :=
    .of_intoScript (Act.bind_of_failure h _)
  exact .of_eq (callObject_sequenceMethod found kind) thrown

end Script

/-- An operation of the script throws a host error that came up while its arguments crossed. What
the crossing did, it did through script functions; the operation itself changed no container. -/
structure Refuses (r : Reentry) (op : ScriptAct α) (e : Error) (w w₁ : World) : Prop where
  throws : Throws op e w w₁
  heap : (op w).2.heap = w₁.heap
  crossing : Besides r ContainersKept w w₁

theorem Throws.refuses {r : Reentry} {x : HostAct β} (crosses : x.Within (.conversion r))
    {e : Error} {w w₁ : World} (h : x w = (.failure e, w₁)) {op : ScriptAct α}
    (t : Throws op e w w₁) : Refuses r op e w w₁ := by
  have crossed := crosses w
  rw [h] at crossed
  exact ⟨t, t.heap_eq, crossed⟩

/-- Errors leave the state intact, of methods called by the host and of what a script does to a host
container. -/
theorem errors_leave_containers (r : Reentry) :
    (∀ (s : SequenceId) (name : String) (args : List Value) (w w' : World) (e : Error),
      Sequence.callNamed r s name args w = (.failure e, w') →
      match SequenceMethod.ofName? name with
      | some method => FailsAfter (Sequence.CallsBack r method args) e w w'
      | none => w' = w) ∧
    (∀ (s : SequenceId) (method : SequenceMethod) (args : List Value) (w : World) (e : Error),
      Sequence.Refused (w.heap.sequence s) args method e →
      Sequence.call r s method args w = (.failure e, w)) ∧
    (∀ (s : SequenceId) (name : String) (args : List Value) (w : World),
      SequenceMethod.ofName? name = none → Sequence.callNamed r s name args w =
        (.failure (.exception "TypeError" (name ++ " is not a function")), w)) ∧
    (∀ (s : SequenceId) (args : List Value) (w w' : World) (e : Error),
      (∀ ref, Sequence.arg args 1 ≠ .object ref) →
      Sequence.call r s .toLocaleString args w = (.failure e, w') → w' = w) ∧
    (∀ (id : ObjectId) (o : Object) (s : SequenceId) (method : SequenceMethod)
      (this : ScriptValue) (args : List ScriptValue) (w w₁ : World) (e : Error),
      w.engine.objects.get? id.index = some o → o.kind = .function (.sequenceMethod s method) →
      Act.mapAll (Bridge.toHost r) args w = (.failure e, w₁) →
      Refuses r (Script.callObject r id this args) e w w₁) ∧
    (∀ (id : ObjectId) (o : Object) (key : PropertyKey) (v : ScriptValue) (w w₁ : World)
      (e : Error),
      w.engine.objects.get? id.index = some o → Hosted o key →
      Bridge.toHost r v w = (.failure e, w₁) →
      Refuses r (Script.set r id key v) e w w₁ ∧
        Refuses r (Script.define r id key (.value v)) e w w₁) := by
  refine ⟨?_, ?_, ?_, ?_, ?_, ?_⟩
  · intro s name args w w' e fails
    split
    · rename_i method known
      rw [Sequence.callNamed_eq known] at fails
      exact Sequence.failsClean_call r s method args w e w' fails
    · rename_i unknown
      rw [Sequence.callNamed_of_unknown unknown] at fails
      cases fails
      rfl
  · intro s method args w e refused
    exact Sequence.call_of_refused refused
  · intro s name args w unknown
    rw [Sequence.callNamed_of_unknown unknown]
    rfl
  · intro s args w w' e noObject fails
    exact (Sequence.failsClean_call r s _ args w e w' fails).eq_of_idle
      (Sequence.idle_of_callsBack noObject)
  · intro id o s method this args w w₁ e found kind fails
    exact (Script.callObject_throws found kind fails).refuses
      (.mapAll Bridge.toHost_within args) fails
  · intro id o key v w w₁ e found hosted fails
    exact ⟨(Script.set_throws found hosted fails).refuses (Bridge.toHost_within v) fails,
      (Script.define_throws found hosted fails).refuses (Bridge.toHost_within v) fails⟩

/-- Host functions that empty the first sequence there is and then fail. -/
def Reentry.emptying : Reentry where
  call _ _ _ := Act.giveUp
  runHost _ _ _ := do
    Act.setElements ⟨0⟩ []
    Act.fail (.host "empty" "failed")
  bound := 0

/-- A walk whose callback empties the sequence and fails leaves it empty; a write of a symbol
through its stand-in changes nothing. -/
theorem errors_leave_containers_emptied :
    let args := [Value.function (.host ⟨0⟩)]
    let standIn : Object := { kind := .sequenceProxy ⟨0⟩ ⟨1⟩ [], prototype := none }
    let w : World :=
      { heap.sequences := Arena.empty.push [.null], engine.objects := Arena.empty.push standIn }
    let w' : World := { w with heap := w.heap.setSequence ⟨0⟩ [] }
    FailsAfter (Sequence.CallsBack .emptying .map args) (.host "empty" "failed") w w' ∧
      Refuses .emptying (Script.set .emptying ⟨0⟩ (.index 0) (.symbol .iterator))
        (.conversion (.noHostForm "Symbol")) w w := by
  intro args standIn w w'
  obtain ⟨named, _, _, _, _, written⟩ := errors_leave_containers .emptying
  have known : SequenceMethod.ofName? "map" = some .map := by decide
  constructor
  · have fails : Sequence.callNamed .emptying ⟨0⟩ "map" args w =
        (.failure (.host "empty" "failed"), w') := by
      rw [Sequence.callNamed_eq known]
      rfl
    have left := named ⟨0⟩ "map" args w w' _ fails
    rw [known] at left
    exact left
  · have hosted : Hosted standIn (.index 0) := .slot ⟨0⟩ ⟨1⟩ [] 0 rfl rfl
    exact (written ⟨0⟩ standIn (.index 0) (.symbol .iterator) w w _ rfl hosted rfl).1

end ScriptBridge
