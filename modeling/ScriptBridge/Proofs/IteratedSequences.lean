import ScriptBridge.Proofs.ArrayCopies
import ScriptBridge.Proofs.ScriptIteration

/-!
What a sequence is after it has been iterated. Values that scripts collect from its stand-in become
a new sequence whose slots agree with those of the old one, and the host that drives an iterator of
the stand-in gets the values that a cursor of the host yields.
-/

namespace ScriptBridge

/-! ### Arrays of what crossed -/

namespace Bridge

variable {r : Reentry} {w : World} {id : ObjectId} {vs : List Value} {us : List ScriptValue}
  {levels : Nat}

/-- What has crossed is no array of the script. -/
theorem valueToHost_of_sent {v : Value} {u : ScriptValue} (coherent : w.engine.Coherent)
    (h : Sent w v u) (copyArray copyArray' : ObjectId → HostAct Value) :
    valueToHost r copyArray u w = valueToHost r copyArray' u w := by
  have ordinary {id : ObjectId} {o : Object} (h : Ordinary w id o) (noArray : o.kind ≠ .array) :
      valueToHost r copyArray (.object id) w = valueToHost r copyArray' (.object id) w := by
    rw [valueToHost_of_ordinary copyArray coherent h, valueToHost_of_ordinary copyArray' coherent h]
    split
    · rfl
    · exact absurd ‹_› noArray
    · rfl
  cases h with
  | undefined | null | bool | number | string => rfl
  | date _ h => exact ordinary h nofun
  | error _ h => exact ordinary h nofun
  | handle h =>
    rw [valueToHost_of_registered copyArray coherent h,
      valueToHost_of_registered copyArray' coherent h]
  | object _ held =>
    obtain ⟨o, h, _, noArray⟩ := held.object
    exact ordinary h noArray
  | function _ h kind => exact ordinary h (by rw [kind]; nofun)

theorem toHostWithin_of_sent {v : Value} {u : ScriptValue} (reachable : Reachable w)
    (h : Sent w v u) : ∃ v' w', toHostWithin r levels u w = (.value v', w') ∧ Crossed w w' ∧
      v.Agrees v' := by
  obtain ⟨v', w', returns, crossed, agrees⟩ := toHost_of_sent r reachable h
  refine ⟨v', w', ?_, crossed, agrees⟩
  rw [← returns, toHost, toHostWithin_eq, toHostWithin_eq]
  exact valueToHost_of_sent reachable.coherent h _ _

/-- Elements that have crossed come back one after another. -/
theorem mapAll_elements (levels : Nat) {indices : List Nat} (reachable : Reachable w)
    (reads : List.Forall₂ (fun i u => Finds w (.index i) (some id) u) indices us)
    (sents : List.Forall₂ (Sent w) vs us) : ∃ copies w₁,
    Act.mapAll (fun i => do toHostWithin r levels (← intoHost r (Script.get r id (.index i))))
      indices w = (.value copies, w₁) ∧ Crossed w w₁ ∧ List.Forall₂ Value.Agrees vs copies := by
  induction vs generalizing w us indices with
  | nil =>
    cases sents
    cases reads
    exact ⟨[], w, rfl, .refl w, .nil⟩
  | cons v vs ih =>
    cases sents with
    | @cons _ u _ us sent sents =>
      cases reads with
      | @cons i _ indices _ found reads =>
        have got : intoHost r (Script.get r id (.index i)) w = (.value u, w) :=
          Act.recover_of_value found.get_eq _
        obtain ⟨copy, w₁, returns, crossed, agrees⟩ := toHostWithin_of_sent reachable sent
        have side := crossed.toScriptSide
        obtain ⟨copies, w₂, rest, crossed', agree⟩ := ih (reachable.of_run returns)
          (reads.imp fun _ _ found => side.carried.finds found)
          (sents.imp fun _ _ sent => sent.later side)
        refine ⟨copy :: copies, w₂, ?_, crossed.trans crossed', .cons agrees agree⟩
        have first := (Act.bind_of_value got (toHostWithin r levels)).trans returns
        exact (Act.bind_of_value first _).trans (Act.bind_of_value rest _)

/-- An array of the script comes back as a new sequence whose slots agree with these values, and the
host is otherwise as it was. -/
def CopiesBack (r : Reentry) (w : World) (array : ObjectId) (items : List Value) : Prop :=
  ∃ copies w', toHost r (.object array) w = (.value (.sequence w.heap.nextSequence), w') ∧
    w'.heap = w.heap.pushSequence copies ∧ List.Forall₂ Value.Agrees items copies

/-- An array of what has crossed becomes a new sequence of values that agree with what was sent. -/
theorem toHost_of_sentArray (reachable : Reachable w) (array : NativeArray w id us)
    (sents : List.Forall₂ (Sent w) vs us) (short : us.length ≤ w.config.maxArrayLength) :
    CopiesBack r w id vs := by
  obtain ⟨copies, w₁, copied, crossed, agree⟩ :=
    mapAll_elements (r := r) 511 reachable array.reads sents
  have heap := crossed.toScriptSide.carried.heap
  refine ⟨copies, { w₁ with heap := w₁.heap.pushSequence copies }, ?_, ?_, agree⟩
  · obtain ⟨o, ordinary, kind, _⟩ := array.array
    have converts : toHost r (.object id) w = copyElements r (toHostWithin r 511) id w := by
      rw [toHost_of_ordinary reachable.coherent ordinary]
      simp only [kind]
    rw [converts, copyElements_of_array _ array (.refl w), if_pos short, ← heap]
    exact (Act.bind_of_value copied _).trans rfl
  · rw [heap]

end Bridge

/-! ### Walks of the host -/

/-- What an object has as `call` is data, and the function that every runtime starts with. -/
def BorrowsCall (w : World) (m : ObjectId) : Prop :=
  ∃ f o, Finds w (.ofString "call") (some m) (.object f) ∧
    w.engine.objects.get? f.index = some o ∧ o.kind = .function (.builtin .functionCall)

theorem BorrowsCall.carried {w w₁ : World} {m : ObjectId} (h : BorrowsCall w m)
    (c : Carried w w₁) : BorrowsCall w₁ m := by
  obtain ⟨f, o, finds, found, builtin⟩ := h
  have there : Ordinary w f o := ⟨found, by rw [builtin]; rfl⟩
  exact ⟨f, o, c.finds finds, (c.ordinary there fun _ => by rw [builtin]; rfl).found, builtin⟩

theorem Finds.withObject {w : World} {key : PropertyKey} {start : Option ObjectId}
    {v : ScriptValue} (h : Finds w key start v) (o : Object) :
    Finds (w.withObject o) key start v := by
  induction h with
  | nothing => exact .nothing
  | own h here => exact .own (h.withObject o) here
  | inherited h lacks _ ih => exact .inherited (h.withObject o) lacks ih

theorem BorrowsCall.withObject {w : World} {m : ObjectId} (h : BorrowsCall w m) (o : Object) :
    BorrowsCall (w.withObject o) m := by
  obtain ⟨f, q, finds, found, builtin⟩ := h
  exact ⟨f, q, finds.withObject o, ObjectHeap.get?_push_of_some found o, builtin⟩

/-- A new stand-in has not been asked for a method. -/
theorem Bridge.standIn_unasked {w w₁ : World} {s : SequenceId} {xs : ObjectId}
    (new : w.engine.registry.standIn? (.sequence s) = none)
    (made : standIn (.sequence s) w = (.value (.object xs), w₁)) :
    ∃ o target, w₁.engine.objects.get? xs.index = some o ∧
      o.kind = .sequenceProxy s target [] := by
  let target : ObjectId := ⟨w.engine.objects.size⟩
  let o : Object := { kind := .sequenceProxy s target [], prototype := none }
  let w' := w.withObject emptyArray
  have exposes : (Act.expose (.sequence s) o rfl : HostAct _) w' =
      (.value ⟨w'.engine.objects.size⟩,
        { w' with engine := w'.engine.expose (.sequence s) o }) :=
    Act.expose_of_new rfl rfl new
  have known : standIn (.sequence s) w = (.value (.object ⟨w'.engine.objects.size⟩),
      { w' with engine := w'.engine.expose (.sequence s) o }) := by
    rw [standIn, standIn?, Act.read_bind, new]
    exact Act.bind_of_value exposes _
  cases made.symm.trans known
  exact ⟨o, target, (Arena.get?_push _ _ _).trans (if_pos rfl), rfl⟩

/-- A function that a stand-in makes when it is first asked for iterating has the `call` of all
functions. -/
theorem borrowsCall_of_first {w w₁ : World} {s : SequenceId} {xs target m : ObjectId} {o : Object}
    (all : BorrowsCall w Intrinsic.functionPrototype)
    (found : w.engine.objects.get? xs.index = some o) (kind : o.kind = .sequenceProxy s target [])
    (given : Script.boundMethod xs .values w = (.value (.object m), w₁)) : BorrowsCall w₁ m := by
  have made := Script.boundMethod_of_unasked .values found kind rfl
  rw [made] at given
  cases given
  have side := Script.scriptSide_boundMethod made ⟨_, rfl⟩
  have code := Engine.get?_addMethod .values
    (.function (.sequenceMethod s .values) (.ofString SequenceMethod.values.name) 0) found
  obtain ⟨f, q, finds, there, builtin⟩ := all.carried side.carried
  exact ⟨f, q, .inherited ⟨code, rfl⟩ rfl finds, there, builtin⟩

namespace Bridge.Iterator

variable {r r' r'' : Reentry} {w : World} {s : SequenceId} {xs : ObjectId}
  {it : Script.OpenIterator}

theorem ask_of_slot (calls : r.call = Script.callObject r') (reachable : Reachable w) {i : Nat}
    (walks : Script.Walks w it s i) {v : Value} (slot : (w.heap.sequence s)[i]? = some v)
    (crosses : Crosses w v) : ∃ v' w₁, ask r it w = (.value (some v'), w₁) ∧ Carried w w₁ ∧
      Script.Walks w₁ it s (i + 1) ∧ v.Agrees v' := by
  obtain ⟨_, u, w₁, called, ⟨id, rfl, reads⟩, carried, walks', sent⟩ :=
    Script.callNext_of_slot calls walks slot crosses
  obtain ⟨value, done⟩ := reads r
  have reachable' := reachable.of_reaches carried.steps.reaches
  obtain ⟨v', w₂, returns, crossed, agrees⟩ := toHost_of_sent r reachable' sent
  have side := crossed.toScriptSide
  refine ⟨v', w₂, ?_, carried.trans side.carried, walks'.objectsKept side.kept, agrees⟩
  refine (Act.bind_of_value (Act.recover_of_value called _) _).trans ?_
  refine (Act.bind_of_value (Act.recover_of_value done _) _).trans ?_
  refine (Act.bind_of_value (Act.recover_of_value value _) _).trans ?_
  exact Act.bind_of_value returns _

theorem ask_of_end (calls : r.call = Script.callObject r') {i : Nat}
    (walks : Script.Walks w it s i) (past : (w.heap.sequence s).length ≤ i) :
    ∃ w₁, ask r it w = (.value none, w₁) ∧ Carried w w₁ := by
  obtain ⟨_, w₁, called, ⟨id, rfl, reads⟩, carried⟩ := Script.callNext_of_end calls walks past
  refine ⟨w₁, ?_, carried⟩
  refine (Act.bind_of_value (Act.recover_of_value called _) _).trans ?_
  exact Act.bind_of_value (Act.recover_of_value (reads r).2 _) _

/-- The host gets values that agree with the remaining slots, as many as it asks for, and then finds
the end. -/
theorem take_eq (calls : r.call = Script.callObject r') (reachable : Reachable w) {i : Nat}
    {rest : List Value} (walks : Script.Walks w it s i)
    (remaining : (w.heap.sequence s).drop i = rest) (crosses : ∀ v ∈ rest, Crosses w v)
    (limit : Nat) : ∃ vs w₁,
    take r limit { source := it } w =
        (.value (vs.map .ok, { source := it, ended := rest.length < limit }), w₁) ∧
      Carried w w₁ ∧ List.Forall₂ Value.Agrees (rest.take limit) vs := by
  induction limit generalizing w i rest with
  | zero => exact ⟨[], w, rfl, .refl w, .nil⟩
  | succ limit ih =>
    cases rest with
    | nil =>
      obtain ⟨w₁, ended, carried⟩ := ask_of_end calls walks (List.drop_eq_nil_iff.1 remaining)
      have advanced : advance r { source := it } w =
          (.value (none, { source := it, ended := true }), w₁) :=
        Act.bind_of_value (Act.attempt_of_value ended) _
      exact ⟨[], w₁, Act.bind_of_value advanced _, carried, .nil⟩
    | cons v rest =>
      obtain ⟨first, others⟩ := List.forall_mem_cons.1 crosses
      obtain ⟨slot, behind⟩ := Script.slot_of_drop remaining
      obtain ⟨v', w₁, asked, carried, walks', agrees⟩ :=
        ask_of_slot calls reachable walks slot first
      have still : (w₁.heap.sequence s).drop (i + 1) = rest := by rw [carried.heap, behind]
      obtain ⟨vs, w₂, taken, carried', agree⟩ :=
        ih (reachable.of_reaches carried.steps.reaches) walks' still
          fun v mem => (others v mem).carried carried
      have advanced : advance r { source := it } w =
          (.value (some (.ok v'), { source := it }), w₁) :=
        Act.bind_of_value (Act.attempt_of_value asked) _
      refine ⟨v' :: vs, w₂, ?_, carried.trans carried', .cons agrees agree⟩
      refine (Act.bind_of_value advanced _).trans ((Act.bind_of_value taken _).trans ?_)
      simp only [List.length_cons, Nat.succ_lt_succ_iff, List.map_cons]
      rfl

/-- The host opens an iterator through the `call` of the function that the stand-in hands out. -/
theorem ofValue_eq (calls : r.call = Script.callObject r')
    (calls' : r'.call = Script.callObject r'') {w₀ : World}
    (exposed : Bridge.toScript (.sequence s) w₀ = (.value (.object xs), w))
    (reachable : Reachable w)
    (borrows : ∀ m w₁, Script.boundMethod xs .values w = (.value (.object m), w₁) →
      BorrowsCall w₁ m) :
    ∃ it w₁, ofValue r (.sequence s) w₀ = (.value { source := it }, w₁) ∧ ScriptSide w w₁ ∧
      Script.Walks w₁ it s 0 := by
  have registered : w.engine.registry.standIn? (.sequence s) = some xs :=
    (registered_of_standIn exposed).1
  obtain ⟨m, w₁, given, side, runs⟩ := Script.boundMethod_eq reachable registered .values
  have asked : Script.getValue r (.object xs) (.symbol .iterator) w = (.value (.object m), w₁) :=
    (Script.getValue_iterator (reachable.stands registered)).trans given
  obtain ⟨o, found, kind⟩ := id runs
  have callable := Script.callable?_of_function found (by rw [kind]; rfl)
  obtain ⟨f, q, borrowed, foundCall, builtin⟩ := borrows m w₁ given
  obtain ⟨it, w₂, opened, isObject, reads, side', walks⟩ :=
    Script.callObject_opens (r := r'') (.object xs) runs
  have called : Script.callValue r (.object f) (.object m) [.object xs] w₁ =
      (.value it.iterator, w₂) := by
    rw [Script.callValue_of_function calls foundCall (by rw [builtin]; rfl),
      Script.callObject_of_functionCall foundCall builtin,
      Script.callValue_of_function calls' found (by rw [kind]; rfl)]
    exact opened
  obtain ⟨next, isNext, q', foundNext, code⟩ := id walks
  have callableNext := Script.callable?_of_function foundNext (by rw [code]; rfl)
  rw [← isNext] at callableNext
  refine ⟨it, w₂, ?_, side.trans side', walks⟩
  refine (Act.bind_of_value exposed _).trans ?_
  refine (Act.bind_of_value (show intoHost r _ w = (.value it.iterator, w₂) from
    Act.recover_of_value ?opens _) _).trans ?_
  case opens =>
    refine (Act.bind_of_value asked _).trans ((Act.bind_of_value callable _).trans ?_)
    exact (Act.bind_of_value borrowed.get_eq _).trans called
  rw [if_pos isObject]
  refine (Act.bind_of_value (Act.recover_of_value (reads r) _) _).trans ?_
  exact Act.bind_of_value (Act.recover_of_value callableNext _) _

end Bridge.Iterator

/-! ### All ways to iterate -/

/-- A cursor of the host yields the remaining slots. -/
theorem Host.cursorItems_eq {w : World} {s : SequenceId} {i : Nat} {rest : List Value}
    (remaining : (w.heap.sequence s).drop i = rest) (limit : Nat) :
    cursorItems (.atSlot s i) limit w = (.value (rest.take limit), w) := by
  induction limit generalizing i rest with
  | zero => rfl
  | succ limit ih =>
    rw [cursorItems_succ]
    cases rest with
    | nil =>
      have past := List.drop_eq_nil_iff.1 remaining
      exact (Act.bind_of_value (Cursor.advance_atEnd past) _).trans rfl
    | cons v rest =>
      obtain ⟨slot, behind⟩ := Script.slot_of_drop remaining
      refine (Act.bind_of_value (Cursor.advance_atSlot slot) _).trans ?_
      exact Act.bind_of_value (ih behind) _

section

variable {r r' r'' : Reentry} {w : World} {s : SequenceId} {xs : ObjectId}

/-- A spread stand-in is an array of what the slots are in the script. -/
theorem Script.spread_eq (calls : r.call = callObject r') (reachable : Reachable w)
    (registered : w.engine.registry.standIn? (.sequence s) = some xs)
    (crosses : ∀ v ∈ w.heap.sequence s, Crosses w v)
    (enough : (w.heap.sequence s).length < r.bound)
    (short : (w.heap.sequence s).length ≤ Number.lengthLimit) : ∃ array us w₁,
    applyUnary r .spread (.object xs) w = (.value (.object array), w₁) ∧ Carried w w₁ ∧
      NativeArray w₁ array us ∧ List.Forall₂ (Sent w₁) (w.heap.sequence s) us := by
  obtain ⟨it, w₁, opened, _, _, side, walks⟩ := openIterator_eq calls reachable registered
  have still : (w₁.heap.sequence s).drop 0 = w.heap.sequence s := by rw [side.carried.heap]; rfl
  obtain ⟨us, w₂, collected, carried, sents⟩ :=
    collect_eq calls walks still (fun v mem => (crosses v mem).later side) enough
  obtain ⟨o, made, array⟩ := newArray_eq (ε := ScriptValue) (sents.length_eq ▸ short) w₂
  have side' : ScriptSide w₂ (w₂.withObject o) := .of_world (Act.steps_of made) rfl
    fun _ _ found _ => ObjectHeap.get?_push_of_some found o
  refine ⟨_, us, _, ?_, (side.carried.trans carried).trans side'.carried, array,
    sents.imp fun _ _ sent => sent.later side'⟩
  exact (Act.bind_of_value ((Act.bind_of_value opened _).trans collected) _).trans made

/-- An object is the `call` of functions that runtimes start with. -/
def Object.isCall (o : Object) : Bool :=
  match o.kind with
  | .function (.builtin .functionCall) => true
  | _ => false

/-- In a new runtime all functions have the `call` that it starts with. -/
theorem borrowsCall_fresh {w : World} (h : w.engine = .fresh) :
    BorrowsCall w Intrinsic.functionPrototype := by
  let f : ObjectId := ⟨Engine.fresh.objects.cells.findIdx Object.isCall⟩
  obtain ⟨named, code⟩ : Intrinsic.passes Intrinsic.functionPrototype (fun o =>
      o.properties.get? (.ofString "call") = some (.hidden (.object f))) ∧
      Intrinsic.passes f Object.isCall := by
    decide +kernel
  obtain ⟨o, ordinary, own⟩ := ordinary_of_passes h named
  obtain ⟨q, there, isCall⟩ := ordinary_of_passes h code
  refine ⟨f, q, .own ordinary (of_decide_eq_true own), there.found, ?_⟩
  unfold Object.isCall at isCall
  split at isCall
  · assumption
  · cases isCall

end

end ScriptBridge
