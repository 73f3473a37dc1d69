import ScriptBridge.Proofs.SequenceMethods
import ScriptBridge.Script.Operators

/-!
Iterating a sequence through its stand-in. An iterator that a script opens is at the first slot;
`next` gives what the slot it comes to is in the script, and behind the last one that it is done.
-/

namespace ScriptBridge

/-! ### What moves -/

/-- A cursor over values that comes to a slot next. -/
def Cursor.atSlot (s : SequenceId) (position : Nat) : Cursor :=
  { sequence := s, kind := .values, position }

theorem Cursor.advance_atSlot {w : World} {s : SequenceId} {i : Nat} {v : Value}
    (slot : (w.heap.sequence s)[i]? = some v) :
    (atSlot s i).advance w = (.value (some v, atSlot s (i + 1)), w) := by
  obtain ⟨inside, rfl⟩ := List.getElem?_eq_some_iff.1 slot
  have step := step_of_lt (c := .atSlot s i) rfl inside
  obtain ⟨_, _, advances, yields⟩ := advance_of_some .values step
  cases yields
  exact advances

theorem Cursor.advance_atEnd {w : World} {s : SequenceId} {i : Nat}
    (past : (w.heap.sequence s).length ≤ i) :
    (atSlot s i).advance w = (.value (none, { atSlot s i with exhausted := true }), w) :=
  advance_of_none (step_of_le rfl past)

/-- A step of the cursor behind a function moves nothing else. -/
theorem HoldsCursor.carried {w : World} {id : ObjectId} {c d : Cursor} (h : HoldsCursor w id c)
    (sequence : d.sequence = c.sequence) (kind : d.kind = c.kind) :
    Carried w (w.moveCursor id d) := by
  have run := Act.steps_of (Script.setCode_eq w id d)
  obtain ⟨o, found, after⟩ := h.moveCursor_eq sequence kind
  obtain ⟨o', found', code⟩ := h
  obtain rfl := Option.some.inj (found.symm.trans found')
  rw [after] at run ⊢
  refine ⟨⟨_, rfl⟩, fun other q there => ?_, run⟩
  by_cases same : id.index = other.index
  · obtain rfl := Option.some.inj (found.symm.trans (same ▸ there.found))
    have moves : o.kind.Becomes (.function (.cursorNext d)) := by
      rw [code]
      exact .moved (ObjectKind.movesTo_iff.2 (.cursor sequence kind))
    exact ⟨_, ⟨(Arena.get?_set _ _ _ _).trans (if_pos ⟨same, there.lt_size⟩), rfl⟩, moves, rfl, rfl⟩
  · have apart : ¬(id.index = other.index ∧ other.index < w.engine.objects.size) :=
      fun both => same both.1
    exact ⟨q, ⟨(Arena.get?_set _ _ _ _).trans ((if_neg apart).trans there.found),
      there.standsFor⟩, .same _, rfl, rfl⟩

namespace Script

variable {r r' : Reentry} {w : World} {xs m : ObjectId} {s : SequenceId} {it : OpenIterator}
  {this v : ScriptValue} {args : List ScriptValue} {method : SequenceMethod}

/-! ### Opening -/

theorem callValue_of_function (calls : r.call = callObject r') {o : Object}
    (found : w.engine.objects.get? m.index = some o) (kind : o.kind.isFunction) :
    callValue r (.object m) this args w = callObject r' m this args w := by
  rw [callValue, Act.bind_of_value (callable?_of_function found kind), calls]

theorem callObject_of_runs (runs : w.engine.Runs s method m) :
    callObject r m this args w = callSequenceMethod r s method args w := by
  obtain ⟨_, found, code⟩ := runs
  exact callObject_sequenceMethod found code

theorem callObject_of_functionCall {f : ObjectId} {o : Object}
    (found : w.engine.objects.get? f.index = some o)
    (kind : o.kind = .function (.builtin .functionCall)) :
    callObject r f this args w =
      callValue r this (args.getD 0 .undefined) (args.drop 1) w :=
  callObject_builtin found kind

theorem getValue_iterator (stands : Stands w xs (.sequence s)) :
    getValue r (.object xs) (.symbol .iterator) w = boundMethod xs .values w := by
  obtain ⟨o, target, methods, found, kind⟩ := stands.sequence
  change get r xs (.symbol .iterator) w = _
  rw [get, chainBound, Act.read_bind, getFrom_method found kind rfl]

/-- An open iterator that comes to a slot of a sequence next. -/
def Walks (w : World) (it : OpenIterator) (s : SequenceId) (position : Nat) : Prop :=
  ∃ next, it.next = .object next ∧ HoldsCursor w next (Cursor.atSlot s position)

theorem Walks.objectsKept {w₁ : World} {i : Nat} (h : Walks w it s i) (kept : ObjectsKept w w₁) :
    Walks w₁ it s i := by
  obtain ⟨next, isNext, holds⟩ := h
  exact ⟨next, isNext, holds.of_objectsKept kept⟩

/-- The function that a stand-in hands out for iterating opens an iterator at the first slot. -/
theorem callObject_opens (this : ScriptValue) (runs : w.engine.Runs s .values m) : ∃ it w₁,
    callObject r m this [] w = (.value it.iterator, w₁) ∧ isObject it.iterator ∧
      (∀ r, getValue r it.iterator (.ofString "next") w₁ = (.value it.next, w₁)) ∧
      ScriptSide w w₁ ∧ Walks w₁ it s 0 := by
  obtain ⟨i, next, w₁, answers, reads, _, holds, side⟩ :=
    callSequenceMethod_opens r s .values w
  exact ⟨⟨.object i, .object next⟩, w₁, (callObject_of_runs runs).trans answers, rfl, reads, side,
    next, rfl, holds⟩

/-! ### One step -/

theorem callNext (calls : r.call = callObject r') {next : ObjectId}
    (isNext : it.next = .object next) {c c' : Cursor} (holds : HoldsCursor w next c) {answer : Option Value}
    (advances : c.advance w = (.value (answer, c'), w)) :
    callValue r it.next it.iterator [] w =
      (answer.elim (newIteratorResult .undefined true)
        fun v => do newIteratorResult (← Bridge.intoScript (Bridge.toScript v)) false :
        ScriptAct ScriptValue) (w.moveCursor next c') := by
  obtain ⟨o, found, kind⟩ := holds
  rw [isNext, callValue_of_function calls found (by rw [kind]; rfl)]
  exact callObject_of_holds ⟨o, found, kind⟩ advances

/-- At a slot that crosses, `next` gives what it is in the script. -/
theorem callNext_of_slot (calls : r.call = callObject r') {i : Nat} (walks : Walks w it s i)
    {v : Value} (slot : (w.heap.sequence s)[i]? = some v) (crosses : Crosses w v) :
    ∃ outcome u w₁, callValue r it.next it.iterator [] w = (outcome, w₁) ∧
      IteratorResult w₁ outcome u false ∧ Carried w w₁ ∧ Walks w₁ it s (i + 1) ∧ Sent w₁ v u := by
  obtain ⟨next, isNext, holds⟩ := walks
  have moved := holds.moved (d := .atSlot s (i + 1)) rfl rfl
  have carried := holds.carried (d := .atSlot s (i + 1)) rfl rfl
  obtain ⟨u, w₁, crosses', crossed, sent⟩ := Bridge.toScript_of_crosses (crosses.carried carried)
  obtain ⟨outcome, w₂, made, result, side⟩ := iteratorResult_new u false w₁
  have through : Bridge.intoScript (Bridge.toScript v) _ = (.value u, w₁) :=
    Act.recover_of_value crosses' _
  have after := crossed.toScriptSide.trans side
  refine ⟨outcome, u, w₂, ?_, result, carried.trans after.carried,
    ⟨next, isNext, moved.of_objectsKept after.kept⟩, sent.later side⟩
  exact (callNext calls isNext holds (Cursor.advance_atSlot slot)).trans
    ((Act.bind_of_value through _).trans made)

/-- Behind the last slot `next` says that it is done. -/
theorem callNext_of_end (calls : r.call = callObject r') {i : Nat} (walks : Walks w it s i)
    (past : (w.heap.sequence s).length ≤ i) :
    ∃ outcome w₁, callValue r it.next it.iterator [] w = (outcome, w₁) ∧
      IteratorResult w₁ outcome .undefined true ∧ Carried w w₁ := by
  obtain ⟨next, isNext, holds⟩ := walks
  let ended : Cursor := { Cursor.atSlot s i with exhausted := true }
  have carried := holds.carried (d := ended) rfl rfl
  obtain ⟨outcome, w₁, made, result, side⟩ :=
    iteratorResult_new .undefined true (w.moveCursor next ended)
  exact ⟨outcome, w₁, (callNext calls isNext holds (Cursor.advance_atEnd past)).trans made, result,
    carried.trans side.carried⟩

/-! ### A whole walk of a script -/

theorem step_of_slot (calls : r.call = callObject r') {i : Nat} (walks : Walks w it s i)
    {v : Value} (slot : (w.heap.sequence s)[i]? = some v) (crosses : Crosses w v) :
    ∃ u w₁, it.step r w = (.value (some u), w₁) ∧ Carried w w₁ ∧ Walks w₁ it s (i + 1) ∧
      Sent w₁ v u := by
  obtain ⟨_, u, w₁, called, ⟨id, rfl, reads⟩, carried, walks', sent⟩ :=
    callNext_of_slot calls walks slot crosses
  obtain ⟨value, done⟩ := reads r
  refine ⟨u, w₁, ?_, carried, walks', sent⟩
  refine (Act.bind_of_value called _).trans ((Act.bind_of_value done _).trans ?_)
  exact Act.bind_of_value value _

theorem step_of_end (calls : r.call = callObject r') {i : Nat} (walks : Walks w it s i)
    (past : (w.heap.sequence s).length ≤ i) :
    ∃ w₁, it.step r w = (.value none, w₁) ∧ Carried w w₁ := by
  obtain ⟨_, w₁, called, ⟨id, rfl, reads⟩, carried⟩ := callNext_of_end calls walks past
  exact ⟨w₁, (Act.bind_of_value called _).trans (Act.bind_of_value (reads r).2 _), carried⟩

theorem slot_of_drop {items rest : List Value} {i : Nat} {v : Value}
    (h : items.drop i = v :: rest) : items[i]? = some v ∧ items.drop (i + 1) = rest := by
  constructor
  · rw [← Nat.add_zero i, ← List.getElem?_drop, h]
    rfl
  · rw [← List.tail_drop, h]
    rfl

/-- An iterator gives what the remaining slots are in the script, and ends. -/
theorem collect_eq (calls : r.call = callObject r') {i steps : Nat} {rest : List Value}
    (walks : Walks w it s i) (remaining : (w.heap.sequence s).drop i = rest)
    (crosses : ∀ v ∈ rest, Crosses w v) (enough : rest.length < steps) :
    ∃ us w₁, it.collect r steps w = (.value us, w₁) ∧ Carried w w₁ ∧
      List.Forall₂ (Sent w₁) rest us := by
  induction rest generalizing w i steps with
  | nil =>
    obtain ⟨steps, rfl⟩ := Nat.exists_eq_add_of_lt enough
    obtain ⟨w₁, ended, carried⟩ := step_of_end calls walks (List.drop_eq_nil_iff.1 remaining)
    exact ⟨[], w₁, Act.bind_of_value ended _, carried, .nil⟩
  | cons v rest ih =>
    obtain ⟨steps, rfl⟩ := Nat.exists_eq_succ_of_ne_zero (Nat.ne_zero_of_lt enough)
    obtain ⟨first, others⟩ := List.forall_mem_cons.1 crosses
    obtain ⟨slot, behind⟩ := slot_of_drop remaining
    obtain ⟨u, w₁, stepped, carried, walks', sent⟩ := step_of_slot calls walks slot first
    have still : (w₁.heap.sequence s).drop (i + 1) = rest := by rw [carried.heap, behind]
    obtain ⟨us, w₂, collected, carried', sents⟩ :=
      ih walks' still (fun v mem => (others v mem).carried carried) (Nat.lt_of_succ_lt_succ enough)
    refine ⟨u :: us, w₂, ?_, carried.trans carried', .cons (sent.carried carried') sents⟩
    exact (Act.bind_of_value stepped _).trans (Act.bind_of_value collected _)

/-- A script that asks the stand-in of a sequence for an iterator gets one at its first slot. -/
theorem openIterator_eq (calls : r.call = callObject r') (reachable : Reachable w)
    (registered : w.engine.registry.standIn? (.sequence s) = some xs) : ∃ it w₁,
    openIterator r (.object xs) w = (.value it, w₁) ∧
      applyUnary r .openIterator (.object xs) w = (.value it.iterator, w₁) ∧
      getValue r it.iterator (.ofString "next") w₁ = (.value it.next, w₁) ∧
      ScriptSide w w₁ ∧ Walks w₁ it s 0 := by
  obtain ⟨m, w₁, given, side, runs⟩ := boundMethod_eq reachable registered .values
  have asked : getValue r (.object xs) (.symbol .iterator) w = (.value (.object m), w₁) :=
    (getValue_iterator (reachable.stands registered)).trans given
  obtain ⟨o, found, kind⟩ := id runs
  have callable := callable?_of_function found (by rw [kind]; rfl)
  obtain ⟨it, w₂, opened, isObject, reads, side', walks⟩ :=
    callObject_opens (r := r') (.object xs) runs
  rw [← calls] at opened
  refine ⟨it, w₂, ?_, ?_, reads r, side.trans side', walks⟩
  · refine (Act.bind_of_value asked _).trans ((Act.bind_of_value callable _).trans ?_)
    refine (Act.bind_of_value opened _).trans ?_
    rw [if_pos isObject]
    exact Act.bind_of_value (reads r) _
  · refine (Act.bind_of_value asked _).trans ?_
    exact (Act.bind_of_value callable _).trans opened

end Script

end ScriptBridge
