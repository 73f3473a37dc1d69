import ScriptBridge.Proofs.SortInPlace

/-!
What methods make and what they keep. A method that makes a sequence makes a new one, whose elements
are elements and values there were before, containers among them being the same containers. Apart
from what it calls, a method writes at most the sequence it is called on.
-/

namespace ScriptBridge

namespace Heap

/-- Writing one of two sequences leaves the other as it is. -/
def Apart (s t : SequenceId) : Prop :=
  ∀ (h : Heap) (items : List Value), (h.setSequence s items).sequence t = h.sequence t ∧
    (h.setSequence t items).sequence s = h.sequence s

theorem apart_of_ne {s t : SequenceId} (ne : s ≠ t) : Apart s t :=
  fun h items => ⟨h.sequence_setSequence_of_ne ne items, h.sequence_setSequence_of_ne ne.symm items⟩

/-- A sequence itself, or one nested in it at some level. -/
inductive Nested (h : Heap) : SequenceId → SequenceId → Prop where
  | self (s : SequenceId) : Nested h s s
  | inside {s t u : SequenceId} (mem : .sequence t ∈ h.sequence s) (rest : Nested h t u) :
    Nested h s u

theorem nested_of_mem_flattenAvailable {h : Heap} {available : List SequenceId} {depth : Double}
    {items : List Value} {x : Value} (mem : x ∈ h.flattenAvailable available depth items) :
    x ∈ items ∨ ∃ t u, .sequence t ∈ items ∧ h.Nested t u ∧ x ∈ h.sequence u := by
  fun_induction flattenAvailable h available depth items with
  | case1 available depth items ih =>
    obtain ⟨item, here, mem⟩ := List.mem_flatMap.1 mem
    have asItem (alone : x ∈ [item]) : x ∈ items := by
      obtain rfl := List.mem_singleton.1 alone
      exact here
    split at mem
    · rename_i t
      split at mem
      · rename_i there
        split at mem
        · obtain mem | ⟨u, v, inside, nested, mem⟩ := ih t there mem
          · exact .inr ⟨t, t, here, .self t, mem⟩
          · exact .inr ⟨t, v, here, .inside inside nested, mem⟩
        · exact .inl (asItem mem)
      · exact .inl (asItem mem)
    · exact .inl (asItem mem)

theorem nested_of_mem_flatten {h : Heap} {s : SequenceId} {depth : Double} {x : Value}
    (mem : x ∈ h.flatten s depth) : ∃ t, h.Nested s t ∧ x ∈ h.sequence t := by
  obtain mem | ⟨t, u, inside, nested, mem⟩ := nested_of_mem_flattenAvailable mem
  · exact ⟨s, .self s, mem⟩
  · exact ⟨u, .inside inside nested, mem⟩

end Heap

namespace Sequence

/-- The methods that answer the sequence they are called on. -/
def answersItself : SequenceMethod → Bool
  | .fill | .copyWithin | .reverse | .sort | .valueOf => true
  | _ => false

/-! ### A method's own work -/

/-- What a method itself may do to the world: write the sequence it is called on, if it is one of
those that do, and add sequences. -/
structure OwnWork (s : SequenceId) (method : SequenceMethod) (w w' : World) : Prop where
  elsewhere : w' = { w with heap := w'.heap }
  plains : w'.heap.plains = w.heap.plains
  functions : w'.heap.functions = w.heap.functions
  grows : w.heap.sequences.size ≤ w'.heap.sequences.size
  keeps : ∀ t : SequenceId, t.index < w.heap.sequences.size → t ≠ s ∨ changes method = false →
    w'.heap.sequence t = w.heap.sequence t

namespace OwnWork

variable {s : SequenceId} {method : SequenceMethod}

theorem nothing (w : World) : OwnWork s method w w :=
  ⟨rfl, rfl, rfl, Nat.le_refl _, fun _ _ _ => rfl⟩

theorem written (writes : changes method) (w : World) (items : List Value) :
    OwnWork s method w { w with heap := w.heap.setSequence s items } where
  elsewhere := rfl
  plains := rfl
  functions := rfl
  grows := Nat.le_of_eq (Arena.size_set _ _ _).symm
  keeps t _ other := by
    cases other with
    | inl ne => exact w.heap.sequence_setSequence_of_ne ne.symm items
    | inr keeps =>
      rw [writes] at keeps
      cases keeps

theorem added (w : World) (items : List Value) :
    OwnWork s method w { w with heap := w.heap.pushSequence items } where
  elsewhere := rfl
  plains := rfl
  functions := rfl
  grows := by
    change _ ≤ (w.heap.sequences.push items).size
    rw [Arena.size_push]
    exact Nat.le_succ _
  keeps _ made _ := Heap.sequence_pushSequence_of_lt made items

theorem trans {w w₁ w₂ : World} (h : OwnWork s method w w₁) (h' : OwnWork s method w₁ w₂) :
    OwnWork s method w w₂ where
  elsewhere := by
    rw [h'.elsewhere, h.elsewhere]
  plains := h'.plains.trans h.plains
  functions := h'.functions.trans h.functions
  grows := Nat.le_trans h.grows h'.grows
  keeps t made other := by
    have still := Nat.lt_of_lt_of_le made h.grows
    exact (h'.keeps t still other).trans (h.keeps t made other)

end OwnWork

/-! ### Copies -/

section

variable (r : Reentry) (s : SequenceId) (method : SequenceMethod) (args : List Value) (w : World)

/-- Where the elements of a sequence come from that a method makes. They are taken as they are, so a
container among them is the container that was there. -/
inductive Source : Value → Prop where
  | element {x : Value} {w₁ : World} (from? : method ∈ [.slice, .splice, .concat, .filter])
      (ran : Ran (CallsBack r method args) w w₁) (mem : x ∈ w₁.heap.sequence s) : Source x
  | argument {x : Value} (joins : method = .concat) (mem : x ∈ args) : Source x
  | spread {t : SequenceId} {x : Value} (joins : method = .concat) (given : .sequence t ∈ args)
      (mem : x ∈ w.heap.sequence t) : Source x
  | nested {t : SequenceId} {x : Value} (opens : method = .flat) (nested : w.heap.Nested s t)
      (mem : x ∈ w.heap.sequence t) : Source x
  | result {call : HostAct Value} {x : Value} {w₁ w₂ : World} (calls : method ∈ [.map, .flatMap])
      (ran : Ran (CallsBack r method args) w w₁) (made : CallsBack r method args call)
      (gives : call w₁ = (.value x, w₂)) : Source x
  | spreadResult {call : HostAct Value} {t : SequenceId} {x : Value} {w₁ w₂ : World}
      (opens : method = .flatMap) (ran : Ran (CallsBack r method args) w w₁)
      (made : CallsBack r method args call) (gives : call w₁ = (.value (.sequence t), w₂))
      (mem : x ∈ w₂.heap.sequence t) : Source x

/-- A sequence that was not there when a method was called, nor in the world `w₁` that its calls led
to. No sequence of that world has anything to do with it, but for the elements it was given. -/
structure Copied (w₁ w' : World) (copy : SequenceId) : Prop where
  older : w.heap.sequences.size ≤ w₁.heap.sequences.size
  fresh : w₁.heap.sequences.size ≤ copy.index
  made : copy.index < w'.heap.sequences.size
  apart : ∀ old : SequenceId, old.index < w₁.heap.sequences.size → Heap.Apart copy old
  shared : ∀ x ∈ w'.heap.sequence copy, Source r s method args w x

end

section Methods

variable {r : Reentry} {s : SequenceId} {method : SequenceMethod} {args : List Value} {w w' : World}
  {v : Value}

theorem Copied.of_added {w₁ w₂ : World} (ran : Ran (CallsBack r method args) w w₁)
    (own : OwnWork s method w₁ w₂) {items : List Value}
    (shared : ∀ x ∈ items, Source r s method args w x) :
    Copied r s method args w w₁ { w₂ with heap := w₂.heap.pushSequence items }
      w₂.heap.nextSequence where
  older := ran.steps.sequences_le
  fresh := own.grows
  made := by
    change _ < (w₂.heap.sequences.push items).size
    rw [Arena.size_push]
    exact Nat.lt_succ_self _
  apart old there := by
    apply Heap.apart_of_ne
    rintro rfl
    exact Nat.not_lt_of_le own.grows there
  shared := by
    rw [Heap.sequence_pushSequence_next]
    exact shared

/-! ### Methods that write -/

theorem callValue_changes (writes : changes method) (makes : copies method = false)
    (gives : callValue r s method args w = (.value v, w')) :
    ∃ w₁ items, Ran (CallsBack r method args) w w₁ ∧
      w' = { w₁ with heap := w₁.heap.setSequence s items } ∧
      (answersItself method → v = .sequence s) := by
  cases method with
  | push | pop | shift | unshift =>
    cases gives
    exact ⟨w, _, .refl w, rfl, fun itself => by cases itself⟩
  | fill | copyWithin | reverse =>
    cases gives
    exact ⟨w, _, .refl w, rfl, fun _ => rfl⟩
  | sort =>
    simp only [callValue] at gives
    cases passes : comparatorArg args with
    | error e =>
      rw [passes] at gives
      cases gives
    | ok comparator =>
      rw [passes] at gives
      have given : ∀ f, comparator = some f → args.head? = some (.function f) := by
        rintro f rfl
        exact head_of_comparatorArg passes
      obtain ⟨_, _, sorts, done⟩ := Act.of_bind_value (x := sortInPlace r s comparator) gives
      obtain ⟨sorted, w₁, arranges, puts⟩ :=
        Act.of_bind_value (x := arranged r comparator (w.heap.sequence s)) sorts
      cases puts
      cases done
      exact ⟨w₁, _, (onlyCalls_arranged given _).value w sorted w₁ arranges, rfl, fun _ => rfl⟩
  | splice => cases makes
  | _ => cases writes

/-! ### Methods that copy -/

theorem callValue_of_iterationArgs {e : Error} (takes : walks method)
    (refused : iterationArgs method args = .error e) (w : World) :
    callValue r s method args w = (.failure e, w) := by
  cases method with
  | forEach | map | filter | some | every | flatMap =>
    simp only [callValue, refused]
    rfl
  | _ => cases takes

/-- A method that walked through has called its function on elements of the sequence. -/
theorem walked_of_callValue (takes : walks method)
    (gives : callValue r s method args w = (.value v, w')) :
    ∃ visits w₁, Ran (CallsBack r method args) w w₁ ∧ answer visits method w₁ = (.value v, w') ∧
      ∀ u ∈ visits, Ran (CallsBack r method args) w u.before ∧
        u.element ∈ u.before.heap.sequence s ∧
        ∃ call, CallsBack r method args call ∧ call u.before = (u.outcome, u.after) := by
  cases passes : iterationArgs method args with
  | error e =>
    rw [callValue_of_iterationArgs takes passes w] at gives
    cases gives
  | ok given =>
    obtain ⟨f, this⟩ := given
    have calls (passed : List Value) : CallsBack r method args (Bridge.invoke r f this passed) := by
      refine .callback f this passed ?_ (head_of_iterationArgs passes)
      cases method <;> first | rfl | cases takes
    rw [callValue_of_walks takes passes, Walker.comesTo, List.range_eq_range'] at gives
    let k := walker r s f this method
    have walk := k.walk_trace (settled_of_slots rfl) 0 (w.heap.sequence s).length w
    have values := walk.values_of_ended gives
    have made (u : Visit) (mem : u ∈ _) :
        ∃ call, CallsBack r method args call ∧ call u.before = (u.outcome, u.after) :=
      ⟨_, calls _, walk.called u mem⟩
    obtain ⟨ran, befores⟩ := walk.linked.ran (C := CallsBack r method args) fun u mem => by
      obtain ⟨call, called, here⟩ := made u mem
      obtain ⟨y, value⟩ := values u mem
      exact ⟨call, y, called, value ▸ here⟩
    refine ⟨_, _, ran, (Visit.of_ended_value gives).1, fun u mem => ⟨befores u mem, ?_, made u mem⟩⟩
    exact List.mem_of_getElem? (walk.live u mem)

theorem of_depthArg {depth : Double} (reads : depthArg args w = (.value depth, w')) : w' = w := by
  have same : (depthArg args w).2 = w := by
    change ((boundArg args 0 >>= fun _ => _) w).2 = w
    rw [Act.run_bind]
    dsimp only [boundArg, Act.run_read]
    split <;> rfl
  rwa [reads] at same

theorem callValue_copies (makes : copies method) (keeps : changes method = false)
    (gives : callValue r s method args w = (.value v, w')) :
    ∃ w₁ items, Ran (CallsBack r method args) w w₁ ∧ v = .sequence w₁.heap.nextSequence ∧
      w' = { w₁ with heap := w₁.heap.pushSequence items } ∧
      ∀ x ∈ items, Source r s method args w x := by
  cases method with
  | slice =>
    cases gives
    refine ⟨w, _, .refl w, rfl, rfl, fun x mem => ?_⟩
    refine .element (by simp) (.refl w) ?_
    exact List.mem_of_mem_take (List.mem_of_mem_drop mem)
  | concat =>
    cases gives
    refine ⟨w, _, .refl w, rfl, rfl, fun x mem => ?_⟩
    cases List.mem_append.1 mem with
    | inl mem => exact .element (by simp) (.refl w) mem
    | inr mem =>
      obtain ⟨item, given, mem⟩ := List.mem_flatMap.1 mem
      split at mem
      · exact .spread rfl given mem
      · obtain rfl := List.mem_singleton.1 mem
        exact .argument rfl given
  | flat =>
    obtain ⟨depth, w₁, reads, flattens⟩ := Act.of_bind_value (x := depthArg args) gives
    obtain rfl := of_depthArg reads
    cases flattens
    refine ⟨w₁, _, .refl w₁, rfl, rfl, fun x mem => ?_⟩
    obtain ⟨t, nested, mem⟩ := Heap.nested_of_mem_flatten mem
    exact .nested rfl nested mem
  | filter =>
    obtain ⟨visits, w₁, ran, answers, facts⟩ := walked_of_callValue rfl gives
    cases answers
    refine ⟨w₁, _, ran, rfl, rfl, fun x mem => ?_⟩
    obtain ⟨u, kept, rfl⟩ := List.mem_map.1 mem
    obtain ⟨before, here, _⟩ := facts u (List.mem_filter.1 kept).1
    exact .element (by simp) before here
  | map =>
    obtain ⟨visits, w₁, ran, answers, facts⟩ := walked_of_callValue rfl gives
    cases answers
    refine ⟨w₁, _, ran, rfl, rfl, fun x mem => ?_⟩
    obtain ⟨u, mem, result⟩ := List.mem_filterMap.1 mem
    obtain ⟨before, _, call, made, here⟩ := facts u mem
    rw [Visit.outcome_of_result? result] at here
    exact .result (by simp) before made here
  | flatMap =>
    obtain ⟨visits, w₁, ran, answers, facts⟩ := walked_of_callValue rfl gives
    cases answers
    refine ⟨w₁, _, ran, rfl, rfl, fun x mem => ?_⟩
    obtain ⟨u, mem, spread⟩ := List.mem_flatMap.1 mem
    obtain ⟨before, _, call, made, here⟩ := facts u mem
    unfold Visit.spread at spread
    split at spread
    · rename_i t value
      rw [value] at here
      exact .spreadResult rfl before made here spread
    · rename_i y _ value
      obtain rfl := List.mem_singleton.1 spread
      rw [value] at here
      exact .result (by simp) before made here
    · cases spread
  | splice => cases keeps
  | _ => cases makes

theorem callValue_splice (gives : callValue r s .splice args w = (.value v, w')) :
    ∃ w₁ items, OwnWork s .splice w w₁ ∧ v = .sequence w₁.heap.nextSequence ∧
      w' = { w₁ with heap := w₁.heap.pushSequence items } ∧ ∀ x ∈ items, x ∈ w.heap.sequence s := by
  obtain ⟨start, _, here, gives⟩ := Act.of_bind_value (x := numberArg args 0) gives
  cases here
  split at gives
  · cases gives
    exact ⟨w, [], .nothing w, rfl, rfl, List.forall_mem_nil _⟩
  · cases gives
    refine ⟨_, _, .written rfl w _, rfl, rfl, fun x mem => ?_⟩
    exact List.mem_of_mem_drop (List.mem_of_mem_take mem)

/-! ### All methods -/

/-- A method answers a value or a cursor, and for a cursor it does nothing. -/
theorem answer_of_call {answer : Answer} (gives : call r s method args w = (.value answer, w')) :
    (∃ v, answer = .value v ∧ callValue r s method args w = (.value v, w')) ∨
      w' = w ∧ answersItself method = false ∧ copies method = false := by
  cases method with
  | entries | keys | values =>
    cases gives
    exact .inr ⟨rfl, rfl, rfl⟩
  | _ =>
    obtain ⟨v, _, value, done⟩ := Act.of_bind_value (x := callValue ..) gives
    cases done
    exact .inl ⟨v, rfl, value⟩

theorem eq_splice (writes : changes method) (makes : copies method) : method = .splice := by
  cases method <;> simp_all [changes, copies]

theorem eq_valueOf (itself : answersItself method) (keeps : changes method = false) :
    method = .valueOf := by
  cases method <;> simp_all [answersItself, changes]

theorem callValue_keeps (gives : callValue r s method args w = (.value v, w')) :
    ∃ w₁, Ran (CallsBack r method args) w w₁ ∧ OwnWork s method w₁ w' ∧
      (answersItself method → v = .sequence s) ∧
      (copies method → ∃ copy, v = .sequence copy ∧ Copied r s method args w w₁ w' copy) := by
  cases writes : changes method with
  | true =>
    cases makes : copies method with
    | true =>
      obtain rfl := eq_splice writes makes
      obtain ⟨w₁, items, own, rfl, rfl, shared⟩ := callValue_splice gives
      refine ⟨w, .refl w, own.trans (.added w₁ items), nofun, fun _ => ⟨_, rfl, ?_⟩⟩
      exact .of_added (.refl w) own fun x mem => .element (by simp) (.refl w) (shared x mem)
    | false =>
      obtain ⟨w₁, items, ran, rfl, itself⟩ := callValue_changes writes makes gives
      exact ⟨w₁, ran, .written writes w₁ items, itself, nofun⟩
  | false =>
    cases makes : copies method with
    | true =>
      obtain ⟨w₁, items, ran, rfl, rfl, shared⟩ := callValue_copies makes writes gives
      refine ⟨w₁, ran, .added w₁ items, fun itself => ?_, fun _ => ⟨_, rfl, ?_⟩⟩
      · obtain rfl := eq_valueOf itself writes
        cases makes
      · exact .of_added ran (.nothing w₁) shared
    | false =>
      have ran := (onlyCalls_callValue r s args writes makes).value w v w' gives
      refine ⟨w', ran, .nothing w', fun itself => ?_, nofun⟩
      obtain rfl := eq_valueOf itself writes
      cases gives
      rfl

/-- Whatever a method calls back, the sequence it makes is a new one with elements taken as they
are, and the method itself changes no container but the sequence it is there to change. -/
theorem methods_keep_other_containers {answer : Answer}
    (gives : call r s method args w = (.value answer, w')) :
    ∃ w₁, Ran (CallsBack r method args) w w₁ ∧ OwnWork s method w₁ w' ∧
      (answersItself method → answer = .value (.sequence s)) ∧
      (copies method → ∃ copy, answer = .value (.sequence copy) ∧
        Copied r s method args w w₁ w' copy) := by
  obtain ⟨v, rfl, value⟩ | ⟨rfl, other, makes⟩ := answer_of_call gives
  · obtain ⟨w₁, ran, own, itself, copied⟩ := callValue_keeps value
    refine ⟨w₁, ran, own, fun h => congrArg _ (itself h), fun h => ?_⟩
    obtain ⟨copy, rfl, made⟩ := copied h
    exact ⟨copy, rfl, made⟩
  · refine ⟨w', .refl w', .nothing w', fun itself => ?_, fun copied => ?_⟩
    · rw [other] at itself
      cases itself
    · rw [makes] at copied
      cases copied

end Methods

end Sequence

/-- A sequence inside itself, joined with itself, is inside the new sequence twice and stays as it
was; it is not written along with the new one, nor the new one with it. -/
theorem methods_keep_other_containers_concat :
    let items := [Value.sequence ⟨0⟩, .null]
    let w : World := { heap.sequences := Arena.empty.push items }
    ∃ w', Sequence.call .cutting ⟨0⟩ .concat [.sequence ⟨0⟩] w =
        (.value (.value (.sequence ⟨1⟩)), w') ∧
      w'.heap.sequence ⟨1⟩ = items ++ items ∧ w'.heap.sequence ⟨0⟩ = items ∧
      Heap.Apart ⟨1⟩ ⟨0⟩ := by
  intro items w
  have gives : Sequence.call .cutting ⟨0⟩ .concat [.sequence ⟨0⟩] w =
      (.value (.value (.sequence ⟨1⟩)), { heap := w.heap.pushSequence (items ++ items) }) := rfl
  obtain ⟨w₁, _, _, _, copied⟩ := Sequence.methods_keep_other_containers gives
  obtain ⟨copy, same, made⟩ := copied rfl
  cases same
  have joined := w.heap.sequence_pushSequence_next (items ++ items)
  have there : 0 < w₁.heap.sequences.size := Nat.lt_of_lt_of_le Nat.zero_lt_one made.older
  exact ⟨_, gives, joined, rfl, made.apart ⟨0⟩ there⟩

end ScriptBridge
