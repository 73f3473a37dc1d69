import ScriptBridge.Proofs.Atomicity
import ScriptBridge.Proofs.CallbackMethods
import ScriptBridge.Proofs.Flattening

/-!
Mapping and flattening in one walk or one after the other. In one walk the sequences that a function
returns are read right after its call, otherwise after the last call. As long as the function
changes no sequence, both come to the same elements, or to the same failure.
-/

namespace ScriptBridge

open Visit (Linked ended)

/-! ### Calls that change no sequence -/

/-- All sequences that there were are there, with the same elements. -/
structure Heap.Keeps (h h' : Heap) : Prop where
  grows : h.sequences.size ≤ h'.sequences.size
  same : ∀ t : SequenceId, t.index < h.sequences.size → h'.sequence t = h.sequence t

namespace Heap.Keeps

variable {h h₁ h₂ : Heap}

theorem refl (h : Heap) : h.Keeps h := ⟨Nat.le_refl _, fun _ _ => rfl⟩

theorem trans (first : h.Keeps h₁) (rest : h₁.Keeps h₂) : h.Keeps h₂ where
  grows := Nat.le_trans first.grows rest.grows
  same t made :=
    (rest.same t (Nat.lt_of_lt_of_le made first.grows)).trans (first.same t made)

theorem push (h : Heap) (items : List Value) : h.Keeps (h.pushSequence items) where
  grows := Nat.le_of_lt (Nat.lt_of_lt_of_eq (Nat.lt_succ_self _) (size_pushSequence h items).symm)
  same _ made := sequence_pushSequence_of_lt made items

end Heap.Keeps

namespace Visit

variable {visits : List Visit} {w w' : World} {h : Heap}

/-- A call that changes no sequence, and returns none but one that there is. -/
structure Spares (v : Visit) : Prop where
  same : ∀ t : SequenceId, t.index < v.before.heap.sequences.size →
    v.after.heap.sequence t = v.before.heap.sequence t
  made : ∀ t, v.outcome = .value (.sequence t) → t.index < v.after.heap.sequences.size

theorem Linked.keeps (linked : Linked w visits w')
    (each : ∀ v ∈ visits, v.before.heap.Keeps v.after.heap) :
    w.heap.Keeps w'.heap ∧ ∀ v ∈ visits, v.after.heap.Keeps w'.heap := by
  induction visits generalizing w with
  | nil =>
    obtain rfl := linked
    exact ⟨.refl _, List.forall_mem_nil _⟩
  | cons v rest ih =>
    obtain ⟨rfl, linked⟩ := linked
    obtain ⟨after, afters⟩ := ih linked fun u mem => each u (List.mem_cons_of_mem v mem)
    exact ⟨(each v List.mem_cons_self).trans after, List.forall_mem_cons.2 ⟨after, afters⟩⟩

/-- What was read after each call is read at the end, if nothing was changed since. -/
theorem spread_results (spares : ∀ v ∈ visits, v.Spares)
    (keeps : ∀ v ∈ visits, v.after.heap.Keeps h) :
    h.spread (visits.filterMap result?) = visits.flatMap spread := by
  induction visits with
  | nil => rfl
  | cons v rest ih =>
    have later := ih (fun u mem => spares u (List.mem_cons_of_mem v mem))
      fun u mem => keeps u (List.mem_cons_of_mem v mem)
    rw [List.flatMap_cons, ← later, List.filterMap_cons, result?, spread]
    cases value : v.outcome with
    | value y =>
      cases y with
      | sequence t =>
        have made := (spares v List.mem_cons_self).made t value
        have still := (keeps v List.mem_cons_self).same t made
        exact congrArg (· ++ _) still
      | _ => rfl
    | failure | exhausted => rfl

theorem results_made (spares : ∀ v ∈ visits, v.Spares)
    (keeps : ∀ v ∈ visits, v.after.heap.Keeps h) (t : SequenceId)
    (mem : .sequence t ∈ visits.filterMap result?) : t.index < h.sequences.size := by
  obtain ⟨v, here, result⟩ := List.mem_filterMap.1 mem
  have made := (spares v here).made t (outcome_of_result? result)
  exact Nat.lt_of_lt_of_le made (keeps v here).grows

/-- What follows some visits is done, unless the last call failed. -/
theorem ended_cases (visits : List Visit) :
    (∀ {α : Type} (x : HostAct α), ended visits x = x) ∨
      (∃ e, ∀ {α : Type} (x : HostAct α), ended visits x = Act.fail e) ∨
      ∀ {α : Type} (x : HostAct α), ended visits x = Act.giveUp := by
  unfold ended
  cases visits.getLast?.map Visit.outcome with
  | none => exact .inl fun _ => rfl
  | some outcome =>
    cases outcome with
    | value => exact .inl fun _ => rfl
    | failure e => exact .inr (.inl ⟨e, fun _ => rfl⟩)
    | exhausted => exact .inr (.inr fun _ => rfl)

end Visit

theorem Walk.keeps {k : Walker} {first left : Nat} {w w' : World} {visits : List Visit}
    (walk : Walk k first left w visits w') (spares : ∀ v ∈ visits, v.Spares) :
    w.heap.Keeps w'.heap ∧ ∀ v ∈ visits, v.after.heap.Keeps w'.heap :=
  walk.linked.keeps fun v mem =>
    ⟨(Act.steps_of (walk.called v mem)).sequences_le, (spares v mem).same⟩

namespace Sequence

variable {r : Reentry} {s : SequenceId} {args : List Value} {f : Callback} {w w' : World}

theorem AnswersNew.of_keeps {items : List Value} {ran : Outcome Error Answer × World}
    (keeps : w.heap.Keeps w'.heap) (answers : AnswersNew items w' ran) :
    AnswersNew items w ran := by
  obtain ⟨copy, w₁, rfl, fresh, elements, same⟩ := answers
  refine ⟨copy, w₁, rfl, Nat.le_trans keeps.grows fresh, elements, fun t made => ?_⟩
  exact (same t (Nat.lt_of_lt_of_le made keeps.grows)).trans (keeps.same t made)

/-- Maps a sequence, and then flattens the new sequence one level. -/
def mapThenFlat (r : Reentry) (s : SequenceId) (args : List Value) : HostAct Answer := do
  match ← call r s .map args with
  | .value (.sequence mapped) => call r mapped .flat [.ofNat 1]
  | answer => return answer

/-- Both ways to flattened results lead to new sequences of the same elements, which are those that
the function returned, opened one level. Or they fail alike. -/
def EndsAlike (r : Reentry) (s : SequenceId) (args : List Value) (w : World) : Prop :=
  (∃ mapped w₁, call r s .map args w = (.value (.value (.sequence mapped)), w₁) ∧
    AnswersNew (w₁.heap.spread (w₁.heap.sequence mapped)) w (call r s .flatMap args w) ∧
    AnswersNew (w₁.heap.spread (w₁.heap.sequence mapped)) w (mapThenFlat r s args w)) ∨
  (mapThenFlat r s args w = call r s .flatMap args w ∧ ∀ a, (call r s .flatMap args w).1 ≠ .value a)

/-- Flattening the results of a walk gives what it would have given to spread each at its call. -/
theorem call_flat_results {visits : List Visit} (spares : ∀ v ∈ visits, v.Spares)
    (afters : ∀ v ∈ visits, v.after.heap.Keeps w.heap) {w' : World}
    (pushed : w' = { w with heap := w.heap.pushSequence (visits.filterMap Visit.result?) }) :
    w'.heap.spread (w'.heap.sequence w.heap.nextSequence) = visits.flatMap Visit.spread ∧
      AnswersNew (visits.flatMap Visit.spread) w'
        (call r w.heap.nextSequence .flat [.ofNat 1] w') := by
  have keeps : w.heap.Keeps w'.heap := pushed ▸ .push w.heap _
  have spread := Visit.spread_results spares fun v mem => (afters v mem).trans keeps
  have opened : w'.heap.flatten w.heap.nextSequence (Number.flatDepth (some (.ofNat 1))) =
      w'.heap.spread (visits.filterMap Visit.result?) := by
    rw [pushed]
    exact Heap.flatten_nextSequence_once (Visit.results_made spares afters)
  constructor
  · have elements : w'.heap.sequence w.heap.nextSequence = visits.filterMap Visit.result? := by
      rw [pushed]
      exact w.heap.sequence_pushSequence_next _
    rw [elements, spread]
  · rw [call_flat, boundOf_ofNat, opened, spread]
    exact answersNew_pushSequence _ w'

theorem endsAlike_of_spares (given : args.head? = some (.function f)) (bound : arg args 1 ≠ .null)
    (spares : ∀ v ∈ ((walker r s f (arg args 1) .map).trace
      (List.range (w.heap.sequence s).length) w).1, v.Spares) :
    EndsAlike r s args w := by
  let k := walker r s f (arg args 1) .map
  let length := (w.heap.sequence s).length
  have maps : call r s .map args w =
      k.comesTo length (fun visits => do return .value (← answer visits .map)) w :=
    call_of_walks rfl (iterationArgs_of_given given bound) w
  -- neither method ends its walk by a result, so they make the same calls
  have flats : call r s .flatMap args w =
      k.comesTo length (fun visits => do return .value (← answer visits .flatMap)) w :=
    call_of_walks rfl (iterationArgs_of_given given bound) w
  have both := Walker.comesTo_bind maps fun answer => match answer with
    | .value (.sequence mapped) => call r mapped .flat [.ofNat 1]
    | answer => pure answer
  change mapThenFlat r s args w = _ at both
  have walk := k.walk_trace (settled_of_slots rfl) 0 length w
  rw [← List.range_eq_range'] at walk
  unfold EndsAlike
  rw [both, maps, flats]
  unfold Walker.comesTo
  generalize k.trace (List.range length) w = ran at spares walk ⊢
  obtain ⟨visits, w₁⟩ := ran
  dsimp only at spares walk ⊢
  obtain ⟨keeps, afters⟩ := walk.keeps spares
  obtain done | ⟨e, failed⟩ | exhausted := Visit.ended_cases visits
  · rw [done, done, done]
    obtain ⟨spread, flattens⟩ := call_flat_results (r := r) spares afters rfl
    refine .inl ⟨_, _, rfl, ?_, ?_⟩
    · rw [spread]
      exact (answersNew_pushSequence _ w₁).of_keeps keeps
    · rw [spread]
      exact flattens.of_keeps (keeps.trans (.push _ _))
  · right
    rw [failed, failed]
    exact ⟨rfl, fun a gives => by cases gives⟩
  · right
    rw [exhausted, exhausted]
    exact ⟨rfl, fun a gives => by cases gives⟩

theorem args_of_null (given : args.head? = some (.function f)) (null : arg args 1 = .null) :
    ∃ rest, args = .function f :: .null :: rest := by
  cases args with
  | nil => cases given
  | cons v rest =>
    cases given
    cases rest with
    | nil => cases null
    | cons this rest =>
      obtain rfl : this = .null := null
      exact ⟨rest, rfl⟩

/-- As long as a function changes no sequence, its results spread in the same walk are the same as
mapped first and flattened by one level then. Only a null for `this` is refused by each method in
its own name. -/
theorem flatMap_ends_as_map_then_flat {r : Reentry} {s : SequenceId} {args : List Value}
    {f : Callback} {w : World} (given : args.head? = some (.function f)) :
    (arg args 1 ≠ .null →
      (∀ v ∈ ((walker r s f (arg args 1) .map).trace
        (List.range (w.heap.sequence s).length) w).1, v.Spares) →
      EndsAlike r s args w) ∧
    (arg args 1 = .null →
      call r s .flatMap args w = (.failure (.logic (.nullThis "flatMap")), w) ∧
      mapThenFlat r s args w = (.failure (.logic (.nullThis "map")), w)) := by
  constructor
  · exact endsAlike_of_spares given
  · intro null
    obtain ⟨rest, rfl⟩ := args_of_null given null
    constructor
    · exact call_of_refused (.nullThis .flatMap rfl f rest rfl)
    · have refused := call_of_refused (r := r) (w := w) (s := s) (.nullThis .map rfl f rest rfl)
      exact Act.bind_of_failure refused _

end Sequence

/-- Host functions that all return one value. -/
def Reentry.returning (v : Value) : Reentry where
  call _ _ _ := Act.giveUp
  runHost _ _ _ := return v
  bound := 0

namespace Sequence

theorem spares_returning {s : SequenceId} {v : Value} {w : World}
    (made : ∀ t, v = .sequence t → t.index < w.heap.sequences.size) (id : HostFunctionId)
    (this : Value) (method : SequenceMethod) (positions : List Nat) :
    ∀ u ∈ ((walker (.returning v) s (.host id) this method).trace positions w).1, u.Spares := by
  have spares (x : Value) (i : Nat) :
      ((walker (.returning v) s (.host id) this method).visit x i w).Spares :=
    ⟨fun _ _ => rfl, fun t returned => made t (Outcome.value.inj returned)⟩
  induction positions with
  | nil => exact List.forall_mem_nil _
  | cons i rest ih =>
    rw [Walker.trace]
    split
    · exact ih
    · dsimp only
      split
      · exact List.forall_mem_cons.2 ⟨spares _ i, ih⟩
      · exact List.forall_mem_singleton.2 (spares _ i)

/-- A sequence that contains itself, returned for each of its two elements. -/
theorem flatMap_ends_as_map_then_flat_itself :
    let r : Reentry := .returning (.sequence ⟨0⟩)
    let args := [Value.function (.host ⟨0⟩)]
    let w : World := { heap := Heap.pushSequence {} [.null, .sequence ⟨0⟩] }
    args.head? = some (.function (.host ⟨0⟩)) ∧
      arg args 1 ≠ .null ∧
      (∀ v ∈ ((walker r ⟨0⟩ (.host ⟨0⟩) (arg args 1) .map).trace (List.range 2) w).1, v.Spares) ∧
      EndsAlike r ⟨0⟩ args w ∧
      AnswersNew [.null, .sequence ⟨0⟩, .null, .sequence ⟨0⟩] w (call r ⟨0⟩ .flatMap args w) := by
  intro r args w
  have there : ∀ t, Value.sequence ⟨0⟩ = .sequence t → t.index < w.heap.sequences.size := by
    rintro t ⟨⟩
    exact Nat.zero_lt_one
  have spares : ∀ v ∈ ((walker r ⟨0⟩ (.host ⟨0⟩) (arg args 1) .map).trace (List.range 2) w).1,
      v.Spares := spares_returning there ⟨0⟩ _ .map _
  have bound : arg args 1 ≠ .null := by decide
  have alike := (flatMap_ends_as_map_then_flat (w := w) rfl).1 bound spares
  refine ⟨rfl, bound, spares, alike, ?_⟩
  obtain ⟨mapped, w₁, maps, flats, -⟩ | ⟨-, fails⟩ := alike
  · cases maps
    exact flats
  · exact absurd rfl (fails _)

/-- Refusing null for `this`, the two ways fail with different errors. -/
theorem flatMap_names_itself :
    let r : Reentry := .returning .undefined
    let args := [Value.function (.host ⟨0⟩), .null]
    let w : World := { heap := Heap.pushSequence {} [.null] }
    (∀ v ∈ ((walker r ⟨0⟩ (.host ⟨0⟩) (arg args 1) .map).trace (List.range 1) w).1, v.Spares) ∧
      (call r ⟨0⟩ .flatMap args w).1 = .failure (.logic (.nullThis "flatMap")) ∧
      (mapThenFlat r ⟨0⟩ args w).1 = .failure (.logic (.nullThis "map")) ∧
      Error.logic (.nullThis "flatMap") ≠ .logic (.nullThis "map") :=
  ⟨spares_returning (fun _ none => by cases none) ⟨0⟩ _ .map _, rfl, rfl, by decide⟩

end Sequence

end ScriptBridge
