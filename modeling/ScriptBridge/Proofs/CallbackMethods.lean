import Mathlib.Data.List.Basic
import ScriptBridge.Proofs.Walks

/-!
The methods that call a function on one element after another. Whatever the function does to the
sequence, it is called for the positions in order, with the elements that are there at that moment.
-/

namespace ScriptBridge

namespace Sequence

open Visit (ended)

/-! ### Walkers -/

/-- The methods that walk until a position is missing. -/
def walks : SequenceMethod → Bool
  | .forEach | .map | .filter | .some | .every | .flatMap => true
  | _ => false

/-- Whether a result of its function ends the walk of a method. -/
def decides : SequenceMethod → Value → Bool
  | .some, v => v.truthy
  | .every, v => !v.truthy
  | _, _ => false

def walker (r : Reentry) (s : SequenceId) (f : Callback) (this : Value) (method : SequenceMethod) :
    Walker where
  reentry := r
  sequence := s
  callback := f
  this := this
  sees := slots
  decides := decides method

/-- A search takes missing positions for undefined. -/
def searcher (r : Reentry) (s : SequenceId) (f : Callback) (this : Value) : Walker where
  reentry := r
  sequence := s
  callback := f
  this := this
  sees := slotsOrUndefined
  decides := Value.truthy

/-! ### Steps -/

section Steps

variable {k : Walker} {β : Type} {next : β → Visit → β}
  {step : β → Nat → Value → HostAct (β × Bool)}
  {after : β → Value → Value → HostAct (β × Bool)}

/-- A step performs its visit if it calls the function and then does nothing to the world. -/
theorem performs_of_bind
    (calls : ∀ state i x, step state i x =
      Bridge.invoke k.reentry k.callback k.this [x, .ofNat i, .sequence k.sequence] >>=
        after state x)
    (idle : ∀ state v y, v.outcome = .value y →
      after state v.element y v.after = (.value (next state v, k.goesOn v), v.after)) :
    Performs k next step := by
  intro state x i w
  have called : Bridge.invoke k.reentry k.callback k.this [x, .ofNat i, .sequence k.sequence] w =
      ((k.visit x i w).outcome, (k.visit x i w).after) := rfl
  rw [calls, Act.run_bind, called]
  cases value : (k.visit x i w).outcome with
  | value y => exact idle state (k.visit x i w) y value
  | failure e => rfl
  | exhausted => rfl

end Steps

/-! ### Loops -/

/-- A loop along a sequence makes the calls of a trace and gives a summary of them. -/
def Follows {α : Type} (k : Walker) (length : Nat) (summary : List Visit → α) (x : HostAct α) :
    Prop :=
  ∀ w, x w = k.comesTo length (fun visits => pure (summary visits)) w

section Loops

variable {α β : Type} {k : Walker} {length : Nat} {r : Reentry} {s : SequenceId} {f : Callback}
  {this : Value}

theorem Follows.bind {summary : List Visit → α} {x : HostAct α} (h : Follows k length summary x)
    (g : α → HostAct β) (w : World) :
    (x >>= g) w = k.comesTo length (fun visits => g (summary visits)) w :=
  Walker.comesTo_bind (h w) g

theorem Follows.congr {summary summary' : List Visit → α} {x : HostAct α}
    (h : Follows k length summary x)
    (same : ∀ w, summary (k.trace (List.range length) w).1 =
      summary' (k.trace (List.range length) w).1) : Follows k length summary' x := by
  intro w
  rw [h w, Walker.comesTo, same]
  rfl

theorem follows_walk {next : β → Visit → β} {step : β → Nat → Value → HostAct (β × Bool)}
    (sees : k.sees = slots) (performs : Performs k next step) (start : β) :
    Follows k length (·.foldl next start) (walk (slot? k.sequence) length start step) := by
  intro w
  rw [Walker.comesTo, List.range_eq_range']
  exact walkFrom_eq sees performs start 0 length w

theorem follows_forEach :
    Follows (walker r s f this .forEach) length (fun _ => ())
      (forEach (slot? s) length fun x i => visit r s f this x i >>= fun _ => pure ()) := by
  have performs : Performs (walker r s f this .forEach) (fun _ _ => ()) fun _ i x =>
      visit r s f this x i >>= (fun _ => pure ()) >>= fun _ => pure ((), true) := by
    refine performs_of_bind (fun _ _ _ => bind_assoc _ _ _) fun _ v y value => ?_
    simp only [Walker.goesOn, value]
    rfl
  exact follows_walk rfl performs ()

/-- Lists that grow by a piece with each visit. -/
theorem follows_pieces {piece : Visit → List β}
    {step : List β → Nat → Value → HostAct (List β × Bool)}
    (sees : k.sees = slots) (performs : Performs k (fun out v => out ++ piece v) step) :
    Follows k length (·.flatMap piece) (walk (slot? k.sequence) length [] step) :=
  (follows_walk sees performs []).congr fun _ => List.flatMap_eq_foldl.symm

theorem follows_map :
    Follows (walker r s f this .map) length (·.filterMap Visit.result?)
      (map (slot? s) length (visit r s f this)) := by
  have performs : Performs (walker r s f this .map) (fun out v => out ++ v.result?.toList)
      fun out i x => visit r s f this x i >>= fun y => pure (out ++ [y], true) := by
    refine performs_of_bind (fun _ _ _ => rfl) fun _ v y value => ?_
    simp only [Walker.goesOn, Visit.result?, value]
    rfl
  exact (follows_pieces rfl performs).congr fun _ =>
    (List.filterMap_eq_flatMap_toList _ _).symm

theorem flatMap_accepted (visits : List Visit) :
    (visits.flatMap fun v => if v.accepted then [v.element] else []) =
      (visits.filter Visit.accepted).map Visit.element := by
  induction visits with
  | nil => rfl
  | cons v rest ih =>
    rw [List.flatMap_cons, ih]
    cases h : v.accepted <;> simp [h]

theorem follows_filter :
    Follows (walker r s f this .filter) length
      (fun visits => (visits.filter Visit.accepted).map Visit.element)
      (filter (slot? s) length (visitTruthy r s f this)) := by
  have performs : Performs (walker r s f this .filter)
      (fun out v => out ++ if v.accepted then [v.element] else []) fun out i x =>
        visitTruthy r s f this x i >>= fun keep =>
          pure (if keep then out ++ [x] else out, true) := by
    refine performs_of_bind (fun _ _ _ => bind_assoc _ _ _) fun out v y value => ?_
    simp only [Walker.goesOn, Visit.accepted, Visit.result?, value]
    cases h : y.truthy <;> simp [h] <;> rfl
  exact (follows_pieces rfl performs).congr fun _ => flatMap_accepted _

theorem follows_flatMap :
    Follows (walker r s f this .flatMap) length (·.flatMap Visit.spread)
      (flatMap (slot? s) length (visitList r s f this)) := by
  have performs : Performs (walker r s f this .flatMap) (fun out v => out ++ v.spread)
      fun out i x => visitList r s f this x i >>= fun ys => pure (out ++ ys, true) := by
    refine performs_of_bind (fun _ _ _ => bind_assoc _ _ _) fun out v y value => ?_
    simp only [Walker.goesOn, Visit.spread, value]
    cases y <;> rfl
  exact follows_pieces rfl performs

/-- The last answer counts, and where all before it were no this is whether one was yes. -/
theorem foldl_eq_any {p : Visit → Bool} {visits : List Visit}
    (no : ∀ v ∈ visits.dropLast, p v = false) :
    visits.foldl (fun _ v => p v) false = visits.any p := by
  induction visits with
  | nil => rfl
  | cons v rest ih =>
    cases rest with
    | nil => simp
    | cons u rest =>
      rw [List.dropLast_cons_cons] at no
      have here : p v = false := no v List.mem_cons_self
      have later := ih fun u mem => no u (List.mem_cons_of_mem v mem)
      calc (v :: u :: rest).foldl (fun _ v => p v) false
        _ = (u :: rest).foldl (fun _ v => p v) false := by rw [List.foldl_cons, here]
        _ = (u :: rest).any p := later
        _ = (v :: u :: rest).any p := by rw [List.any_cons (l := u :: rest), here, Bool.false_or]

theorem foldl_eq_all {p : Visit → Bool} {visits : List Visit}
    (yes : ∀ v ∈ visits.dropLast, p v) :
    visits.foldl (fun _ v => p v) true = visits.all p := by
  have negated : visits.foldl (fun _ v => !p v) false = visits.any fun v => !p v :=
    foldl_eq_any fun v mem => by
      rw [yes v mem]
      rfl
  have swapped : visits.foldl (fun _ v => !p v) (!true) = !visits.foldl (fun _ v => p v) true :=
    List.foldl_hom not fun _ _ => rfl
  rw [Bool.not_true] at swapped
  rw [swapped, ← List.not_all_eq_any_not] at negated
  exact Bool.not_inj negated

theorem trace_goesOn_of_mem (settled : k.Settled) {w : World} {v : Visit}
    (mem : v ∈ (k.trace (List.range length) w).1.dropLast) :
    ∃ y, v.outcome = .value y ∧ k.decides y = false := by
  rw [List.range_eq_range'] at mem
  have on := (k.walk_trace settled 0 length w).goesOn v mem
  obtain ⟨y, value⟩ := Walker.value_of_goesOn on
  refine ⟨y, value, ?_⟩
  simpa [Walker.goesOn, value] using on

theorem follows_any :
    Follows (walker r s f this .some) length (·.any Visit.accepted)
      (any (slot? s) length (visitTruthy r s f this)) := by
  have performs : Performs (walker r s f this .some) (fun _ v => v.accepted) fun _ i x =>
      visitTruthy r s f this x i >>= fun found => pure (found, !found) := by
    refine performs_of_bind (fun _ _ _ => bind_assoc _ _ _) fun _ v y value => ?_
    simp only [Walker.goesOn, Visit.accepted, Visit.result?, value]
    rfl
  refine (follows_walk rfl performs false).congr fun w => foldl_eq_any fun v mem => ?_
  obtain ⟨y, value, no⟩ := trace_goesOn_of_mem (settled_of_slots rfl) mem
  rw [Visit.accepted, Visit.result?, value]
  exact no

theorem follows_every :
    Follows (walker r s f this .every) length (·.all Visit.accepted)
      (every (slot? s) length (visitTruthy r s f this)) := by
  have performs : Performs (walker r s f this .every) (fun _ v => v.accepted) fun _ i x =>
      visitTruthy r s f this x i >>= fun holds => pure (holds, holds) := by
    refine performs_of_bind (fun _ _ _ => bind_assoc _ _ _) fun _ v y value => ?_
    simp only [Walker.goesOn, Visit.accepted, Visit.result?, value, walker, decides, Bool.not_not]
    rfl
  refine (follows_walk rfl performs true).congr fun w => foldl_eq_all fun v mem => ?_
  obtain ⟨y, value, yes⟩ := trace_goesOn_of_mem (settled_of_slots rfl) mem
  rw [Visit.accepted, Visit.result?, value]
  simpa [walker, decides] using yes

theorem follows_find :
    Follows (searcher r s f this) length
      (fun visits => (visits.find? Visit.accepted).map fun v => (v.index, v.element))
      (find (slot? s) .undefined length (visitTruthy r s f this)) := by
  intro w
  rw [Walker.comesTo, List.range_eq_range']
  exact findFrom_eq (k := searcher r s f this) rfl rfl 0 length w

end Loops

/-! ### Methods -/

/-- What a method answers once its function has been called for the last time. -/
def answer (visits : List Visit) : SequenceMethod → HostAct Value
  | .map => fresh (visits.filterMap Visit.result?)
  | .filter => fresh ((visits.filter Visit.accepted).map Visit.element)
  | .flatMap => fresh (visits.flatMap Visit.spread)
  | .some => return .bool (visits.any Visit.accepted)
  | .every => return .bool (visits.all Visit.accepted)
  | _ => return .undefined

section Methods

variable {r : Reentry} {s : SequenceId} {method : SequenceMethod} {args : List Value} {f : Callback}

theorem iterationArgs_of_given (given : args.head? = some (.function f))
    (bound : arg args 1 ≠ .null) : iterationArgs method args = .ok (f, arg args 1) := by
  obtain ⟨rest, rfl⟩ := List.head?_eq_some_iff.1 given
  simp only [iterationArgs, callbackArg, bind, Except.bind]

theorem callValue_of_walks {this : Value} (takes : walks method)
    (passes : iterationArgs method args = .ok (f, this)) (w : World) :
    callValue r s method args w =
      (walker r s f this method).comesTo (w.heap.sequence s).length (answer · method) w := by
  cases method with
  | forEach =>
    simp only [callValue, passes]
    exact follows_forEach.bind _ w
  | map =>
    simp only [callValue, passes]
    exact follows_map.bind _ w
  | filter =>
    simp only [callValue, passes]
    exact follows_filter.bind _ w
  | some =>
    simp only [callValue, passes]
    exact follows_any.bind _ w
  | every =>
    simp only [callValue, passes]
    exact follows_every.bind _ w
  | flatMap =>
    simp only [callValue, passes]
    exact follows_flatMap.bind _ w
  | _ => cases takes

theorem call_of_walks {this : Value} (takes : walks method)
    (passes : iterationArgs method args = .ok (f, this)) (w : World) :
    call r s method args w =
      (walker r s f this method).comesTo (w.heap.sequence s).length
        (fun visits => do return .value (← answer visits method)) w := by
  have value := Walker.comesTo_bind (callValue_of_walks (r := r) (s := s) takes passes w)
    fun v => pure (Answer.value v)
  cases method with
  | forEach | map | filter | some | every | flatMap => exact value
  | _ => cases takes

theorem call_find {this : Value} (passes : iterationArgs .find args = .ok (f, this)) (w : World) :
    call r s .find args w = (searcher r s f this).comesTo (w.heap.sequence s).length
      (fun visits => pure
        (.value (((visits.find? Visit.accepted).map Visit.element).getD .undefined))) w := by
  simp only [call, callValue, passes]
  refine (Walker.comesTo_bind (follows_find.bind _ w) _).trans ?_
  simp only [Option.map_map]
  rfl

theorem call_findIndex {this : Value} (passes : iterationArgs .findIndex args = .ok (f, this))
    (w : World) :
    call r s .findIndex args w = (searcher r s f this).comesTo (w.heap.sequence s).length
      (fun visits => pure
        (.value (positionValue ((visits.find? Visit.accepted).map Visit.index)))) w := by
  simp only [call, callValue, passes]
  refine (Walker.comesTo_bind (follows_find.bind _ w) _).trans ?_
  simp only [Option.map_map]
  rfl

/-- Methods that call a function on one element after another call it on what is there at that
moment, whatever the function does. -/
theorem callbacks_see_live_slots {r : Reentry} {s : SequenceId} {args : List Value} {f : Callback}
    (given : args.head? = some (.function f)) (bound : arg args 1 ≠ .null) (w : World) :
    (∀ method, walks method → ∃ visits w₁,
      (walker r s f (arg args 1) method).trace (List.range (w.heap.sequence s).length) w =
        (visits, w₁) ∧
      Walk (walker r s f (arg args 1) method) 0 (w.heap.sequence s).length w visits w₁ ∧
      call r s method args w = ended visits (do return .value (← answer visits method)) w₁) ∧
    ∃ visits w₁,
      (searcher r s f (arg args 1)).trace (List.range (w.heap.sequence s).length) w =
        (visits, w₁) ∧
      Walk (searcher r s f (arg args 1)) 0 (w.heap.sequence s).length w visits w₁ ∧
      (visits.length = (w.heap.sequence s).length ∨
        ∃ v, visits.getLast? = some v ∧ (searcher r s f (arg args 1)).goesOn v = false) ∧
      call r s .find args w = ended visits
        (pure (.value (((visits.find? Visit.accepted).map Visit.element).getD .undefined))) w₁ ∧
      call r s .findIndex args w = ended visits
        (pure (.value (positionValue ((visits.find? Visit.accepted).map Visit.index)))) w₁ := by
  constructor
  · intro method takes
    let k := walker r s f (arg args 1) method
    have walked := k.walk_trace (settled_of_slots rfl) 0 (w.heap.sequence s).length w
    rw [← List.range_eq_range'] at walked
    exact ⟨_, _, rfl, walked, call_of_walks takes (iterationArgs_of_given given bound) w⟩
  · let k := searcher r s f (arg args 1)
    have walked := k.walk_trace (settled_of_slotsOrUndefined rfl) 0 (w.heap.sequence s).length w
    rw [← List.range_eq_range'] at walked
    refine ⟨_, _, rfl, walked, ?_, call_find (iterationArgs_of_given given bound) w,
      call_findIndex (iterationArgs_of_given given bound) w⟩
    obtain done | unseen | ends := walked.stops
    · exact .inl done
    · cases unseen
    · exact .inr ends

end Methods

end Sequence

/-- Host functions that leave one element in the first sequence there is. -/
def Reentry.cutting : Reentry where
  call _ _ _ := Act.giveUp
  runHost _ _ _ := do
    Act.setElements ⟨0⟩ [.null]
    return .undefined
  bound := 0

/-- Of two elements, `map` visits one when the other is taken away meanwhile; a search sees
undefined in its place. -/
theorem callbacks_see_live_slots_cut :
    let args := [Value.function (.host ⟨0⟩)]
    let w : World := { heap.sequences := Arena.empty.push [.null, .bool true] }
    args.head? = some (.function (.host ⟨0⟩)) ∧ Sequence.arg args 1 ≠ .null ∧
      (∃ visits w₁,
        Walk (Sequence.walker .cutting ⟨0⟩ (.host ⟨0⟩) .undefined .map) 0 2 w visits w₁ ∧
        visits.map Visit.element = [.null]) ∧
      ∃ visits w₁, Walk (Sequence.searcher .cutting ⟨0⟩ (.host ⟨0⟩) .undefined) 0 2 w visits w₁ ∧
        visits.map Visit.element = [.null, .undefined] := by
  intro args w
  have given : args.head? = some (.function (.host ⟨0⟩)) := rfl
  have bound : Sequence.arg args 1 ≠ .null := by decide
  obtain ⟨walking, visits, w₁, traced, walk, _⟩ :=
    Sequence.callbacks_see_live_slots (r := .cutting) (s := ⟨0⟩) given bound w
  refine ⟨given, bound, ?_, visits, w₁, walk, ?_⟩
  · obtain ⟨visits, w₁, traced, walk, _⟩ := walking .map rfl
    cases traced
    exact ⟨_, _, walk, rfl⟩
  · cases traced
    rfl

end ScriptBridge
