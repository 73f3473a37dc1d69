import ScriptBridge.Proofs.CallingBack

/-!
Walks along a sequence that the callback may change. The calls a walk makes are listed as visits,
each with the world it was made in, and what a method answers is read off the list. The list is that
of the rule that goes on through all positions and skips the missing ones. A walk may end at the
first missing one, since nothing but the callback could bring it back.
-/

namespace ScriptBridge

/-! ### Visits -/

/-- One call of a callback for a position of a sequence. -/
structure Visit where
  index : Nat
  element : Value
  before : World
  outcome : Outcome Error Value
  after : World

namespace Visit

def result? (v : Visit) : Option Value :=
  match v.outcome with
  | .value y => some y
  | _ => none

theorem outcome_of_result? {v : Visit} {y : Value} (h : v.result? = some y) :
    v.outcome = .value y := by
  unfold result? at h
  split at h
  · cases h
    assumption
  · cases h

/-- The callback says yes. -/
def accepted (v : Visit) : Bool := v.result?.any Value.truthy

/-- The result as a list: the elements a sequence has after the call, or the value itself. -/
def spread (v : Visit) : List Value :=
  match v.outcome with
  | .value (.sequence t) => v.after.heap.sequence t
  | .value y => [y]
  | _ => []

/-- Visits lead from one world to another, each made in the world that the one before left. -/
def Linked : World → List Visit → World → Prop
  | w, [], w' => w' = w
  | w, v :: rest, w' => v.before = w ∧ Linked v.after rest w'

/-- What comes after some visits: the failure of the last one, or else some action. -/
def ended {α : Type} (visits : List Visit) (x : HostAct α) : HostAct α :=
  match visits.getLast?.map Visit.outcome with
  | some (.failure e) => Act.fail e
  | some .exhausted => Act.giveUp
  | _ => x

theorem ended_cons {α : Type} {v : Visit} {y : Value} (h : v.outcome = .value y)
    (rest : List Visit) (x : HostAct α) : ended (v :: rest) x = ended rest x := by
  cases rest with
  | nil => simp [ended, h]
  | cons => simp [ended, List.getLast?_cons_cons]

theorem ended_single {α : Type} (v : Visit) (x : HostAct α) (w : World) :
    ended [v] x w = match v.outcome with
      | .value _ => x w
      | .failure e => (.failure e, w)
      | .exhausted => (.exhausted, w) := by
  unfold ended
  cases h : v.outcome <;> simp [h]

/-- Where something follows, no call failed. -/
theorem of_ended_value {α : Type} {visits : List Visit} {x : HostAct α} {a : α} {w w' : World}
    (h : ended visits x w = (.value a, w')) :
    x w = (.value a, w') ∧ ∀ v, visits.getLast? = some v → ∃ y, v.outcome = .value y := by
  unfold ended at h
  cases last : visits.getLast? with
  | none =>
    rw [last] at h
    exact ⟨h, fun _ none => by cases none⟩
  | some v =>
    rw [last, Option.map_some] at h
    cases value : v.outcome with
    | value y =>
      rw [value] at h
      refine ⟨h, fun u here => ?_⟩
      cases here
      exact ⟨y, value⟩
    | failure e =>
      rw [value] at h
      cases h
    | exhausted =>
      rw [value] at h
      cases h

/-- Calls that all gave values lead from each of them to the next. -/
theorem Linked.ran {C : HostAct Value → Prop} {visits : List Visit} {w w' : World}
    (linked : Linked w visits w')
    (calls : ∀ v ∈ visits, ∃ x y, C x ∧ x v.before = (.value y, v.after)) :
    Ran C w w' ∧ ∀ v ∈ visits, Ran C w v.before := by
  induction visits generalizing w with
  | nil =>
    obtain rfl := linked
    exact ⟨.refl _, List.forall_mem_nil _⟩
  | cons v rest ih =>
    obtain ⟨rfl, linked⟩ := linked
    obtain ⟨x, y, made, here⟩ := calls v List.mem_cons_self
    obtain ⟨ran, befores⟩ := ih linked fun u mem => calls u (List.mem_cons_of_mem v mem)
    refine ⟨.step made here ran, fun u mem => ?_⟩
    cases mem with
    | head => exact .refl _
    | tail _ mem => exact .step made here (befores u mem)

theorem ended_bind {α β : Type} (visits : List Visit) (x : HostAct α) (f : α → HostAct β) :
    ended visits x >>= f = ended visits (x >>= f) := by
  unfold ended
  split <;> rfl

end Visit

open Visit (Linked ended)

/-! ### Traces -/

/-- Who walks along a sequence: a callback with its `this`, what is seen at a position of the
elements there are, and the results that end the walk. -/
structure Walker where
  reentry : Reentry
  sequence : SequenceId
  callback : Callback
  this : Value
  sees : List Value → Nat → Option Value
  decides : Value → Bool

namespace Walker

variable (k : Walker)

/-- Calls the callback with an element, its position and the sequence. -/
def visit (x : Value) (i : Nat) (w : World) : Visit :=
  let call := Bridge.invoke k.reentry k.callback k.this [x, .ofNat i, .sequence k.sequence] w
  { index := i, element := x, before := w, outcome := call.1, after := call.2 }

def goesOn (v : Visit) : Bool :=
  match v.outcome with
  | .value y => !k.decides y
  | _ => false

/-- The visits to some positions, and the world they lead to. Every position has its turn; one where
nothing is seen then is skipped. -/
def trace : List Nat → World → List Visit × World
  | [], w => ([], w)
  | i :: rest, w =>
    match k.sees (w.heap.sequence k.sequence) i with
    | none => trace rest w
    | some x =>
      let v := k.visit x i w
      if k.goesOn v then (v :: (trace rest v.after).1, (trace rest v.after).2) else ([v], v.after)

/-- Makes the calls of a trace, and then does what follows from them. -/
def comesTo {α : Type} (length : Nat) (g : List Visit → HostAct α) (w : World) :
    Outcome Error α × World :=
  ended (k.trace (List.range length) w).1 (g (k.trace (List.range length) w).1)
    (k.trace (List.range length) w).2

theorem comesTo_bind {α β : Type} {k : Walker} {length : Nat} {g : List Visit → HostAct α}
    {x : HostAct α} {w : World} (h : x w = k.comesTo length g w) (f : α → HostAct β) :
    (x >>= f) w = k.comesTo length (fun visits => g visits >>= f) w := by
  unfold comesTo at h ⊢
  rw [← Visit.ended_bind, Act.run_bind, Act.run_bind, h]

section

variable {k} {i : Nat} {rest : List Nat} {w : World} {x : Value}

theorem trace_missing (h : k.sees (w.heap.sequence k.sequence) i = none) :
    k.trace (i :: rest) w = k.trace rest w := by
  simp only [trace, h]

theorem trace_goesOn (h : k.sees (w.heap.sequence k.sequence) i = some x)
    (on : k.goesOn (k.visit x i w)) :
    k.trace (i :: rest) w = (k.visit x i w :: (k.trace rest (k.visit x i w).after).1,
      (k.trace rest (k.visit x i w).after).2) := by
  simp only [trace, h, on, if_true]

theorem trace_ends (h : k.sees (w.heap.sequence k.sequence) i = some x)
    (ends : k.goesOn (k.visit x i w) = false) :
    k.trace (i :: rest) w = ([k.visit x i w], (k.visit x i w).after) := by
  simp only [trace, h, ends, Bool.false_eq_true, if_false]

theorem value_of_goesOn {v : Visit} (h : k.goesOn v) : ∃ y, v.outcome = .value y := by
  unfold goesOn at h
  split at h
  · exact ⟨_, ‹_›⟩
  · cases h

end

/-- Where nothing is seen at a position, nothing is seen at the next one either. -/
def Settled : Prop :=
  ∀ items i, k.sees items i = none → k.sees items (i + 1) = none

theorem trace_of_missing {k : Walker} (settled : k.Settled) {w : World} {first : Nat}
    (missing : k.sees (w.heap.sequence k.sequence) first = none) (left : Nat) :
    k.trace (List.range' first left) w = ([], w) := by
  induction left generalizing first with
  | zero => rfl
  | succ left ih =>
    rw [List.range'_succ, trace_missing missing]
    exact ih (settled _ _ missing)

end Walker

/-! ### Walks -/

/-- The calls of a walk over `left` positions from `first` on. -/
structure Walk (k : Walker) (first left : Nat) (w : World) (visits : List Visit) (w' : World) :
    Prop where
  /-- The positions are visited in order, none twice and none left out. -/
  inOrder : visits.map (·.index) = List.range' first visits.length
  within : visits.length ≤ left
  /-- What is handed over is what is there at the moment of the call. -/
  live : ∀ v ∈ visits, k.sees (v.before.heap.sequence k.sequence) v.index = some v.element
  called : ∀ v ∈ visits,
    Bridge.invoke k.reentry k.callback k.this [v.element, .ofNat v.index, .sequence k.sequence]
      v.before = (v.outcome, v.after)
  linked : Linked w visits w'
  goesOn : ∀ v ∈ visits.dropLast, k.goesOn v
  /-- A walk ends with its last position, at the first one where it sees nothing, or by what the
  last call came to. -/
  stops : visits.length = left ∨
    k.sees (w'.heap.sequence k.sequence) (first + visits.length) = none ∨
    ∃ v, visits.getLast? = some v ∧ k.goesOn v = false

namespace Walk

variable {k : Walker} {first left i : Nat} {w w' : World} {visits : List Visit} {x : Value}

theorem none_left (k : Walker) (first : Nat) (w : World) : Walk k first 0 w [] w :=
  ⟨rfl, Nat.le_refl _, List.forall_mem_nil _, List.forall_mem_nil _, rfl, List.forall_mem_nil _,
    .inl rfl⟩

theorem missing (h : k.sees (w.heap.sequence k.sequence) first = none) (left : Nat) :
    Walk k first left w [] w :=
  ⟨rfl, Nat.zero_le _, List.forall_mem_nil _, List.forall_mem_nil _, rfl, List.forall_mem_nil _,
    .inr (.inl h)⟩

theorem last (h : k.sees (w.heap.sequence k.sequence) first = some x)
    (ends : k.goesOn (k.visit x first w) = false) (left : Nat) :
    Walk k first (left + 1) w [k.visit x first w] (k.visit x first w).after where
  inOrder := rfl
  within := Nat.succ_le_succ (Nat.zero_le _)
  live v mem := by
    obtain rfl := List.mem_singleton.1 mem
    exact h
  called v mem := by
    obtain rfl := List.mem_singleton.1 mem
    rfl
  linked := ⟨rfl, rfl⟩
  goesOn := List.forall_mem_nil _
  stops := .inr (.inr ⟨_, rfl, ends⟩)

theorem cons (h : k.sees (w.heap.sequence k.sequence) first = some x)
    (on : k.goesOn (k.visit x first w))
    (rest : Walk k (first + 1) left (k.visit x first w).after visits w') :
    Walk k first (left + 1) w (k.visit x first w :: visits) w' where
  inOrder := by
    rw [List.map_cons, rest.inOrder, List.length_cons, List.range'_succ]
    rfl
  within := Nat.succ_le_succ rest.within
  live v mem := by
    cases mem with
    | head => exact h
    | tail _ mem => exact rest.live v mem
  called v mem := by
    cases mem with
    | head => rfl
    | tail _ mem => exact rest.called v mem
  linked := ⟨rfl, rest.linked⟩
  goesOn v mem := by
    cases visits with
    | nil => cases mem
    | cons u visits =>
      rw [List.dropLast_cons_cons] at mem
      cases mem with
      | head => exact on
      | tail _ mem => exact rest.goesOn v mem
  stops := by
    obtain done | missing | ⟨v, last, ends⟩ := rest.stops
    · exact .inl (congrArg (· + 1) done)
    · refine .inr (.inl ?_)
      rwa [List.length_cons, Nat.add_comm visits.length, ← Nat.add_assoc]
    · refine .inr (.inr ⟨v, ?_, ends⟩)
      rw [List.getLast?_cons, last]
      rfl

/-- If something follows a walk, all its calls gave values. -/
theorem values_of_ended {α : Type} {y : HostAct α} {a : α} {w₂ : World}
    (walk : Walk k first left w visits w') (gives : ended visits y w' = (.value a, w₂)) :
    ∀ v ∈ visits, ∃ y, v.outcome = .value y := by
  obtain ⟨_, lastGives⟩ := Visit.of_ended_value gives
  intro v mem
  obtain rfl | ⟨before, last, rfl⟩ := visits.eq_nil_or_concat
  · cases mem
  · rw [List.concat_eq_append] at walk lastGives mem
    cases List.mem_append.1 mem with
    | inl mem =>
      have on := walk.goesOn v (by rwa [List.dropLast_concat])
      exact Walker.value_of_goesOn on
    | inr mem =>
      obtain rfl := List.mem_singleton.1 mem
      exact lastGives v List.getLast?_concat

end Walk

/-- The rule that skips missing positions visits the same ones as the rule that ends at the first of
them. -/
theorem Walker.walk_trace {k : Walker} (settled : k.Settled) (first left : Nat) (w : World) :
    Walk k first left w (k.trace (List.range' first left) w).1
      (k.trace (List.range' first left) w).2 := by
  induction left generalizing first w with
  | zero => exact .none_left k first w
  | succ left ih =>
    cases h : k.sees (w.heap.sequence k.sequence) first with
    | none =>
      rw [trace_of_missing settled h]
      exact .missing h _
    | some x =>
      rw [List.range'_succ]
      cases on : k.goesOn (k.visit x first w) with
      | false =>
        rw [trace_ends h on]
        exact .last h on left
      | true =>
        rw [trace_goesOn h on]
        exact .cons h on (ih _ _)

/-! ### Loops -/

namespace Sequence

open Walker

variable {k : Walker} {β : Type} {next : β → Visit → β}
  {step : β → Nat → Value → HostAct (β × Bool)}

/-- A step of a loop that calls the callback and does nothing else to the world. -/
def Performs (k : Walker) (next : β → Visit → β) (step : β → Nat → Value → HostAct (β × Bool)) :
    Prop :=
  ∀ state x i w, step state i x w =
    (match (k.visit x i w).outcome with
      | .value _ => .value (next state (k.visit x i w), k.goesOn (k.visit x i w))
      | .failure e => .failure e
      | .exhausted => .exhausted,
    (k.visit x i w).after)

/-- What a walker sees who ends at a missing position. -/
def slots (items : List Value) (i : Nat) : Option Value := items[i]?

/-- What a walker sees who takes a missing position for undefined. -/
def slotsOrUndefined (items : List Value) (i : Nat) : Option Value :=
  some (items[i]?.getD .undefined)

theorem settled_of_slots (h : k.sees = slots) : k.Settled := by
  intro items i missing
  rw [h] at missing ⊢
  have past : items.length ≤ i := List.getElem?_eq_none_iff.1 missing
  exact List.getElem?_eq_none_iff.2 (Nat.le_succ_of_le past)

theorem settled_of_slotsOrUndefined (h : k.sees = slotsOrUndefined) : k.Settled := by
  intro items i missing
  rw [h] at missing
  cases missing

theorem visitTruthy_eq (k : Walker) (x : Value) (i : Nat) (w : World) :
    visitTruthy k.reentry k.sequence k.callback k.this x i w =
      (match (k.visit x i w).outcome with
        | .value y => .value y.truthy
        | .failure e => .failure e
        | .exhausted => .exhausted,
      (k.visit x i w).after) := by
  change (Bridge.invoke _ _ _ _ >>= fun v => pure v.truthy) w = _
  rw [Act.run_bind]
  unfold Walker.visit
  rcases Bridge.invoke _ _ _ _ w with ⟨_ | _ | _, w₁⟩ <;> rfl

/-- A walk makes the calls of its trace, and its state is what the visits make of it. -/
theorem walkFrom_eq (sees : k.sees = slots) (performs : Performs k next step) (state : β)
    (first left : Nat) (w : World) :
    walkFrom (slot? k.sequence) step state first left w =
      ended (k.trace (List.range' first left) w).1
        (pure ((k.trace (List.range' first left) w).1.foldl next state))
        (k.trace (List.range' first left) w).2 := by
  induction left generalizing state first w with
  | zero => rfl
  | succ left ih =>
    have here : slot? k.sequence first w =
        (.value (k.sees (w.heap.sequence k.sequence) first), w) := by
      rw [sees]
      rfl
    rw [walkFrom, Act.bind_of_value here]
    cases h : k.sees (w.heap.sequence k.sequence) first with
    | none =>
      rw [trace_of_missing (settled_of_slots sees) h]
      rfl
    | some x =>
      rw [List.range'_succ]
      cases on : k.goesOn (k.visit x first w) with
      | false =>
        rw [trace_ends h on, Visit.ended_single]
        simp only [Act.run_bind, performs state x first w, on]
        cases (k.visit x first w).outcome <;> rfl
      | true =>
        obtain ⟨y, value⟩ := value_of_goesOn on
        rw [trace_goesOn h on, Visit.ended_cons value]
        simp only [Act.run_bind, performs state x first w, on, value]
        exact ih _ _ _

/-- A search makes the calls of its trace and gives the visit whose callback says yes. -/
theorem findFrom_eq (sees : k.sees = slotsOrUndefined) (decides : k.decides = Value.truthy)
    (first left : Nat) (w : World) :
    findFrom (slot? k.sequence) .undefined
        (visitTruthy k.reentry k.sequence k.callback k.this) first left w =
      ended (k.trace (List.range' first left) w).1
        (pure (((k.trace (List.range' first left) w).1.find? Visit.accepted).map fun v =>
          (v.index, v.element)))
        (k.trace (List.range' first left) w).2 := by
  induction left generalizing first w with
  | zero => rfl
  | succ left ih =>
    have here : slot? k.sequence first w =
        (.value (w.heap.sequence k.sequence)[first]?, w) := rfl
    have h : k.sees (w.heap.sequence k.sequence) first =
        some ((w.heap.sequence k.sequence)[first]?.getD .undefined) := by
      rw [sees]
      rfl
    rw [findFrom, Act.bind_of_value here, List.range'_succ]
    generalize (w.heap.sequence k.sequence)[first]?.getD .undefined = x at h ⊢
    simp only [Act.run_bind, visitTruthy_eq]
    cases on : k.goesOn (k.visit x first w) with
    | false =>
      rw [trace_ends h on, Visit.ended_single]
      cases value : (k.visit x first w).outcome with
      | value y =>
        have yes : y.truthy = true := by
          simpa [Walker.goesOn, value, decides] using on
        have accepted : (k.visit x first w).accepted = true := by
          simp [Visit.accepted, Visit.result?, value, yes]
        simp only [yes, if_true, List.find?_cons, accepted]
        rfl
      | failure e => rfl
      | exhausted => rfl
    | true =>
      obtain ⟨y, value⟩ := value_of_goesOn on
      have no : y.truthy = false := by
        simpa [Walker.goesOn, value, decides] using on
      have refused : (k.visit x first w).accepted = false := by
        simp [Visit.accepted, Visit.result?, value, no]
      rw [trace_goesOn h on, Visit.ended_cons value]
      simp only [value, no, Bool.false_eq_true, if_false, List.find?_cons, refused]
      exact ih _ _

end Sequence

end ScriptBridge
