import ScriptBridge.World.Act

/-!
What every run keeps. Whatever host and script code do, an object keeps standing for what it stands
for, its fixed properties stay, and the tables of a live runtime only grow.
-/

namespace ScriptBridge

theorem ObjectKind.Becomes.standsFor_eq {k k' : ObjectKind} (h : k.Becomes k') :
    k'.standsFor? = k.standsFor? := by
  cases h with
  | same => rfl
  | moved h => cases movesTo_iff.1 h <;> rfl

def ObjectKind.isFunction : ObjectKind → Bool
  | function _ => true
  | _ => false

theorem ObjectKind.Becomes.isFunction_eq {k k' : ObjectKind} (h : k.Becomes k') :
    k'.isFunction = k.isFunction := by
  cases h with
  | same => rfl
  | moved h => cases movesTo_iff.1 h <;> rfl

/-- The hidden object to which a stand-in passes what its container does not answer. -/
def ObjectKind.target? : ObjectKind → Option ObjectId
  | sequenceProxy _ target _ | plainProxy _ target => some target
  | _ => none

theorem ObjectKind.target?_of_isFunction {k : ObjectKind} (h : k.isFunction) :
    k.target? = none := by
  cases k with
  | sequenceProxy | plainProxy => cases h
  | _ => rfl

theorem ObjectKind.target?_of_standsFor {k : ObjectKind} (h : k.standsFor? = none) :
    k.target? = none := by
  cases k with
  | sequenceProxy | plainProxy => cases h
  | _ => rfl

theorem ObjectKind.Becomes.target_eq {k k' : ObjectKind} (h : k.Becomes k') :
    k'.target? = k.target? := by
  cases h with
  | same => rfl
  | moved h => cases movesTo_iff.1 h <;> rfl

/-- The function of a method of a sequence runs this method for good. -/
theorem ObjectKind.Becomes.method_eq {k k' : ObjectKind} (h : k.Becomes k') {s : SequenceId}
    {method : SequenceMethod} (runs : k = .function (.sequenceMethod s method)) : k' = k := by
  subst runs
  cases h with
  | same => rfl
  | moved h => cases h

/-! ### Objects -/

/-- What stays of an object while its runtime lives. -/
structure Object.Later (o o' : Object) : Prop where
  standsFor : o'.kind.standsFor? = o.kind.standsFor?
  isFunction : o'.kind.isFunction = o.kind.isFunction
  target : o'.kind.target? = o.kind.target?
  method : ∀ s method, o.kind = .function (.sequenceMethod s method) → o'.kind = o.kind
  fixed : KeepsFixed o.properties o'.properties

namespace Object

theorem Later.refl (o : Object) : o.Later o := ⟨rfl, rfl, rfl, fun _ _ _ => rfl, .refl _⟩

theorem Later.trans {o o₁ o₂ : Object} (h : o.Later o₁) (h' : o₁.Later o₂) : o.Later o₂ where
  standsFor := h'.standsFor.trans h.standsFor
  isFunction := h'.isFunction.trans h.isFunction
  target := h'.target.trans h.target
  method s method runs :=
    (h'.method s method ((h.method s method runs).trans runs)).trans (h.method s method runs)
  fixed := h.fixed.trans h'.fixed

theorem Becomes.later {o o' : Object} (h : o.Becomes o') : o.Later o' :=
  ⟨h.kind.standsFor_eq, h.kind.isFunction_eq, h.kind.target_eq, fun _ _ => h.kind.method_eq,
    h.fixed⟩

theorem later_addMethod (o : Object) (method : SequenceMethod) (id : ObjectId) :
    o.Later (o.addMethod method id) := by
  unfold addMethod
  split
  · rename_i kind
    refine ⟨by rw [kind]; rfl, by rw [kind]; rfl, by rw [kind]; rfl, fun _ _ runs => ?_, .refl _⟩
    rw [kind] at runs
    cases runs
  · exact .refl o

end Object

/-! ### Runtimes -/

/-- Every object is still there, in a later state. -/
def ObjectHeap.Later (a b : ObjectHeap) : Prop :=
  ∀ i o, a.get? i = some o → ∃ o', b.get? i = some o' ∧ o.Later o'

namespace ObjectHeap

theorem Later.refl (a : ObjectHeap) : Later a a := fun _ o h => ⟨o, h, .refl o⟩

theorem Later.trans {a b c : ObjectHeap} (h : Later a b) (h' : Later b c) : Later a c := by
  intro i o found
  obtain ⟨o₁, found₁, later⟩ := h i o found
  obtain ⟨o₂, found₂, later'⟩ := h' i o₁ found₁
  exact ⟨o₂, found₂, later.trans later'⟩

theorem get?_push_of_some {a : ObjectHeap} {i : Nat} {q : Object} (found : a.get? i = some q)
    (o : Object) : Arena.get? (a.push o) i = some q := by
  have inside : i ≠ a.size := by
    rintro rfl
    simp [Arena.get?, Arena.size] at found
  rw [Arena.get?_push, if_neg inside, found]

theorem later_push (a : ObjectHeap) (o : Object) : Later a (a.push o) :=
  fun _ q found => ⟨q, get?_push_of_some found o, .refl q⟩

theorem later_set {a : ObjectHeap} {i : Nat} {o o' : Object} (found : a.get? i = some o)
    (h : o.Later o') : Later a (a.set i o') := by
  intro j q here
  rw [Arena.get?_set]
  split
  · rename_i hi
    obtain rfl : o = q := by
      rw [← hi.1, found] at here
      exact Option.some.inj here
    exact ⟨o', rfl, h⟩
  · exact ⟨q, here, .refl q⟩

end ObjectHeap

/-- What stays of a runtime while it lives. -/
structure Engine.Later (e e' : Engine) : Prop where
  objects : ObjectHeap.Later e.objects e'.objects
  standIns : ∀ handle id, e.registry.standIn? handle = some id →
    e'.registry.standIn? handle = some id
  held : e.held <+: e'.held
  taken : e.roots.taken ≤ e'.roots.taken
  nextTag : e.nextTag ≤ e'.nextTag

namespace Engine

theorem Later.of_eq {e e' : Engine} (objects : e'.objects = e.objects)
    (registry : e'.registry = e.registry) (held : e'.held = e.held)
    (taken : e.roots.taken ≤ e'.roots.taken) (nextTag : e'.nextTag = e.nextTag) : e.Later e' where
  objects := objects ▸ .refl _
  standIns := registry ▸ fun _ _ h => h
  held := held ▸ List.prefix_rfl
  taken := taken
  nextTag := nextTag ▸ Nat.le_refl _

theorem Later.of_objects {e : Engine} {objects : ObjectHeap}
    (h : ObjectHeap.Later e.objects objects) : e.Later { e with objects } :=
  ⟨h, fun _ _ h => h, List.prefix_rfl, Nat.le_refl _, Nat.le_refl _⟩

theorem Later.refl (e : Engine) : e.Later e := .of_eq rfl rfl rfl (Nat.le_refl _) rfl

theorem Later.trans {e e₁ e₂ : Engine} (h : e.Later e₁) (h' : e₁.Later e₂) : e.Later e₂ where
  objects := h.objects.trans h'.objects
  standIns handle id found := h'.standIns handle id (h.standIns handle id found)
  held := h.held.trans h'.held
  taken := Nat.le_trans h.taken h'.taken
  nextTag := Nat.le_trans h.nextTag h'.nextTag

end Engine

namespace Registry

theorem standIn?_track (g : Registry) (handle other : Handle) :
    (g.track handle).standIn? other = g.standIn? other := by
  unfold track
  split <;> rfl

theorem standIn?_register (g : Registry) (handle other : Handle) (id : ObjectId) :
    (g.register handle id).standIn? other =
      if handle = other then some id else g.standIn? other := by
  rw [register, standIn?_track]
  by_cases h : handle = other <;> simp [standIn?, h]

end Registry

theorem Engine.later_expose {e : Engine} {handle : Handle}
    (fresh : e.registry.standIn? handle = none) (o : Object) : e.Later (e.expose handle o) := by
  refine ⟨ObjectHeap.later_push _ o, ?_, List.prefix_rfl, Nat.le_refl _, Nat.le_refl _⟩
  intro other id found
  have hne : handle ≠ other := by
    rintro rfl
    rw [fresh] at found
    cases found
  simp only [Engine.expose, Registry.standIn?_register, hne, if_false, found]

theorem EngineStep.later {e e' : Engine} (s : EngineStep e e') : e.Later e' := by
  cases s with
  | objectAdded o _ => exact .of_objects (ObjectHeap.later_push _ o)
  | objectChanged id o o' found h => exact .of_objects (ObjectHeap.later_set found h.later)
  | exposed handle o fresh _ => exact Engine.later_expose fresh o
  | methodAdded proxy o s method code found =>
    have pushed := ObjectHeap.get?_push_of_some found code
    exact .of_objects ((ObjectHeap.later_push _ code).trans
      (ObjectHeap.later_set pushed (o.later_addMethod method _)))
  | held id _ =>
    exact ⟨.refl _, fun _ _ h => h, List.prefix_append _ _, Nat.le_refl _, Nat.le_refl _⟩
  | rooted => exact .of_eq rfl rfl rfl (Nat.le_succ _) rfl
  | raised error o _ =>
    exact ⟨ObjectHeap.later_push _ _, fun _ _ h => h, List.prefix_rfl, Nat.le_refl _, Nat.le_succ _⟩
  | symbolMade | jobQueued | jobTaken | recovered | dropped =>
    exact .of_eq rfl rfl rfl (Nat.le_refl _) rfl

/-- A relation between the states of a runtime that holds of all it does. -/
structure Engine.Throughout (R : Engine → Engine → Prop) : Prop where
  refl : ∀ e, R e e
  trans : ∀ {a b c}, R a b → R b c → R a c
  step : ∀ {e e'}, EngineStep e e' → R e e'
  entered : ∀ e, R e e.entered
  left : ∀ e, R e e.left

theorem Engine.throughout_later : Engine.Throughout Engine.Later where
  refl := .refl
  trans := .trans
  step := EngineStep.later
  entered _ := .of_eq rfl rfl rfl (Nat.le_refl _) rfl
  left _ := .of_eq rfl rfl rfl (Nat.le_refl _) rfl

/-! ### Runs -/

namespace Steps

theorem depth_eq {w w' : World} (h : Steps w w') : w'.engine.depth = w.engine.depth := by
  refine h.lift (R := fun w w' => w'.engine.depth = w.engine.depth) (fun _ => rfl)
    (fun h h' => h'.trans h) ?_ ?_
  · intro w w' s
    cases s with
    | engine e s => cases s <;> rfl
    | started h => exact h.symm
    | heap | bound | logged | exited => rfl
  · intro w w' h
    simp only [World.left, Engine.left, h, World.entered, Engine.entered, Nat.add_sub_cancel]

theorem runtime_le {w w' : World} (h : Steps w w') : w.runtime ≤ w'.runtime := by
  refine h.lift (R := fun w w' => w.runtime ≤ w'.runtime) (fun _ => Nat.le_refl _)
    Nat.le_trans ?_ fun h => h
  intro w w' s
  cases s with
  | started => exact Nat.le_succ _
  | heap | engine | bound | logged | exited => exact Nat.le_refl _

/-- A relation between host heaps that holds of every step holds of every run. -/
theorem lift_heap {R : Heap → Heap → Prop} (refl : ∀ h, R h h)
    (trans : ∀ {a b c}, R a b → R b c → R a c) (step : ∀ {h h'}, HeapStep h h' → R h h')
    {w w' : World} (h : Steps w w') : R w.heap w'.heap := by
  refine h.lift (R := fun w w' => R w.heap w'.heap) (fun w => refl w.heap) trans ?_ fun h => h
  intro w w' s
  cases s with
  | heap h s => exact step s
  | engine | bound | logged | exited => exact refl w.heap
  | started =>
    rw [World.heap_restarted]
    exact refl w.heap

/-- Sequences are never given up. -/
theorem sequences_le {w w' : World} (h : Steps w w') :
    w.heap.sequences.size ≤ w'.heap.sequences.size := by
  refine h.lift_heap (R := fun h h' => h.sequences.size ≤ h'.sequences.size)
    (fun _ => Nat.le_refl _) Nat.le_trans ?_
  intro h h' s
  cases s with
  | sequenceWritten id items => exact Nat.le_of_eq (Arena.size_set _ _ _).symm
  | sequenceAdded items =>
    change _ ≤ (h.sequences.push items).size
    rw [Arena.size_push]
    exact Nat.le_succ _
  | plainWritten | plainAdded | functionAdded => exact Nat.le_refl _

/-- Nor are plain objects. -/
theorem plains_le {w w' : World} (h : Steps w w') :
    w.heap.plains.size ≤ w'.heap.plains.size := by
  refine h.lift_heap (R := fun h h' => h.plains.size ≤ h'.plains.size)
    (fun _ => Nat.le_refl _) Nat.le_trans ?_
  intro h h' s
  cases s with
  | plainWritten id entries => exact Nat.le_of_eq (Arena.size_set _ _ _).symm
  | plainAdded entries =>
    change _ ≤ (h.plains.push entries).size
    rw [Arena.size_push]
    exact Nat.le_succ _
  | sequenceWritten | sequenceAdded | functionAdded => exact Nat.le_refl _

/-- While one runtime lives, such a relation holds of every run. -/
theorem lift_engine {R : Engine → Engine → Prop} (throughout : Engine.Throughout R) {w w' : World}
    (h : Steps w w') (live : w'.runtime = w.runtime) : R w.engine w'.engine := by
  -- runtimes are counted upwards, so an equal number at the end means that none was started
  have lifted := h.lift
    (R := fun w w' => w.runtime ≤ w'.runtime ∧ (w'.runtime = w.runtime → R w.engine w'.engine))
    (fun w => ⟨Nat.le_refl _, fun _ => throughout.refl w.engine⟩) ?_ ?_ ?_
  · exact lifted.2 live
  · rintro a b c ⟨hab, rab⟩ ⟨hbc, rbc⟩
    refine ⟨Nat.le_trans hab hbc, fun live => ?_⟩
    exact throughout.trans (rab (by omega)) (rbc (by omega))
  · intro w w' s
    cases s with
    | engine e s => exact ⟨Nat.le_refl _, fun _ => throughout.step s⟩
    | started => exact ⟨Nat.le_succ _, fun live => absurd live (Nat.succ_ne_self _)⟩
    | heap | bound | logged | exited => exact ⟨Nat.le_refl _, fun _ => throughout.refl w.engine⟩
  · rintro w w' ⟨le, inside⟩
    exact ⟨le, fun live => throughout.trans (throughout.entered w.engine)
      (throughout.trans (inside live) (throughout.left w'.engine))⟩

/-- While one runtime lives it only grows. -/
theorem later {w w' : World} (h : Steps w w') (live : w'.runtime = w.runtime) :
    w.engine.Later w'.engine :=
  h.lift_engine Engine.throughout_later live

/-- Inside an entry no new runtime is started. -/
theorem runtime_eq {w w' : World} (h : Steps w w') (entered : 0 < w.engine.depth) :
    w'.runtime = w.runtime := by
  induction h with
  | refl => rfl
  | step s rest ih =>
    have depth := (Steps.single s).depth_eq
    rw [ih (by omega)]
    cases s with
    | started h => omega
    | heap | engine | bound | logged | exited => rfl
  | entry inside rest ihInside ihRest =>
    have depth := inside.depth_eq
    simp only [World.entered, Engine.entered] at depth
    rw [ihRest (by simp only [World.left, Engine.left]; omega)]
    exact ihInside (Nat.succ_pos _)

end Steps

/-! ### Moments -/

/-- One moment of an execution after another: between them are runs, and entries that are still open
or were open before. -/
inductive Reaches : World → World → Prop where
  | refl (w : World) : Reaches w w
  | run {a b c : World} (before : Reaches a b) (run : Steps b c) : Reaches a c
  | entered {a b : World} (before : Reaches a b) : Reaches a b.entered
  | left {a b : World} (before : Reaches a b) : Reaches a b.left

namespace Reaches

theorem trans {a b c : World} (h : Reaches a b) (h' : Reaches b c) : Reaches a c := by
  induction h' with
  | refl => exact h
  | run _ run ih => exact .run ih run
  | entered _ ih => exact .entered ih
  | left _ ih => exact .left ih

theorem runtime_le {a b : World} (h : Reaches a b) : a.runtime ≤ b.runtime := by
  induction h with
  | refl => exact Nat.le_refl _
  | run _ run ih => exact Nat.le_trans ih run.runtime_le
  | entered _ ih => exact ih
  | left _ ih => exact ih

theorem plains_le {a b : World} (h : Reaches a b) :
    a.heap.plains.size ≤ b.heap.plains.size := by
  induction h with
  | refl => exact Nat.le_refl _
  | run _ run ih => exact Nat.le_trans ih run.plains_le
  | entered _ ih => exact ih
  | left _ ih => exact ih

/-- While one runtime lives, what holds of all it does holds from any moment to a later one. -/
theorem lift_engine {R : Engine → Engine → Prop} (throughout : Engine.Throughout R) {a b : World}
    (h : Reaches a b) (live : b.runtime = a.runtime) : R a.engine b.engine := by
  induction h with
  | refl => exact throughout.refl _
  | run before run ih =>
    have le := before.runtime_le
    have le' := run.runtime_le
    exact throughout.trans (ih (by omega)) (run.lift_engine throughout (by omega))
  | entered _ ih => exact throughout.trans (ih live) (throughout.entered _)
  | left _ ih => exact throughout.trans (ih live) (throughout.left _)

theorem later {a b : World} (h : Reaches a b) (live : b.runtime = a.runtime) :
    a.engine.Later b.engine :=
  h.lift_engine Engine.throughout_later live

end Reaches

theorem Steps.reaches {a b : World} (h : Steps a b) : Reaches a b := .run (.refl a) h

theorem Act.reaches {ε α : Type} {x : Act ε α} {w w' : World} {outcome : Outcome ε α}
    (h : x w = (outcome, w')) : Reaches w w' :=
  (steps_of h).reaches

/-- The moments that executions lead to. -/
def Reachable (w : World) : Prop := ∃ config, Reaches { config } w

namespace Reachable

theorem initial : Reachable {} := ⟨{}, .refl _⟩

theorem of_reaches {w w' : World} (h : Reachable w) (later : Reaches w w') : Reachable w' := by
  obtain ⟨config, before⟩ := h
  exact ⟨config, before.trans later⟩

theorem of_run {ε α : Type} {w w' : World} (h : Reachable w) {x : Act ε α}
    {outcome : Outcome ε α} (ran : x w = (outcome, w')) : Reachable w' :=
  h.of_reaches (Act.reaches ran)

theorem run {ε α : Type} {w : World} (h : Reachable w) (x : Act ε α) : Reachable (x w).2 :=
  h.of_run rfl

theorem entered {w : World} (h : Reachable w) : Reachable w.entered :=
  h.of_reaches (.entered (.refl w))

end Reachable

/-! ### Invariants -/

/-- What holds of new runtimes and is kept by all that one does. -/
structure Engine.Invariant (P : Engine → Prop) : Prop where
  initial : P {}
  fresh : P .fresh
  step : ∀ {e e'}, EngineStep e e' → P e → P e'
  entered : ∀ {e}, P e → P e.entered
  left : ∀ {e}, P e → P e.left

namespace Engine.Invariant

variable {P : Engine → Prop} {w w' : World}

theorem of_steps (inv : Invariant P) (h : Steps w w') (holds : P w.engine) : P w'.engine := by
  refine h.lift (R := fun w w' => P w.engine → P w'.engine) (fun _ p => p)
    (fun h h' p => h' (h p)) ?_ ?_ holds
  · intro w w' s p
    cases s with
    | engine e s => exact inv.step s p
    | started => exact inv.fresh
    | heap | bound | logged | exited => exact p
  · exact fun inside p => inv.left (inside (inv.entered p))

/-- An invariant holds at every moment of every execution. -/
theorem of_reachable (inv : Invariant P) (h : Reachable w) : P w.engine := by
  obtain ⟨config, run⟩ := h
  induction run with
  | refl => exact inv.initial
  | run _ run ih => exact inv.of_steps run ih
  | entered _ ih => exact inv.entered ih
  | left _ ih => exact inv.left ih

end Engine.Invariant

/-! ### Stand-ins -/

/-- An object stands for a host container or function. -/
def Stands (w : World) (id : ObjectId) (handle : Handle) : Prop :=
  ∃ o, w.engine.objects.get? id.index = some o ∧ o.kind.standsFor? = some handle

/-- While its runtime lives, a stand-in stands for what it stands for. -/
theorem Stands.of_reaches {w w' : World} {id : ObjectId} {handle : Handle}
    (h : Stands w id handle) (run : Reaches w w') (live : w'.runtime = w.runtime) :
    Stands w' id handle := by
  obtain ⟨o, found, stands⟩ := h
  obtain ⟨o', found', later⟩ := (run.later live).objects id.index o found
  exact ⟨o', found', later.standsFor.trans stands⟩

theorem ObjectKind.sequenceProxy_of_standsFor {k : ObjectKind} {s : SequenceId}
    (h : k.standsFor? = some (.sequence s)) :
    ∃ target methods, k = .sequenceProxy s target methods := by
  unfold standsFor? at h
  split at h <;> cases h
  exact ⟨_, _, rfl⟩

theorem Stands.sequence {w : World} {id : ObjectId} {s : SequenceId}
    (h : Stands w id (.sequence s)) :
    ∃ o target methods, w.engine.objects.get? id.index = some o ∧
      o.kind = .sequenceProxy s target methods := by
  obtain ⟨o, found, stands⟩ := h
  obtain ⟨target, methods, kind⟩ := ObjectKind.sequenceProxy_of_standsFor stands
  exact ⟨o, target, methods, found, kind⟩

theorem Stands.plain {w : World} {id : ObjectId} {p : PlainId} (h : Stands w id (.plain p)) :
    ∃ o target, w.engine.objects.get? id.index = some o ∧ o.kind = .plainProxy p target := by
  obtain ⟨o, found, stands⟩ := h
  unfold ObjectKind.standsFor? at stands
  split at stands <;> cases stands
  exact ⟨o, _, found, ‹_›⟩

theorem Stands.function {w : World} {id : ObjectId} {f : HostFunctionId}
    (h : Stands w id (.function f)) :
    ∃ o, w.engine.objects.get? id.index = some o ∧ o.kind = .function (.hostFunction f) := by
  obtain ⟨o, found, stands⟩ := h
  unfold ObjectKind.standsFor? at stands
  split at stands <;> cases stands
  exact ⟨o, found, ‹_›⟩

end ScriptBridge
