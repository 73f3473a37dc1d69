import ScriptBridge.Proofs.MapView

/-!
Runs over one plain object. The host and the script write and remove its entries in any order, and
the script defines accessors on its stand-in; what the object owns after a run is what these steps,
taken one after another, make of what it owned before.
-/

namespace ScriptBridge

/-! ### What the object owns -/

/-- A property that is read through a function, as a definition of a new accessor leaves it. -/
def Property.getter (f : ObjectId) : Property := .accessor (some f) none false true

/-- A step of a run as far as one plain object goes. -/
inductive OwnEvent where
  | written (k : String) (v : Value)
  | removed (k : String)
  | defined (key : PropertyKey) (f : ObjectId)

/-- What a plain object owns on the host, and what its stand-in owns besides. -/
structure OwnState where
  entries : Entries String Value
  accessors : Entries PropertyKey Property := .empty

namespace OwnState

def apply (s : OwnState) : OwnEvent → OwnState
  | .written k v => { s with entries := s.entries.insert k v }
  | .removed k => { s with entries := s.entries.erase k }
  | .defined key f => { s with accessors := s.accessors.insert key (.getter f) }

/-- The state after a run. -/
def after (s : OwnState) (events : List OwnEvent) : OwnState := events.foldl apply s

theorem after_append (s : OwnState) (events more : List OwnEvent) :
    s.after (events ++ more) = (s.after events).after more :=
  List.foldl_append

/-- The hidden object of the stand-in. -/
def hidden (s : OwnState) : Object := { Object.blank with properties := s.accessors }

/-- All that is on the hidden object are accessors. -/
def OnlyGetters (s : OwnState) : Prop :=
  ∀ key property, s.accessors.get? key = some property → ∃ f, property = .getter f

theorem onlyGetters_entries (entries : Entries String Value) : OnlyGetters { entries } := by
  intro key property found
  rw [Entries.get?_empty] at found
  cases found

theorem OnlyGetters.apply {s : OwnState} (only : s.OnlyGetters) (event : OwnEvent) :
    (s.apply event).OnlyGetters := by
  cases event with
  | written | removed => exact only
  | defined key f =>
    intro key' property found
    rw [OwnState.apply, Entries.get?_insert] at found
    split at found
    · exact ⟨f, (Option.some.inj found).symm⟩
    · exact only key' property found

end OwnState

/-- A plain object and its stand-in own what a state says. -/
structure Shows (w : World) (id : ObjectId) (p : PlainId) (s : OwnState) : Prop where
  fronts : Fronts w id p s.hidden
  made : p.index < w.heap.plains.size
  entries : w.heap.plain p = s.entries
  only : s.OnlyGetters

/-! ### Runs -/

/-- What leaves a plain object and what its stand-in owns as they were. -/
structure Aside (id : ObjectId) (p : PlainId) (w w' : World) : Prop where
  run : Reaches w w'
  runtime : w'.runtime = w.runtime
  entries : w'.heap.plain p = w.heap.plain p
  hidden : ∀ o, w.hidden? id = some o → o.kind = .ordinary → w'.hidden? id = some o

/-- The two ways in which a script writes a value. -/
inductive Writes (r : Reentry) (id : ObjectId) (key : PropertyKey) (x : ScriptValue) :
    ScriptAct Unit → Prop where
  | assign : Writes r id key x (Script.set r id key x)
  | define : Writes r id key x (Script.define r id key (.value x))

/-- Runs of host and script over a plain object and its stand-in, and what they did to them. A value
that the script writes crosses first, and crossing is a run of its own. -/
inductive PlainRun (r : Reentry) (id : ObjectId) (p : PlainId) :
    World → List OwnEvent → World → Prop where
  | refl (w : World) : PlainRun r id p w [] w
  | aside {w w₁ w₂ : World} {events : List OwnEvent} (before : PlainRun r id p w events w₁)
      (rest : Aside id p w₁ w₂) : PlainRun r id p w events w₂
  | hostWrote {w w₁ : World} {events : List OwnEvent} (before : PlainRun r id p w events w₁)
      (k : String) (v : Value) :
    PlainRun r id p w (events ++ [.written k v]) (Act.setEntry (ε := Error) p k v w₁).2
  | hostRemoved {w w₁ : World} {events : List OwnEvent} (before : PlainRun r id p w events w₁)
      (k : String) :
    PlainRun r id p w (events ++ [.removed k]) (Act.removeEntry (ε := Error) p k w₁).2
  | wrote {w w₁ w₂ : World} {events inside : List OwnEvent} {key : PropertyKey} {k : String}
      {x : ScriptValue} {v : Value} {way : ScriptAct Unit} (before : PlainRun r id p w events w₁)
      (named : Script.plainKey? key = some k) (writes : Writes r id key x way)
      (crosses : Bridge.toHost r x w₁ = (.value v, w₂)) (crossing : PlainRun r id p w₁ inside w₂) :
    PlainRun r id p w (events ++ inside ++ [.written k v]) (way w₁).2
  | refused {w w₁ w₂ : World} {events inside : List OwnEvent} {key : PropertyKey} {k : String}
      {x : ScriptValue} {e : Error} {way : ScriptAct Unit} (before : PlainRun r id p w events w₁)
      (named : Script.plainKey? key = some k) (writes : Writes r id key x way)
      (fails : Bridge.toHost r x w₁ = (.failure e, w₂)) (crossing : PlainRun r id p w₁ inside w₂) :
    PlainRun r id p w (events ++ inside) (way w₁).2
  | deleted {w w₁ : World} {events : List OwnEvent} {key : PropertyKey} {k : String}
      (before : PlainRun r id p w events w₁) (named : Script.plainKey? key = some k) :
    PlainRun r id p w (events ++ [.removed k]) (Script.delete id key w₁).2
  | getterDefined {w w₁ : World} {events : List OwnEvent} (before : PlainRun r id p w events w₁)
      (key : PropertyKey) (f : ObjectId) :
    PlainRun r id p w (events ++ [.defined key f]) (Script.define r id key (.getter f) w₁).2

/-! ### Defining accessors -/

/-- Under the key the object has an accessor at most. -/
def Object.TakesGetter (o : Object) (key : PropertyKey) : Prop :=
  o.properties.get? key = none ∨ ∃ f, o.properties.get? key = some (.getter f)

def Object.withGetter (o : Object) (key : PropertyKey) (f : ObjectId) : Object :=
  { o with properties := o.properties.insert key (.getter f) }

section

variable {r : Reentry} {w w' : World} {id : ObjectId} {o : Object} {key : PropertyKey}

theorem Object.TakesGetter.stored_eq (takes : o.TakesGetter key) (ordinary : o.kind = .ordinary)
    (f : ObjectId) : Script.stored o key (.getter f) = o.withGetter key f := by
  have changeable : (o.properties.get? key).any (·.isFixed) = false := by
    obtain none | ⟨g, some⟩ := takes
    · rw [none]; rfl
    · rw [some]; rfl
  have written : o.write key (.getter f) = o.withGetter key f := by
    rw [write, changeable, if_neg Bool.false_ne_true]
    rfl
  have kind : (o.withGetter key f).kind = .ordinary := ordinary
  unfold Script.stored
  simp only [written, kind]

theorem Script.defineOwn_getter (found : w.engine.objects.get? id.index = some o)
    (takes : o.TakesGetter key) (ordinary : o.kind = .ordinary) (f : ObjectId) :
    defineOwn id key (.getter f) w = (.value true, { w with engine := { w.engine with
      objects := w.engine.objects.set id.index (o.withGetter key f) } }) := by
  have old : (o.properties.get? key).any (!·.configurable) = false ∧
      ((o.properties.get? key).map (·.enumerable)).getD false = false := by
    obtain none | ⟨g, some⟩ := takes
    · rw [none]; exact ⟨rfl, rfl⟩
    · rw [some]; exact ⟨rfl, rfl⟩
  rw [defineOwn, Act.object?_bind found]
  simp only [old.1, old.2, Bool.false_eq_true, if_false]
  rw [← takes.stored_eq ordinary f]
  exact Act.bind_of_value (Act.editObject_of_found _ _ found) _

namespace Fronts

variable {p : PlainId} {hidden : Object}

/-- Accessors are defined on the hidden object. -/
theorem define_getter (h : Fronts w id p hidden) (takes : hidden.TakesGetter key) (f : ObjectId) :
    ∃ w', Script.define r id key (.getter f) w = (.value (), w') ∧ w'.heap = w.heap ∧
      Fronts w' id p (hidden.withGetter key f) := by
  obtain ⟨proxy, target, found, kind, under⟩ := h.found
  let objects := w.engine.objects.set target.index (hidden.withGetter key f)
  let w' : World := { w with engine := { w.engine with objects } }
  have made : Script.defineOwn target key (.getter f) w = (.value true, w') :=
    Script.defineOwn_getter under takes h.ordinary f
  have apart : target.index ≠ id.index := by
    intro same
    rw [same, found] at under
    cases under
    rw [h.ordinary] at kind
    cases kind
  have kept : w'.engine.objects.get? id.index = some proxy := by
    rw [Arena.get?_set, if_neg fun both => apart both.1, found]
  have changed : w'.engine.objects.get? target.index = some (hidden.withGetter key f) := by
    rw [Arena.get?_set, if_pos ⟨rfl, Arena.lt_size_of_get? under⟩]
  refine ⟨w', ?_, rfl, ⟨proxy, kept, by rw [kind]; rfl⟩, ?_, h.ordinary⟩
  · rw [Script.define_getter found (by rw [kind]; rfl)]
    exact Act.bind_of_value made _
  · rw [World.hidden?, kept, Option.bind_some, kind]
    exact changed

theorem of_aside (h : Fronts w id p hidden) (rest : Aside id p w w') : Fronts w' id p hidden :=
  ⟨h.stands.of_reaches rest.run rest.runtime, rest.hidden hidden h.under h.ordinary, h.ordinary⟩

end Fronts

end

/-! ### Steps of a run -/

namespace Shows

variable {r : Reentry} {w w' : World} {id : ObjectId} {p : PlainId} {s : OwnState}

theorem of_aside (h : Shows w id p s) (rest : Aside id p w w') : Shows w' id p s where
  fronts := h.fronts.of_aside rest
  made := Nat.lt_of_lt_of_le h.made rest.run.plains_le
  entries := rest.entries.trans h.entries
  only := h.only

theorem of_objectsKept (h : Shows w id p s) (kept : ObjectsKept w w') : Shows w' id p s where
  fronts := h.fronts.of_objectsKept kept
  made := by rw [kept.heap]; exact h.made
  entries := by rw [kept.heap]; exact h.entries
  only := h.only

theorem of_setPlain (h : Shows w id p s) (entries : Entries String Value) :
    Shows { w with heap := w.heap.setPlain p entries } id p { s with entries } where
  fronts := h.fronts.of_engine_eq rfl
  made := by rw [Heap.size_plains_setPlain]; exact h.made
  entries := Heap.plain_setPlain_self h.made entries
  only := h.only

theorem written (h : Shows w id p s) (k : String) (v : Value) :
    Shows (Act.setEntry (ε := Error) p k v w).2 id p (s.apply (.written k v)) := by
  rw [OwnState.apply, ← h.entries]
  exact h.of_setPlain _

theorem removed (h : Shows w id p s) (k : String) :
    Shows (Act.removeEntry (ε := Error) p k w).2 id p (s.apply (.removed k)) := by
  rw [OwnState.apply, ← h.entries]
  exact h.of_setPlain _

theorem defined (h : Shows w id p s) (key : PropertyKey) (f : ObjectId) :
    ∃ w', Script.define r id key (.getter f) w = (.value (), w') ∧
      Shows w' id p (s.apply (.defined key f)) := by
  have takes : s.hidden.TakesGetter key := by
    cases was : s.hidden.properties.get? key with
    | none => exact .inl was
    | some property =>
      obtain ⟨g, rfl⟩ := h.only key property was
      exact .inr ⟨g, was⟩
  obtain ⟨w', defines, heap, fronts⟩ := h.fronts.define_getter (r := r) takes f
  exact ⟨w', defines, fronts, by rw [heap]; exact h.made, by rw [heap]; exact h.entries,
    h.only.apply _⟩

/-- A write whose value crosses writes it and gives nothing back. -/
theorem wrote (h : Shows w id p s) {key : PropertyKey} {k : String} {x : ScriptValue} {v : Value}
    {way : ScriptAct Unit} (named : Script.plainKey? key = some k) (writes : Writes r id key x way)
    (crosses : Bridge.toHost r x w = (.value v, w')) :
    way w = (.value (), (Act.setEntry (ε := Error) p k v w').2) := by
  cases writes with
  | assign => exact Script.set_of_crossing h.fronts named crosses
  | define => exact Script.define_of_crossing h.fronts named crosses

/-- A write whose value cannot cross throws; after the crossing only an error object is made. -/
theorem refused (h : Shows w id p s) {key : PropertyKey} {k : String} {x : ScriptValue} {e : Error}
    {way : ScriptAct Unit} (named : Script.plainKey? key = some k) (writes : Writes r id key x way)
    (fails : Bridge.toHost r x w = (.failure e, w')) :
    Throws way e w w' ∧ ObjectsKept w' (way w).2 := by
  obtain ⟨proxy, target, found, kind, _⟩ := h.fronts.found
  have hosted : Hosted proxy key := .entry p target k kind named
  have throws : Throws way e w w' := by
    cases writes with
    | assign => exact Script.set_throws found hosted fails
    | define => exact Script.define_throws found hosted fails
  refine ⟨throws, ?_⟩
  obtain ⟨thrown, w'', thrownInto, here⟩ := throws
  have kept := Bridge.throwIntoScript_within (α := Unit) (E := .crossing) e w'
  rw [thrownInto] at kept
  rw [here]
  exact kept

end Shows

/-- What a plain object and its stand-in own after a run is what its steps make of what they owned
before. -/
theorem PlainRun.shows {r : Reentry} {id : ObjectId} {p : PlainId} {w w' : World}
    {events : List OwnEvent} (run : PlainRun r id p w events w') {s : OwnState}
    (start : Shows w id p s) : Shows w' id p (s.after events) := by
  induction run generalizing s with
  | refl => exact start
  | aside _ rest ih => exact (ih start).of_aside rest
  | hostWrote _ k v ih =>
    rw [OwnState.after_append]
    exact (ih start).written k v
  | hostRemoved _ k ih =>
    rw [OwnState.after_append]
    exact (ih start).removed k
  | wrote _ named writes crosses _ ih ihCrossing =>
    -- the state the value is written in is the one its crossing leaves
    rw [OwnState.after_append, OwnState.after_append, (ih start).wrote named writes crosses]
    exact (ihCrossing (ih start)).written _ _
  | refused _ named writes fails _ ih ihCrossing =>
    rw [OwnState.after_append]
    exact (ihCrossing (ih start)).of_objectsKept ((ih start).refused named writes fails).2
  | deleted _ named ih =>
    rw [OwnState.after_append, Script.delete_of_named (ih start).fronts named]
    exact (ih start).removed _
  | getterDefined _ key f ih =>
    obtain ⟨w', defines, shows⟩ := (ih start).defined key f
    rw [OwnState.after_append, defines]
    exact shows

/-! ### The beginning -/

/-- When a plain object first crosses, its stand-in has nothing of its own. -/
theorem shows_of_exposed {w w' : World} {id : ObjectId} {p : PlainId}
    (made : p.index < w.heap.plains.size)
    (fresh : w.engine.registry.standIn? (.plain p) = none)
    (exposed : Bridge.standIn (.plain p) w = (.value (.object id), w')) :
    w'.heap = w.heap ∧ Shows w' id p { entries := w.heap.plain p } := by
  let proxy : Object := { kind := .plainProxy p ⟨w.engine.objects.size⟩, prototype := none }
  let started : World :=
    { w with engine := { w.engine with objects := w.engine.objects.push .blank } }
  have created : Bridge.standIn (.plain p) w =
      (.value (.object ⟨w.engine.objects.size + 1⟩),
        { started with engine := started.engine.expose (.plain p) proxy }) := by
    rw [Bridge.standIn, Bridge.standIn?, Act.read_bind, fresh]
    have exposes : (Act.expose (.plain p) proxy rfl : HostAct _) started =
        (.value ⟨w.engine.objects.size + 1⟩,
          { started with engine := started.engine.expose (.plain p) proxy }) := by
      rw [← Arena.size_push w.engine.objects .blank]
      exact Act.expose_of_new (w := started) rfl rfl fresh
    exact Act.bind_of_value ((Act.bind_of_value rfl _).trans exposes) _
  rw [created] at exposed
  cases exposed
  have found : ((w.engine.objects.push .blank).push proxy).get? (w.engine.objects.size + 1) =
      some proxy := by
    rw [Arena.get?_push, Arena.size_push, if_pos rfl]
  have under : ((w.engine.objects.push .blank).push proxy).get? w.engine.objects.size =
      some .blank := by
    rw [Arena.get?_push, Arena.size_push, if_neg (Nat.ne_of_lt (Nat.lt_succ_self _)),
      Arena.get?_push, if_pos rfl]
  have fronts : Fronts { started with engine := started.engine.expose (.plain p) proxy }
      ⟨w.engine.objects.size + 1⟩ p .blank := by
    refine ⟨⟨proxy, found, rfl⟩, ?_, rfl⟩
    exact (congrArg (fun o => (Option.bind o _).bind _) found).trans under
  exact ⟨rfl, fronts, made, rfl, OwnState.onlyGetters_entries _⟩

/-! ### What is a run -/

section

variable {r : Reentry} {w w₁ w₂ : World} {id : ObjectId} {p : PlainId}

theorem ObjectsKept.aside (kept : ObjectsKept w w₁) (id : ObjectId) (p : PlainId) :
    Aside id p w w₁ where
  run := kept.steps.reaches
  runtime := kept.runtime
  entries := by rw [kept.heap]
  hidden o under ordinary := by
    obtain ⟨target, aimed, found⟩ := Option.bind_eq_some_iff.1 under
    obtain ⟨proxy, here, aims⟩ := Option.bind_eq_some_iff.1 aimed
    rw [World.hidden?_of_reaches here aims kept.steps.reaches kept.runtime]
    exact kept.objects _ _ found (by rw [ordinary]; rfl)

instance : AllowsCrossing (Aside id p) where
  scriptSide kept := kept.aside id p
  newSequence w items :=
    ⟨(Steps.single (.heap w _ (.sequenceAdded w.heap items))).reaches, rfl, rfl, fun _ h _ => h⟩

theorem PlainRun.trans {events more : List OwnEvent} (h : PlainRun r id p w events w₁)
    (h' : PlainRun r id p w₁ more w₂) : PlainRun r id p w (events ++ more) w₂ := by
  induction h' with
  | refl => simpa using h
  | aside _ rest ih => exact .aside (ih h) rest
  | hostWrote _ k v ih =>
    rw [← List.append_assoc]
    exact .hostWrote (ih h) k v
  | hostRemoved _ k ih =>
    rw [← List.append_assoc]
    exact .hostRemoved (ih h) k
  | wrote _ named writes crosses crossing ih _ =>
    rw [← List.append_assoc, ← List.append_assoc]
    exact .wrote (ih h) named writes crosses crossing
  | refused _ named writes fails crossing ih _ =>
    rw [← List.append_assoc]
    exact .refused (ih h) named writes fails crossing
  | deleted _ named ih =>
    rw [← List.append_assoc]
    exact .deleted (ih h) named
  | getterDefined _ key f ih =>
    rw [← List.append_assoc]
    exact .getterDefined (ih h) key f

/-- Where calls are runs, so is all that does no more than call functions: reading, listing, and
crossings either way. -/
theorem PlainRun.of_within
    (calls : ∀ f this args w, ∃ events, PlainRun r id p w events (r.call f this args w).2)
    {ε α : Type} {x : Act ε α} (within : x.Within (.besides r (Aside id p))) (w : World) :
    ∃ events, PlainRun r id p w events (x w).2 := by
  generalize (x w).2 = w', within w = done
  induction done with
  | refl => exact ⟨[], .refl w⟩
  | change _ rest ih =>
    obtain ⟨events, run⟩ := ih
    exact ⟨events, .aside run rest⟩
  | call _ f this args ih =>
    obtain ⟨events, run⟩ := ih
    obtain ⟨more, called⟩ := calls f this args _
    exact ⟨events ++ more, run.trans called⟩

end

end ScriptBridge
