import ScriptBridge.Bridge.StandIn
import ScriptBridge.Proofs.Runs
import Mathlib.Data.List.Nodup

/-!
The tables behind identity agree. Over any run of a runtime each handle has at most one stand-in,
each stand-in is registered for one handle, and the host can resolve every handle that has a
stand-in, however often it forgot the others.
-/

namespace ScriptBridge

/-- In a table whose keys are all different a search finds what is there. -/
theorem find?_key_eq_some_iff {α κ : Type} [DecidableEq κ] {key : α → κ} {l : List α}
    (nodup : (l.map key).Nodup) {k : κ} {a : α} :
    l.find? (key · == k) = some a ↔ a ∈ l ∧ key a = k := by
  constructor
  · intro found
    exact ⟨List.mem_of_find?_eq_some found, by simpa using List.find?_some found⟩
  · rintro ⟨mem, rfl⟩
    have some : (l.find? (key · == key a)).isSome :=
      List.find?_isSome.2 ⟨a, mem, beq_self_eq_true (key a)⟩
    obtain ⟨b, found⟩ := Option.isSome_iff_exists.1 some
    have same : key b = key a := by simpa using List.find?_some found
    rw [found, List.inj_on_of_nodup_map nodup (List.mem_of_find?_eq_some found) mem same]

/-! ### The registry -/

/-- The tables are one relation: the script side reads it both ways, and the host side tracks all of
it. -/
structure Registry.Coherent (g : Registry) : Prop where
  behind : g.behind = g.standIns.map Prod.swap
  handles : (g.standIns.map Prod.fst).Nodup
  ids : (g.standIns.map Prod.snd).Nodup
  tracked : ∀ p ∈ g.standIns, p.1 ∈ g.tracked

namespace Registry

theorem holds_of_mem {g : Registry} {p : Handle × ObjectId} (h : p ∈ g.standIns) :
    g.holds p.1 = true := by
  simpa [holds, standIn?] using ⟨p.2, h⟩

theorem standIns_track (g : Registry) (handle : Handle) :
    (g.track handle).standIns = g.standIns := by
  unfold track
  split <;> rfl

theorem behind_track (g : Registry) (handle : Handle) : (g.track handle).behind = g.behind := by
  unfold track
  split <;> rfl

/-- Forgetting spares the handles that have a stand-in. -/
theorem tracked_track {g : Registry} {handle : Handle}
    (h : ∀ p ∈ g.standIns, p.1 = handle ∨ p.1 ∈ g.tracked) :
    ∀ p ∈ g.standIns, p.1 ∈ (g.track handle).tracked := by
  intro p hp
  have kept : p.1 ∈ handle :: g.tracked := List.mem_cons.2 (h p hp)
  unfold track
  split
  · -- the host forgets handles now, but this one is held
    exact List.mem_filter.2 ⟨kept, holds_of_mem hp⟩
  · exact kept

namespace Coherent

variable {g : Registry}

theorem empty : Coherent {} := ⟨rfl, List.nodup_nil, List.nodup_nil, nofun⟩

theorem standIn?_eq_some_iff (c : g.Coherent) {handle : Handle} {id : ObjectId} :
    g.standIn? handle = some id ↔ (handle, id) ∈ g.standIns := by
  rw [standIn?, Option.map_eq_some_iff]
  simp only [find?_key_eq_some_iff c.handles]
  constructor
  · rintro ⟨⟨_, _⟩, ⟨mem, rfl⟩, rfl⟩
    exact mem
  · exact fun mem => ⟨(handle, id), ⟨mem, rfl⟩, rfl⟩

theorem identify?_eq_some_iff (c : g.Coherent) {handle : Handle} {id : ObjectId} :
    g.identify? id = some handle ↔ (handle, id) ∈ g.standIns := by
  have ids : (g.behind.map Prod.fst).Nodup := by
    rw [c.behind, List.map_map]
    exact c.ids
  rw [identify?, Option.map_eq_some_iff]
  simp only [find?_key_eq_some_iff ids]
  rw [c.behind]
  simp only [List.mem_map]
  constructor
  · rintro ⟨_, ⟨⟨⟨_, _⟩, mem, rfl⟩, rfl⟩, rfl⟩
    exact mem
  · exact fun mem => ⟨(id, handle), ⟨⟨(handle, id), mem, rfl⟩, rfl⟩, rfl⟩

/-- The two sides agree on which object stands for which handle. -/
theorem resolve?_eq_some_iff (c : g.Coherent) {handle : Handle} {id : ObjectId} :
    g.resolve? id = some handle ↔ g.standIn? handle = some id := by
  rw [resolve?, Option.filter_eq_some_iff, c.identify?_eq_some_iff, c.standIn?_eq_some_iff]
  exact ⟨fun h => h.1, fun h => ⟨h, List.contains_iff_mem.2 (c.tracked _ h)⟩⟩

theorem register (c : g.Coherent) {handle : Handle} {id : ObjectId}
    (freshHandle : g.standIn? handle = none) (freshId : id ∉ g.standIns.map Prod.snd) :
    (g.register handle id).Coherent := by
  have unknown : handle ∉ g.standIns.map Prod.fst := by
    intro h
    obtain ⟨p, hp, rfl⟩ := List.mem_map.1 h
    rw [c.standIn?_eq_some_iff.2 hp] at freshHandle
    cases freshHandle
  refine ⟨?_, ?_, ?_, ?_⟩
  · rw [Registry.register, behind_track, standIns_track, List.map_cons, c.behind]
    rfl
  · rw [Registry.register, standIns_track]
    exact List.nodup_cons.2 ⟨unknown, c.handles⟩
  · rw [Registry.register, standIns_track]
    exact List.nodup_cons.2 ⟨freshId, c.ids⟩
  · rw [Registry.register, standIns_track]
    refine tracked_track fun p hp => ?_
    cases List.mem_cons.1 hp with
    | inl h => exact .inl (h ▸ rfl)
    | inr h => exact .inr (c.tracked p h)

end Coherent

end Registry

/-! ### Runtimes -/

/-- Every registered object exists and stands for its handle, and no object is held under two
identities. -/
structure Engine.Coherent (e : Engine) : Prop where
  registry : e.registry.Coherent
  standsFor : ∀ handle id, e.registry.standIn? handle = some id →
    ∃ o, e.objects.get? id.index = some o ∧ o.kind.standsFor? = some handle
  held : e.held.Nodup

namespace Engine

theorem Coherent.fresh : Engine.fresh.Coherent := ⟨.empty, nofun, List.nodup_nil⟩

theorem Coherent.initial : Engine.Coherent {} := ⟨.empty, nofun, List.nodup_nil⟩

theorem Coherent.of_objects {e e' : Engine} (c : e.Coherent) (registry : e'.registry = e.registry)
    (held : e'.held = e.held) (h : ObjectHeap.Later e.objects e'.objects) : e'.Coherent := by
  refine ⟨registry ▸ c.registry, ?_, held ▸ c.held⟩
  intro handle id found
  rw [registry] at found
  obtain ⟨o, here, stands⟩ := c.standsFor handle id found
  obtain ⟨o', here', later⟩ := h id.index o here
  exact ⟨o', here', later.standsFor.trans stands⟩

theorem Coherent.expose {e : Engine} (c : e.Coherent) {handle : Handle} {o : Object}
    (fresh : e.registry.standIn? handle = none) (h : o.kind.standsFor? = some handle) :
    (e.expose handle o).Coherent := by
  have outside : (⟨e.objects.size⟩ : ObjectId) ∉ e.registry.standIns.map Prod.snd := by
    intro mem
    obtain ⟨p, hp, hid⟩ := List.mem_map.1 mem
    obtain ⟨q, here, _⟩ := c.standsFor p.1 p.2 (c.registry.standIn?_eq_some_iff.2 hp)
    rw [hid] at here
    simp [Arena.get?, Arena.size] at here
  refine ⟨c.registry.register fresh outside, ?_, c.held⟩
  intro other id found
  rw [Engine.expose, Registry.standIn?_register] at found
  by_cases hh : handle = other
  · rw [if_pos hh] at found
    cases found
    exact ⟨o, by rw [Engine.expose, Arena.get?_push, if_pos rfl], hh ▸ h⟩
  · rw [if_neg hh] at found
    obtain ⟨q, here, stands⟩ := c.standsFor other id found
    exact ⟨q, ObjectHeap.get?_push_of_some here o, stands⟩

end Engine

theorem EngineStep.coherent {e e' : Engine} (s : EngineStep e e') (c : e.Coherent) :
    e'.Coherent := by
  cases s with
  | objectAdded o _ => exact c.of_objects rfl rfl (ObjectHeap.later_push _ o)
  | objectChanged id o o' found h =>
    exact c.of_objects rfl rfl (ObjectHeap.later_set found h.later)
  | exposed handle o fresh h => exact c.expose fresh h
  | methodAdded proxy o s method code found h runs =>
    exact c.of_objects rfl rfl
      (EngineStep.methodAdded e proxy o s method code found h runs).later.objects
  | held id fresh =>
    refine ⟨c.registry, c.standsFor, ?_⟩
    exact List.nodup_append.2 ⟨c.held, List.nodup_singleton id, by
      rintro a ha b hb rfl
      exact fresh (List.mem_singleton.1 hb ▸ ha)⟩
  | raised error o _ => exact c.of_objects rfl rfl (ObjectHeap.later_push _ _)
  | symbolMade | jobQueued | jobTaken | recovered | rooted | dropped =>
    exact c.of_objects rfl rfl (.refl _)

theorem Engine.invariant_coherent : Engine.Invariant Engine.Coherent where
  initial := .initial
  fresh := .fresh
  step s c := s.coherent c
  entered c := c.of_objects rfl rfl (.refl _)
  left c := c.of_objects rfl rfl (.refl _)

/-- The tables agree at every moment of every execution. -/
theorem Reachable.coherent {w : World} (h : Reachable w) : w.engine.Coherent :=
  Engine.invariant_coherent.of_reachable h

theorem Reachable.stands {w : World} (h : Reachable w) {handle : Handle} {id : ObjectId}
    (found : w.engine.registry.standIn? handle = some id) : Stands w id handle :=
  h.coherent.standsFor handle id found

/-- While its runtime lives, a handle keeps its stand-in. -/
theorem Reaches.standIn?_eq {w w' : World} (run : Reaches w w') (live : w'.runtime = w.runtime)
    {handle : Handle} {id : ObjectId} (found : w.engine.registry.standIn? handle = some id) :
    w'.engine.registry.standIn? handle = some id :=
  (run.later live).standIns handle id found

/-! ### Crossing into the script -/

namespace Bridge

theorem expose_registers {ε : Type} (handle : Handle) (o : Object)
    (h : o.kind.standsFor? = some handle) (bare : o.kind.methods = []) (w : World) :
    ∃ id w', (Act.expose handle o h bare : Act ε _) w = (.value id, w') ∧
      w'.engine.registry.standIn? handle = some id ∧ w'.runtime = w.runtime := by
  cases found : w.engine.registry.standIn? handle with
  | some id => exact ⟨id, w, Act.expose_of_registered h bare found, found, rfl⟩
  | none =>
    refine ⟨_, _, Act.expose_of_new h bare found, ?_, rfl⟩
    exact (Registry.standIn?_register _ handle handle _).trans (if_pos rfl)

theorem newStandIn_registers (handle : Handle) (w : World) :
    ∃ id w', newStandIn handle w = (.value id, w') ∧
      w'.engine.registry.standIn? handle = some id ∧ w'.runtime = w.runtime := by
  unfold newStandIn
  cases handle with
  | sequence s =>
    have made : (Act.newObject emptyArray : HostAct _) w =
      (.value ⟨w.engine.objects.size⟩, _) := rfl
    simp only [Act.bind_of_value made]
    exact expose_registers _ _ _ _ _
  | plain p =>
    have made : (Act.newObject (.bare .ordinary Intrinsic.objectPrototype) : HostAct _) w =
      (.value ⟨w.engine.objects.size⟩, _) := rfl
    simp only [Act.bind_of_value made]
    exact expose_registers _ _ _ _ _
  | function f =>
    simp only [Act.read_bind]
    exact expose_registers _ _ _ _ _

/-- Crossing gives a handle its stand-in. -/
theorem standIn_registers (handle : Handle) (w : World) :
    ∃ id w', standIn handle w = (.value (.object id), w') ∧
      w'.engine.registry.standIn? handle = some id ∧ w'.runtime = w.runtime := by
  rw [standIn, standIn?, Act.read_bind]
  cases found : w.engine.registry.standIn? handle with
  | some id => exact ⟨id, w, rfl, found, rfl⟩
  | none =>
    obtain ⟨id, w', made, registered⟩ := newStandIn_registers handle w
    exact ⟨id, w', Act.bind_of_value made _, registered⟩

theorem registered_of_standIn {handle : Handle} {id : ObjectId} {w w' : World}
    (h : standIn handle w = (.value (.object id), w')) :
    w'.engine.registry.standIn? handle = some id ∧ w'.runtime = w.runtime := by
  obtain ⟨id', w₁, here, registered⟩ := standIn_registers handle w
  rw [h] at here
  cases here
  exact registered

theorem standIn_of_registered {handle : Handle} {id : ObjectId} {w : World}
    (h : w.engine.registry.standIn? handle = some id) :
    standIn handle w = (.value (.object id), w) := by
  rw [standIn, standIn?, Act.read_bind, h]
  rfl

theorem restore_of_live {what : String} {ref : ScriptRef} {w : World}
    (h : ref.runtime = w.runtime) : restore what ref w = (.value ref.object, w) := by
  rw [restore, Act.read_bind, if_pos h]
  rfl

end Bridge

/-- The reference in a value, if it holds one, belongs to the live runtime. -/
def Value.Live (w : World) : Value → Prop
  | .object ref | .function (.script ref _) => ref.runtime = w.runtime
  | _ => True

theorem Bridge.toScript_of_live {v : Value} {w : World} (live : v.Live w) :
    ∃ v' w', toScript v w = (.value v', w') := by
  have crosses (handle : Handle) : ∃ v' w', standIn handle w = (.value v', w') := by
    obtain ⟨id, w', here, _⟩ := standIn_registers handle w
    exact ⟨_, w', here⟩
  cases v with
  | undefined | null | bool | number | string | date | error => exact ⟨_, _, rfl⟩
  | sequence | plain => exact crosses _
  | function f =>
    cases f with
    | host => exact crosses _
    | script => exact ⟨_, w, Act.bind_of_value (restore_of_live live) _⟩
  | object => exact ⟨_, w, Act.bind_of_value (restore_of_live live) _⟩

end ScriptBridge
