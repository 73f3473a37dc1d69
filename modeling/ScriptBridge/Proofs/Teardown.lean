import ScriptBridge.Proofs.Identity
import ScriptBridge.Proofs.IndexView
import ScriptBridge.Proofs.PlainRuns

/-!
What a runtime leaves behind. However often it has forgotten references that the host let go of, it
knows all those that the host still has when it goes, and releases them: they fail wherever they are
used afterwards. Host containers stay as they are and cross into later runtimes.
-/

namespace ScriptBridge

/-! ### Known references -/

namespace Roots

/-- The runtime knows every reference that the host still has. -/
def Complete (g : Roots) : Prop := ∀ number < g.taken, g.holds number → number ∈ g.known

variable {g : Roots} {number : Nat}

theorem complete_empty : Complete {} := nofun

theorem mem_pruned (known : number ∈ g.known) (holds : g.holds number) : number ∈ g.pruned := by
  unfold pruned
  split
  · exact Array.mem_filter.2 ⟨known, holds⟩
  · exact known

theorem Complete.take (c : g.Complete) : g.take.Complete := by
  intro number taken holds
  -- the list is pruned before the new reference is put on it
  obtain before | rfl := Nat.lt_or_eq_of_le (Nat.le_of_lt_succ taken)
  · exact Array.mem_push_of_mem _ (mem_pruned (c number before holds) holds)
  · exact Array.mem_push_self

theorem Complete.drop (c : g.Complete) (dropped : Nat) : (g.drop dropped).Complete := by
  intro number taken holds
  have before : g.holds number := by
    simp_all [Roots.holds, Roots.drop]
  exact c number taken before

theorem Complete.mem_live (c : g.Complete) (taken : number < g.taken) (holds : g.holds number) :
    number ∈ g.live :=
  Array.mem_toList_iff.2 (Array.mem_filter.2 ⟨c number taken holds, holds⟩)

end Roots

theorem EngineStep.roots_complete {e e' : Engine} (s : EngineStep e e')
    (c : e.roots.Complete) : e'.roots.Complete := by
  cases s with
  | rooted => exact c.take
  | dropped number => exact c.drop number
  | objectAdded | objectChanged | symbolMade | jobQueued | jobTaken | exposed | methodAdded | held
  | raised | recovered =>
    exact c

theorem Engine.invariant_roots_complete : Engine.Invariant (·.roots.Complete) where
  initial := Roots.complete_empty
  fresh := Roots.complete_empty
  step s c := s.roots_complete c
  entered c := c
  left c := c

/-! ### Released references -/

/-- What was released stays so. -/
theorem Steps.released_subset {w w' : World} (h : Steps w w') : w.released ⊆ w'.released := by
  refine h.lift (R := fun w w' => w.released ⊆ w'.released) (fun _ => List.Subset.refl _)
    (fun h h' => List.Subset.trans h h') ?_ fun h => h
  intro w w' s
  cases s with
  | started => exact List.subset_append_right _ _
  | heap | engine | bound | logged | exited => exact List.Subset.refl _

theorem Reaches.released_subset {w w' : World} (h : Reaches w w') : w.released ⊆ w'.released := by
  induction h with
  | refl => exact List.Subset.refl _
  | run _ run ih => exact List.Subset.trans ih run.released_subset
  | entered _ ih | left _ ih => exact ih

theorem Bridge.restore_of_released {ref : ScriptRef} {w : World} (gone : ref.runtime ≠ w.runtime)
    (released : (ref.runtime, ref.number) ∈ w.released) (what : String) :
    restore what ref w = (.failure (.conversion (.released what)), w) := by
  rw [restore, Act.read_bind, if_neg gone, Act.read_bind,
    if_pos (List.contains_iff_mem.2 released)]
  rfl

/-- Wherever the host uses a reference, its runtime being gone, it fails. -/
structure Outlived (r : Reentry) (ref : ScriptRef) (w : World) : Prop where
  object : Bridge.toScript (.object ref) w =
    (.failure (.conversion (.released "script object")), w)
  function : ∀ name, Bridge.toScript (.function (.script ref name)) w =
    (.failure (.conversion (.released "script function")), w)
  call : ∀ name this args, Bridge.invoke r (.script ref name) this args w =
    (.failure (.conversion (.released "script function")), w)
  read : ∀ key, Bridge.property r (.object ref) key w =
    (.failure (.conversion (.released "script object")), w)
  write : ∀ key v, Bridge.setProperty r (.object ref) key v w =
    (.failure (.conversion (.released "script object")), w)

theorem outlived_of_released {r : Reentry} {ref : ScriptRef} {w : World}
    (gone : ref.runtime ≠ w.runtime) (released : (ref.runtime, ref.number) ∈ w.released) :
    Outlived r ref w := by
  have fails := Bridge.restore_of_released gone released
  exact {
    object := Act.bind_of_failure (fails _) _
    function := fun _ => Act.bind_of_failure (fails _) _
    call := fun _ _ _ => Act.bind_of_failure (fails _) _
    read := fun _ => Act.bind_of_failure (fails _) _
    write := fun _ _ => Act.bind_of_failure (fails _) _ }

/-- When its runtime goes, a reference that the host still has is among those released. -/
theorem Takes.outlived {r : Reentry} {refs : List ScriptRef} {ref : ScriptRef} {w later : World}
    (taken : Takes refs w) (mem : ref ∈ refs) (its : ref.runtime = w.runtime)
    (held : w.engine.roots.holds ref.number) (run : Reaches w.restarted later) :
    Outlived r ref later := by
  have live := (Engine.invariant_roots_complete.of_reachable taken.reachable).mem_live
    (taken.refers mem its).number held
  -- runtimes are counted upwards, so no later one is that of the reference
  have le := run.runtime_le
  rw [World.runtime_restarted] at le
  refine outlived_of_released (by omega) (run.released_subset ?_)
  rw [World.released_restarted, its]
  exact List.mem_append_left _ (List.mem_map_of_mem live)

/-! ### Teardown -/

/-- A sequence crosses, and is seen through its stand-in. -/
theorem Reachable.exposes_sequence {w : World} (h : Reachable w) (r : Reentry) (s : SequenceId) :
    ∃ xs w', Bridge.toScript (.sequence s) w = (.value (.object xs), w') ∧ w'.heap = w.heap ∧
      IndexView r xs s w' := by
  obtain ⟨xs, w', crosses, registered, _⟩ := Bridge.standIn_registers (.sequence s) w
  exact ⟨xs, w', crosses, (Bridge.objectsKept_toScript (v := .sequence s) crosses).heap,
    indexView_of_stands ((h.of_run crosses).stands registered)⟩

/-- A plain object crosses into a runtime that has not seen it, and is seen and written through its
stand-in. -/
theorem exposes_plain {w : World} (r : Reentry) {p : PlainId} (made : p.index < w.heap.plains.size)
    (fresh : w.engine.registry.standIn? (.plain p) = none) :
    ∃ id w', Bridge.toScript (.plain p) w = (.value (.object id), w') ∧ w'.heap = w.heap ∧
      MapView r id p w' ∧ MapUpdates r id p w' := by
  obtain ⟨id, w', crosses, _⟩ := Bridge.standIn_registers (.plain p) w
  obtain ⟨heap, shows⟩ := shows_of_exposed made fresh crosses
  exact ⟨id, w', crosses, heap, mapView_of_fronts shows.fronts, mapUpdates_of_fronts shows.fronts⟩

/-- What a runtime leaves behind, as it is found later on. -/
structure LeavesBehind (r : Reentry) (refs : List ScriptRef) (w w' : World) : Prop where
  heap : w'.heap = w.heap
  references : ∀ ref ∈ refs, ref.runtime = w.runtime → w.engine.roots.holds ref.number →
    ∀ later, Reaches w' later → Outlived r ref later
  sequences : ∀ s later, Reaches w' later → ∃ xs w₁,
    Bridge.toScript (.sequence s) later = (.value (.object xs), w₁) ∧ w₁.heap = later.heap ∧
      IndexView r xs s w₁
  plains : ∀ (p : PlainId) later, p.index < w.heap.plains.size → Reaches w' later →
    later.engine.registry.standIn? (.plain p) = none → ∃ id w₁,
      Bridge.toScript (.plain p) later = (.value (.object id), w₁) ∧ w₁.heap = later.heap ∧
        MapView r id p w₁ ∧ MapUpdates r id p w₁

/-- When a runtime goes, every reference that the host still has fails from then on, in whatever
runtime it is used, and all host containers stay as they are and can cross again. -/
theorem teardown_releases_references (r : Reentry) {refs : List ScriptRef} {w w' : World}
    (taken : Takes refs w) (idle : w.engine.depth = 0)
    (gone : (Act.restart : HostAct Unit) w = (.value (), w')) :
    LeavesBehind r refs w w' ∧ ∀ what,
      (Error.conversion (.released what)).scriptName = "ReferenceError" ∧
      (Error.conversion (.released what)).message = what ++ " outlived its script runtime" := by
  rw [Act.restart_of_idle idle] at gone
  obtain rfl : w.restarted = w' := congrArg Prod.snd gone
  have reachable {later : World} (run : Reaches w.restarted later) : Reachable later :=
    taken.reachable.of_reaches ((Steps.single (.started w idle)).reaches.trans run)
  refine ⟨?_, fun _ => ⟨rfl, rfl⟩⟩
  exact {
    heap := w.heap_restarted
    references := fun _ mem its held _ run => taken.outlived mem its held run
    sequences := fun s later run => (reachable run).exposes_sequence r s
    plains := fun p later made run fresh => by
      have le := run.plains_le
      rw [World.heap_restarted] at le
      exact exposes_plain r (by omega) fresh }

/-- The first reference that the first runtime gives to the host. -/
def ScriptRef.first : ScriptRef := ⟨1, 1, 0, Intrinsic.globalObject⟩

def World.first : World := { engine := .fresh, runtime := 1 }

/-- The host keeps the first reference in a sequence, while so many others come and go that the
runtime forgets some. -/
def World.crowded : World :=
  ((do
    let _ ← Act.newSequence [.object .first, .null]
    Act.forEach (fun _ => do Act.letGo (← Bridge.hold Intrinsic.globalObject))
      (List.range Registry.pruneInterval) : HostAct Unit)
    (Bridge.hold Intrinsic.globalObject .first).2).2

theorem teardown_releases_references_after_forgetting :
    Outlived Session.top .first World.crowded.restarted ∧
    World.crowded.restarted.heap.sequence ⟨0⟩ = [.object .first, .null] ∧
    ∃ xs w, Bridge.toScript (.sequence ⟨0⟩) World.crowded.restarted = (.value (.object xs), w) ∧
      IndexView Session.top xs ⟨0⟩ w := by
  have reachable : Reachable .first :=
    .of_reaches .initial (Steps.single (.started {} rfl)).reaches
  have holds : Bridge.hold Intrinsic.globalObject .first =
    (.value .first, (Bridge.hold Intrinsic.globalObject .first).2) := rfl
  have taken : Takes [.first] World.crowded :=
    ((Takes.start reachable).take _ holds).later (Act.steps _ _).reaches
  have idle : World.crowded.engine.depth = 0 := by decide +kernel
  have held : World.crowded.engine.roots.holds ScriptRef.first.number := by decide +kernel
  have live : ScriptRef.first.runtime = World.crowded.runtime := by decide +kernel
  obtain ⟨left, _⟩ := teardown_releases_references Session.top taken idle
    (Act.restart_of_idle idle)
  obtain ⟨xs, w, crosses, _, view⟩ := left.sequences ⟨0⟩ _ (.refl _)
  refine ⟨left.references .first (.head _) live held _ (.refl _), ?_, xs, w, crosses, view⟩
  rw [left.heap]
  decide +kernel

end ScriptBridge
