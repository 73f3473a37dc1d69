import ScriptBridge.Proofs.PlainRuns
import ScriptBridge.Session

/-!
A plain object is one ordered map for host and script. Over every run without accessors the keys
stand in the order in which they were first written, each with the value written last, and this is
what a script sees through the stand-in.
-/

namespace ScriptBridge

/-! ### What steps make of keys and values -/

namespace OwnEvent

def key? : OwnEvent → Option String
  | .written k _ | .removed k => some k
  | .defined .. => none

/-- The keys after a step: a new one comes last, one that is there keeps its place. -/
def keysAfter (keys : List String) : OwnEvent → List String
  | .written k _ => if k ∈ keys then keys else keys ++ [k]
  | .removed k => keys.erase k
  | .defined .. => keys

/-- The value under a key after a step. -/
def valueAfter (k : String) (old : Option Value) : OwnEvent → Option Value
  | .written k' v => if k' = k then some v else old
  | .removed k' => if k' = k then none else old
  | .defined .. => old

theorem valueAfter_of_other {event : OwnEvent} {k : String} (other : event.key? ≠ some k)
    (old : Option Value) : valueAfter k old event = old := by
  cases event with
  | written k' | removed k' =>
    have apart : k' ≠ k := fun same => other (congrArg some same)
    exact if_neg apart
  | defined => rfl

theorem foldl_valueAfter_of_others {events : List OwnEvent} {k : String}
    (others : ∀ event ∈ events, event.key? ≠ some k) (old : Option Value) :
    events.foldl (valueAfter k) old = old := by
  induction events with
  | nil => rfl
  | cons event rest ih =>
    rw [List.foldl_cons, valueAfter_of_other (others event List.mem_cons_self)]
    exact ih fun event mem => others event (List.mem_cons_of_mem _ mem)

end OwnEvent

namespace OwnState

theorem keys_after (s : OwnState) (events : List OwnEvent) :
    (s.after events).entries.keys = events.foldl OwnEvent.keysAfter s.entries.keys := by
  induction events generalizing s with
  | nil => rfl
  | cons event rest ih =>
    have step : (s.apply event).entries.keys = OwnEvent.keysAfter s.entries.keys event := by
      cases event with
      | written k v => exact Entries.keys_insert _ _ _
      | removed k => exact Entries.keys_erase _ _
      | defined => rfl
    rw [List.foldl_cons, ← step]
    exact ih (s.apply event)

theorem get?_after (s : OwnState) (events : List OwnEvent) (k : String) :
    (s.after events).entries.get? k =
      events.foldl (OwnEvent.valueAfter k) (s.entries.get? k) := by
  induction events generalizing s with
  | nil => rfl
  | cons event rest ih =>
    have step : (s.apply event).entries.get? k =
        OwnEvent.valueAfter k (s.entries.get? k) event := by
      cases event with
      | written k' v => exact Entries.get?_insert _ _ _ _
      | removed k' => exact Entries.get?_erase _ _ _
      | defined => rfl
    rw [List.foldl_cons, ← step]
    exact ih (s.apply event)

/-- Only definitions of accessors put something on the hidden object. -/
theorem accessors_after {s : OwnState} {events : List OwnEvent}
    (named : ∀ event ∈ events, event.key?.isSome) : (s.after events).accessors = s.accessors := by
  induction events generalizing s with
  | nil => rfl
  | cons event rest ih =>
    have step : (s.apply event).accessors = s.accessors := by
      cases event with
      | written | removed => rfl
      | defined => cases named _ List.mem_cons_self
    rw [← step]
    exact ih fun event mem => named event (List.mem_cons_of_mem _ mem)

end OwnState

/-! ### The map -/

/-- The entries after a run, by the entries before and the steps in between. -/
structure MapHistory (entries : Entries String Value) (events : List OwnEvent)
    (last : Entries String Value) : Prop where
  keys : last.keys = events.foldl OwnEvent.keysAfter entries.keys
  values : ∀ k, last.get? k = events.foldl (OwnEvent.valueAfter k) (entries.get? k)
  /-- A write is read back until the next step under its key. -/
  readBack : ∀ before k v rest, events = before ++ .written k v :: rest →
    (∀ event ∈ rest, event.key? ≠ some k) → last.get? k = some v
  gone : ∀ before k rest, events = before ++ .removed k :: rest →
    (∀ event ∈ rest, event.key? ≠ some k) → k ∉ last.keys
  moved : ∀ before k v, events = before ++ [.removed k, .written k v] →
    last.keys = (before.foldl OwnEvent.keysAfter entries.keys).erase k ++ [k]

theorem mapHistory_after (s : OwnState) (events : List OwnEvent) :
    MapHistory s.entries events (s.after events).entries where
  keys := s.keys_after events
  values := s.get?_after events
  readBack before k v rest taken others := by
    rw [s.get?_after, taken, List.foldl_append, List.foldl_cons,
      OwnEvent.foldl_valueAfter_of_others others]
    exact if_pos rfl
  gone before k rest taken others := by
    rw [← Entries.get?_eq_none_iff, s.get?_after, taken, List.foldl_append, List.foldl_cons,
      OwnEvent.foldl_valueAfter_of_others others]
    exact if_pos rfl
  moved before k v taken := by
    -- the removal makes the key a new one, which the write puts last
    have once : k ∉ (before.foldl OwnEvent.keysAfter s.entries.keys).erase k := by
      rw [← s.keys_after before]
      exact (s.after before).entries.nodup_keys.not_mem_erase
    rw [s.keys_after, taken, List.foldl_append]
    exact if_neg once

/-- A plain object is one ordered map for host and script: over every run without accessors the
entries are what the steps of both sides, in the order they were taken, made of them; a script sees
them through the stand-in and writes them through it; and reading them changes nothing, functions
called aside. -/
theorem plain_object_is_one_map (r : Reentry) {w₀ w₁ w : World} {id : ObjectId} {p : PlainId}
    {events : List OwnEvent} (made : p.index < w₀.heap.plains.size)
    (fresh : w₀.engine.registry.standIn? (.plain p) = none)
    (exposed : Bridge.standIn (.plain p) w₀ = (.value (.object id), w₁))
    (run : PlainRun r id p w₁ events w) (named : ∀ event ∈ events, event.key?.isSome) :
    MapHistory (w₀.heap.plain p) events (w.heap.plain p) ∧ MapView r id p w ∧
      MapUpdates r id p w ∧ ∀ key, (Script.get r id key).Within (.besides r (Aside id p)) := by
  let s₀ : OwnState := { entries := w₀.heap.plain p }
  have shows : Shows w id p (s₀.after events) := run.shows (shows_of_exposed made fresh exposed).2
  have blank : (s₀.after events).hidden = .blank := by
    rw [OwnState.hidden, OwnState.accessors_after named]
    rfl
  have fronts := shows.fronts
  rw [blank] at fronts
  refine ⟨?_, mapView_of_fronts fronts, mapUpdates_of_fronts fronts, fun key => ?_⟩
  · rw [shows.entries]
    exact mapHistory_after s₀ events
  · exact .bind (.read _) fun _ => Script.getFrom_within _ _ _ _

/-- Host and script take turns; the script sees the keys in the order in which they were written,
whatever they look like. -/
theorem plain_object_is_one_map_taking_turns :
    let w₀ : World := ((Act.newPlain .empty : HostAct _) { engine := .fresh, runtime := 1 }).2
    ∃ id w₁, Bridge.standIn (.plain ⟨0⟩) w₀ = (.value (.object id), w₁) ∧
      let w₂ := (Act.setEntry (ε := Error) ⟨0⟩ "2" .null w₁).2
      let w₃ := (Script.set Session.top id (.ofString "toString") (.bool true) w₂).2
      let w₄ := (Script.delete id (.ofString "2") w₃).2
      let w₅ := (Act.setEntry (ε := Error) ⟨0⟩ "2" .null w₄).2
      let w := (Script.define Session.top id (.ofString "1") (.value .null) w₅).2
      Script.ownKeys id w = (.value [.ofString "toString", .ofString "2", .ofString "1"], w) ∧
      ∃ w', Script.get Session.top id (.ofString "toString") w = (.value (.bool true), w') := by
  intro w₀
  obtain ⟨id, w₁, exposed, _⟩ := Bridge.standIn_registers (.plain ⟨0⟩) w₀
  refine ⟨id, w₁, exposed, ?_⟩
  intro w₂ w₃ w₄ w₅ w
  have named (k : String) : Script.plainKey? (.ofString k) = some k := Script.plainKey?_ofString k
  have turns : PlainRun Session.top id ⟨0⟩ w₁ [.written "2" .null, .written "toString" (.bool true),
      .removed "2", .written "2" .null] w₅ := by
    have first : PlainRun Session.top id ⟨0⟩ w₁ [.written "2" .null] w₂ :=
      .hostWrote (.refl w₁) "2" .null
    have second : PlainRun Session.top id ⟨0⟩ w₁
        [.written "2" .null, .written "toString" (.bool true)] w₃ :=
      .wrote (x := .bool true) first (named _) .assign rfl (.refl w₂)
    exact .hostWrote (.deleted second (named "2")) "2" .null
  have run : PlainRun Session.top id ⟨0⟩ w₁ [.written "2" .null, .written "toString" (.bool true),
      .removed "2", .written "2" .null, .written "1" .null] w :=
    .wrote (x := .null) turns (named "1") .define rfl (.refl w₅)
  obtain ⟨history, view, _⟩ := plain_object_is_one_map Session.top (by decide) rfl exposed run
    (by decide)
  have keys : (w.heap.plain ⟨0⟩).keys = ["toString", "2", "1"] := history.keys.trans (by decide)
  have value : (w.heap.plain ⟨0⟩).get? "toString" = some (.bool true) :=
    (history.values "toString").trans (by decide)
  have listed := view.keys
  rw [keys] at listed
  refine ⟨listed, ?_⟩
  obtain ⟨v', w', crossed, reads, _⟩ := view.read "toString" (.bool true) value trivial
  have same : .value (.bool true) = Outcome.value v' := congrArg Prod.fst crossed
  cases same
  exact ⟨w', reads⟩

/-- A reference that outlived its runtime keeps `Object.keys` from listing the key it stands
under. -/
theorem released_reference_stops_listing :
    let w₀ := ((do
      Act.restart
      let ref ← Bridge.hold Intrinsic.globalObject
      Act.restart
      Act.newPlain (Entries.empty.insert "k" (.object ref)) : HostAct PlainId) {}).2
    let id : ObjectId := ⟨w₀.engine.objects.size + 1⟩
    let w₁ := (Bridge.standIn (.plain ⟨0⟩) w₀).2
    (Bridge.standIn (.plain ⟨0⟩) w₀).1 = .value (.object id) ∧
    (w₁.heap.plain ⟨0⟩).keys = ["k"] ∧
    (Script.listedKeys id w₁).1 = .failure (.object ⟨w₁.engine.objects.size⟩) := by
  decide +kernel

end ScriptBridge
