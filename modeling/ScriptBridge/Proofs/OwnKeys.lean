import ScriptBridge.Proofs.PlainRuns
import ScriptBridge.Session
import Mathlib.Data.List.Nodup

/-!
Own keys of the stand-in of a plain object. Its own properties live in two places, the entries of
the plain object and a hidden object for accessors; the engine lists them as long as no key is in
both.
-/

namespace ScriptBridge

/-! ### Listing order -/

namespace PropertyKey

theorem map_index_filterMap (keys : List PropertyKey) :
    (keys.filterMap (·.index?)).map .index = keys.filter (·.isIndex) := by
  induction keys with
  | nil => rfl
  | cons key rest ih =>
    cases key with
    | index n =>
      have first : (index n).index? = some n := rfl
      rw [List.filterMap_cons_some first, List.map_cons, ih, List.filter_cons_of_pos rfl]
    | name | symbol =>
      rw [List.filterMap_cons_none rfl, ih, List.filter_cons_of_neg Bool.false_ne_true]

theorem kinds_perm (keys : List PropertyKey) :
    (keys.filter (·.isIndex) ++ keys.filter (·.isName) ++ keys.filter (·.isSymbol)).Perm keys := by
  induction keys with
  | nil => rfl
  | cons key rest ih =>
    cases key with
    | index n =>
      rw [List.filter_cons_of_pos rfl, List.filter_cons_of_neg Bool.false_ne_true,
        List.filter_cons_of_neg Bool.false_ne_true]
      exact ih.cons _
    | name t =>
      rw [List.filter_cons_of_neg Bool.false_ne_true, List.filter_cons_of_pos rfl,
        List.filter_cons_of_neg Bool.false_ne_true, List.append_assoc]
      rw [List.append_assoc] at ih
      exact List.perm_middle.trans (ih.cons _)
    | symbol s =>
      rw [List.filter_cons_of_neg Bool.false_ne_true, List.filter_cons_of_neg Bool.false_ne_true,
        List.filter_cons_of_pos rfl]
      exact List.perm_middle.trans (ih.cons _)

end PropertyKey

/-- Listing only orders the own keys. -/
theorem Object.ownKeys_perm (o : Object) : o.ownKeys.Perm o.properties.keys := by
  have indices := (List.mergeSort_perm (o.properties.keys.filterMap (·.index?)) (· ≤ ·)).map
    PropertyKey.index
  rw [PropertyKey.map_index_filterMap] at indices
  exact ((indices.append_right _).append_right _).trans (PropertyKey.kinds_perm _)

theorem Object.mem_ownKeys {o : Object} {key : PropertyKey} :
    key ∈ o.ownKeys ↔ (o.properties.get? key).isSome := by
  rw [o.ownKeys_perm.mem_iff, Entries.isSome_get?_iff]

/-! ### Keys in one place -/

namespace OwnState

/-- No key is both that of an entry and that of an accessor. -/
def Apart (s : OwnState) : Prop := ∀ k ∈ s.entries.keys, s.accessors.get? (.ofString k) = none

/-- The own keys as the stand-in lists them. -/
def keyList (s : OwnState) : List PropertyKey :=
  s.entries.keys.map .ofString ++ s.hidden.ownKeys

theorem mem_hidden_ownKeys {s : OwnState} {key : PropertyKey} :
    key ∈ s.hidden.ownKeys ↔ (s.accessors.get? key).isSome :=
  Object.mem_ownKeys

theorem nodup_keyList_iff (s : OwnState) : s.keyList.Nodup ↔ s.Apart := by
  have entries := nodup_map_ofString s.entries.nodup_keys
  have accessors := s.hidden.ownKeys_perm.nodup_iff.2 s.accessors.nodup_keys
  rw [keyList, List.nodup_append]
  constructor
  · rintro ⟨_, _, apart⟩ k mem
    by_contra both
    have listed := mem_hidden_ownKeys.2 (Option.isSome_iff_ne_none.2 both)
    exact apart _ (List.mem_map_of_mem mem) _ listed rfl
  · intro apart
    refine ⟨entries, accessors, ?_⟩
    rintro key entry _ listed rfl
    obtain ⟨k, mem, rfl⟩ := List.mem_map.1 entry
    have both := mem_hidden_ownKeys.1 listed
    rw [apart k mem] at both
    cases both

end OwnState

/-- A step that leaves every key in one place: no accessor is defined over an entry, and nothing is
written or removed under the key of an accessor. -/
def OwnEvent.Tidy (s : OwnState) : OwnEvent → Prop
  | .written k _ | .removed k => s.accessors.get? (.ofString k) = none
  | .defined key _ => ∀ k, key = .ofString k → k ∉ s.entries.keys

/-- Every step of a run is tidy where it is taken. -/
def OwnState.Tidy (s : OwnState) : List OwnEvent → Prop
  | [] => True
  | event :: rest => event.Tidy s ∧ (s.apply event).Tidy rest

namespace OwnState

theorem Apart.apply {s : OwnState} (apart : s.Apart) {event : OwnEvent} (tidy : event.Tidy s) :
    (s.apply event).Apart := by
  cases event with
  | written k v =>
    intro k' mem
    obtain rfl | mem := (Entries.mem_keys_insert _ _ _ _).1 mem
    · exact tidy
    · exact apart k' mem
  | removed k =>
    intro k' mem
    rw [OwnState.apply, Entries.keys_erase] at mem
    exact apart k' (List.mem_of_mem_erase mem)
  | defined key f =>
    intro k mem
    have other : key ≠ .ofString k := fun same => tidy k same mem
    exact (Entries.get?_insert_of_ne _ other _).trans (apart k mem)

/-- Tidy runs leave every key in one place. -/
theorem Apart.after {s : OwnState} (apart : s.Apart) {events : List OwnEvent}
    (tidy : s.Tidy events) : (s.after events).Apart := by
  induction events generalizing s with
  | nil => exact apart
  | cons event rest ih => exact ih (apart.apply tidy.1) tidy.2

theorem apart_entries (entries : Entries String Value) : Apart { entries } :=
  fun _ _ => Entries.get?_empty _

end OwnState

/-! ### What a script is told -/

/-- What a script is told of the own keys of an object agrees: they are listed once, described
exactly if listed, and those of entries are enumerated. -/
structure OwnKeysCohere (w : World) (id : ObjectId) (p : PlainId) (keys : List PropertyKey) :
    Prop where
  listed : Script.ownKeys id w = (.value keys, w)
  once : keys.Nodup
  described : ∀ key : PropertyKey, key.WellFormed →
    (key ∉ keys ↔ Script.ownProperty? id key w = (.value none, w))
  present : w.HoldsLive p → ∀ key ∈ keys,
    ∃ property w', Script.ownProperty? id key w = (.value (some property), w')
  enumerated : w.HoldsLive p → ∃ w',
    Script.listedKeys id w = (.value (keys.filter fun key => (w.valueAt? p key).isSome), w')

namespace Shows

variable {w : World} {id : ObjectId} {p : PlainId} {s : OwnState}

theorem ownKeyList_eq (h : Shows w id p s) : w.ownKeyList p s.hidden = s.keyList := by
  rw [World.ownKeyList, h.entries, OwnState.keyList]

theorem ownKeys_of_apart (h : Shows w id p s) (apart : s.Apart) :
    Script.ownKeys id w = (.value s.keyList, w) := by
  have nodup := s.nodup_keyList_iff.2 apart
  rw [← h.ownKeyList_eq] at nodup ⊢
  exact Script.ownKeys_of_nodup h.fronts nodup

theorem ownKeys_of_not_apart (h : Shows w id p s) (both : ¬s.Apart) :
    Script.ownKeys id w = Act.throwType "proxy: duplicate property" w := by
  rw [← s.nodup_keyList_iff, ← h.ownKeyList_eq] at both
  exact Script.ownKeys_of_not_nodup h.fronts both

theorem of_mem_keyList (h : Shows w id p s) {key : PropertyKey} (listed : key ∈ s.keyList) :
    (w.valueAt? p key).isSome ∨ (s.accessors.get? key).isSome := by
  rw [OwnState.keyList, List.mem_append, OwnState.mem_hidden_ownKeys, List.mem_map] at listed
  refine listed.imp_left fun entry => ?_
  obtain ⟨k, mem, rfl⟩ := entry
  rw [World.valueAt?_ofString, h.entries]
  exact (Entries.isSome_get?_iff _ _).2 mem

theorem mem_keyList_iff (h : Shows w id p s) {key : PropertyKey} (wellFormed : key.WellFormed) :
    key ∈ s.keyList ↔ (w.valueAt? p key).isSome ∨ (s.accessors.get? key).isSome := by
  refine ⟨h.of_mem_keyList, fun own => ?_⟩
  rw [OwnState.keyList, List.mem_append, OwnState.mem_hidden_ownKeys, List.mem_map]
  refine own.imp_left fun some => ?_
  obtain ⟨v, own⟩ := Option.isSome_iff_exists.1 some
  obtain ⟨k, named, there⟩ := Option.bind_eq_some_iff.1 own
  rw [h.entries] at there
  exact ⟨k, (Entries.isSome_get?_iff _ _).1 (by rw [there]; rfl),
    (Script.eq_ofString_of_plainKey? wellFormed named).symm⟩

/-- Accessors are not enumerable. -/
theorem lists_eq (h : Shows w id p s) (key : PropertyKey) :
    w.lists p s.hidden key = (w.valueAt? p key).isSome := by
  have hiddenStill : ((s.hidden.properties.get? key).map (·.enumerable)).getD false = false := by
    cases was : s.hidden.properties.get? key with
    | none => rfl
    | some property =>
      obtain ⟨f, rfl⟩ := h.only key property was
      rfl
  rw [World.lists, hiddenStill, Bool.or_false]
  cases key with
  | symbol => rfl
  | index | name => exact Bool.true_and _

theorem ownProperty?_ne_none (h : Shows w id p s) {key : PropertyKey} {w' : World}
    (own : (w.valueAt? p key).isSome) : Script.ownProperty? id key w ≠ (.value none, w') := by
  obtain ⟨v, own⟩ := Option.isSome_iff_exists.1 own
  rw [Script.ownProperty?_eq_of_entry h.fronts own]
  intro gives
  obtain ⟨v', w₁, _, last⟩ := Act.of_bind_value gives
  cases last

theorem ownKeysCohere (h : Shows w id p s) (apart : s.Apart) :
    OwnKeysCohere w id p s.keyList where
  listed := h.ownKeys_of_apart apart
  once := s.nodup_keyList_iff.2 apart
  described key wellFormed := by
    rw [h.mem_keyList_iff wellFormed]
    cases own : w.valueAt? p key with
    | none =>
      rw [Script.ownProperty?_of_no_entry h.fronts own]
      simp [OwnState.hidden]
    | some v =>
      have never : Script.ownProperty? id key w ≠ (.value none, w) :=
        h.ownProperty?_ne_none (by rw [own]; rfl)
      simp [never]
  present live key mem := by
    obtain ⟨found, w', asked, _, absent, _⟩ := Script.ownProperty?_of_live (E := .crossing)
      Bridge.toScript_within h.fronts live key
    cases found with
    | some property => exact ⟨property, w', asked⟩
    | none =>
      obtain ⟨noEntry, noAccessor⟩ := absent.1 rfl
      have own := h.of_mem_keyList mem
      rw [noEntry] at own
      cases own with
      | inl entry => cases entry
      | inr accessor =>
        have none : s.accessors.get? key = none := noAccessor
        rw [none] at accessor
        cases accessor
  enumerated live := by
    have nodup := s.nodup_keyList_iff.2 apart
    rw [← h.ownKeyList_eq] at nodup
    obtain ⟨w', lists, _⟩ := Script.listedKeys_of_nodup (E := .crossing) Bridge.toScript_within
      (fun kept => kept) h.fronts nodup live
    have same : w.lists p s.hidden = fun key => (w.valueAt? p key).isSome := funext h.lists_eq
    rw [h.ownKeyList_eq, same] at lists
    exact ⟨w', lists⟩

/-- A deletion takes away the entry and leaves an accessor. -/
theorem ownKeys_of_deleted (h : Shows w id p s) (apart : s.Apart) {key : PropertyKey} {k : String}
    (wellFormed : key.WellFormed) (named : Script.plainKey? key = some k)
    (noAccessor : s.accessors.get? key = none) : ∃ w', Script.delete id key w = (.value (), w') ∧
      Script.ownKeys id w' = (.value (s.keyList.erase key), w') ∧
      Script.ownProperty? id key w' = (.value none, w') := by
  obtain rfl := Script.eq_ofString_of_plainKey? wellFormed named
  have after := h.removed k
  refine ⟨_, Script.delete_of_named h.fronts named, ?_, ?_⟩
  · have apart' : (s.apply (.removed k)).Apart := apart.apply noAccessor
    have unlisted : .ofString k ∉ s.hidden.ownKeys := by
      rw [OwnState.mem_hidden_ownKeys, noAccessor]
      exact Bool.false_ne_true
    -- erasing the key from the list erases the entry, since no accessor stands under it
    have keys : (s.apply (.removed k)).keyList = s.keyList.erase (.ofString k) := by
      rw [OwnState.keyList, OwnState.keyList, OwnState.apply, Entries.keys_erase,
        List.map_erase fun _ _ => PropertyKey.ofString_injective, List.erase_append]
      split
      · rfl
      · rename_i missing
        rw [List.erase_of_not_mem missing, List.erase_of_not_mem unlisted]
        rfl
    rw [← keys]
    exact after.ownKeys_of_apart apart'
  · have gone : World.valueAt? (Act.removeEntry (ε := Error) p k w).2 p (.ofString k) = none := by
      rw [World.valueAt?_ofString, after.entries]
      exact Entries.get?_erase_self _ _
    rw [Script.ownProperty?_of_no_entry after.fronts gone]
    exact congrArg (fun found => (Outcome.value found, _)) noAccessor

end Shows

/-- The own keys of a stand-in cohere over every tidy run from its first crossing on; the engine
lists them exactly as long as no key is in two places. -/
theorem own_keys_cohere (r : Reentry) {w₀ w₁ w : World} {id : ObjectId} {p : PlainId}
    {events : List OwnEvent} (made : p.index < w₀.heap.plains.size)
    (fresh : w₀.engine.registry.standIn? (.plain p) = none)
    (exposed : Bridge.standIn (.plain p) w₀ = (.value (.object id), w₁))
    (run : PlainRun r id p w₁ events w) :
    let s₀ : OwnState := { entries := w₀.heap.plain p }
    let s := s₀.after events
    ((∃ keys, Script.ownKeys id w = (.value keys, w)) ↔ s.Apart) ∧
    (s₀.Tidy events → OwnKeysCohere w id p s.keyList ∧
      ∀ (key : PropertyKey) (k : String), key.WellFormed → Script.plainKey? key = some k →
        (OwnEvent.removed k).Tidy s → ∃ w', Script.delete id key w = (.value (), w') ∧
          Script.ownKeys id w' = (.value (s.keyList.erase key), w') ∧
          Script.ownProperty? id key w' = (.value none, w')) := by
  intro s₀ s
  have shows : Shows w id p s := run.shows (shows_of_exposed made fresh exposed).2
  refine ⟨⟨?_, fun apart => ⟨_, shows.ownKeys_of_apart apart⟩⟩, fun tidy => ?_⟩
  · rintro ⟨keys, lists⟩
    by_contra both
    rw [shows.ownKeys_of_not_apart both] at lists
    cases lists
  · have apart : s.Apart := (OwnState.apart_entries _).after tidy
    refine ⟨shows.ownKeysCohere apart, fun key k wellFormed named noAccessor => ?_⟩
    rw [OwnEvent.Tidy, ← Script.eq_ofString_of_plainKey? wellFormed named] at noAccessor
    exact shows.ownKeys_of_deleted apart wellFormed named noAccessor

/-- With an accessor under one key and an entry under another, both are listed. -/
theorem own_keys_cohere_accessor_then_entry :
    let w₀ : World := ((Act.newPlain .empty : HostAct _) { engine := .fresh, runtime := 1 }).2
    let a : PropertyKey := .ofString "a"
    let b : PropertyKey := .ofString "b"
    ∃ id w₁, Bridge.standIn (.plain ⟨0⟩) w₀ = (.value (.object id), w₁) ∧
      let w₂ := (Script.define Session.top id a (.getter Intrinsic.functionPrototype) w₁).2
      let w := (Script.set Session.top id b .null w₂).2
      Script.ownKeys id w = (.value [b, a], w) ∧ ∃ w', Script.delete id b w = (.value (), w') ∧
        Script.ownKeys id w' = (.value [a], w') := by
  intro w₀ a b
  obtain ⟨id, w₁, exposed, _⟩ := Bridge.standIn_registers (.plain ⟨0⟩) w₀
  refine ⟨id, w₁, exposed, ?_⟩
  intro w₂ w
  let s₀ : OwnState := { entries := .empty }
  let f := Intrinsic.functionPrototype
  have run : PlainRun Session.top id ⟨0⟩ w₁ [.defined a f, .written "b" .null] w :=
    .wrote (.getterDefined (.refl w₁) a f) (Script.plainKey?_ofString "b") .assign rfl (.refl w₂)
  have free : (Entries.empty.insert a (Property.getter f)).get? b = none := by decide
  have tidy : s₀.Tidy [.defined a f, .written "b" .null] :=
    ⟨fun _ _ => List.not_mem_nil, free, trivial⟩
  obtain ⟨coherent, deletion⟩ :=
    (own_keys_cohere Session.top (by decide) rfl exposed run).2 tidy
  let s := s₀.after [.defined a f, .written "b" .null]
  have keys : s.keyList = [b, a] := by decide +kernel
  have left : s.keyList.erase b = [a] := by rw [keys, List.erase_cons_head]
  obtain ⟨w', deletes, lists, _⟩ :=
    deletion b "b" (.inr ⟨"b", rfl⟩) (Script.plainKey?_ofString "b") free
  exact ⟨coherent.listed.trans (congrArg (fun l => (Outcome.value l, w)) keys), w', deletes,
    lists.trans (congrArg (fun l => (Outcome.value l, w')) left)⟩

/-- An entry under the key of an accessor makes the engine refuse to list the own keys, and deleting
an accessor leaves it in place. -/
theorem accessor_shares_key_with_entry :
    let w₀ : World := ((Act.newPlain .empty : HostAct _) { engine := .fresh, runtime := 1 }).2
    let k : PropertyKey := .ofString "k"
    ∃ id w₁, Bridge.standIn (.plain ⟨0⟩) w₀ = (.value (.object id), w₁) ∧
      let w₂ := (Script.define Session.top id k (.getter Intrinsic.functionPrototype) w₁).2
      let w := (Script.set Session.top id k .null w₂).2
      let w' := (Script.delete id k w₂).2
      Script.ownKeys id w = Act.throwType "proxy: duplicate property" w ∧
      Script.delete id k w₂ = (.value (), w') ∧ Script.ownKeys id w' = (.value [k], w') := by
  intro w₀ k
  obtain ⟨id, w₁, exposed, _⟩ := Bridge.standIn_registers (.plain ⟨0⟩) w₀
  refine ⟨id, w₁, exposed, ?_⟩
  intro w₂ w w'
  have start := (shows_of_exposed (by decide) rfl exposed).2
  have named : Script.plainKey? k = some "k" := Script.plainKey?_ofString "k"
  have defined : PlainRun Session.top id ⟨0⟩ w₁ [.defined k Intrinsic.functionPrototype] w₂ :=
    .getterDefined (.refl w₁) k _
  have crosses : Bridge.toHost Session.top .null w₂ = (.value .null, w₂) := rfl
  have written := PlainRun.shows (.wrote defined named .assign crosses (.refl w₂)) start
  have deleted := PlainRun.shows (.deleted defined named) start
  refine ⟨written.ownKeys_of_not_apart fun apart => ?_, ?_, ?_⟩
  · have none := apart "k" (by decide +kernel)
    revert none
    decide +kernel
  · have deletes := Script.delete_of_named (defined.shows start).fronts named
    exact deletes.trans (congrArg (fun w => (Outcome.value (), w.2)) deletes.symm)
  · refine (deleted.ownKeys_of_apart ?_).trans (congrArg (fun l => (Outcome.value l, w')) ?_)
    · exact fun _ mem => absurd mem List.not_mem_nil
    · decide +kernel

end ScriptBridge
