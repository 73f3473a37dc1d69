import ScriptBridge.Proofs.Answers
import ScriptBridge.Proofs.Atomicity
import ScriptBridge.Proofs.Data
import ScriptBridge.Proofs.ForeignKeys
import ScriptBridge.Proofs.Keys
import ScriptBridge.Proofs.StandIns

/-!
The stand-in of a plain object. It answers from the entries of the plain object first and from a
hidden object of its own after that; while nothing was put on the hidden object, a script sees the
entries, in their order, and what every object inherits.
-/

namespace ScriptBridge

/-! ### Keys -/

theorem Utf16.ofString_injective {s t : String} (h : ofString s = ofString t) : s = t := by
  have back := congrArg toString? h
  rw [toString?_ofString, toString?_ofString] at back
  exact Option.some.inj back

namespace PropertyKey

theorem ofString_injective {s t : String} (h : ofString s = ofString t) : s = t :=
  Utf16.ofString_injective (ofText_injective h)

theorem ofString_ne_symbol (s : String) (symbol : Symbol) : ofString s ≠ .symbol symbol := by
  unfold ofString ofText
  split <;> simp

/-- Symbols and texts in which no surrogate stands alone. -/
def WellFormed (key : PropertyKey) : Prop := key.isSymbol ∨ ∃ s, key = ofString s

end PropertyKey

namespace Script

@[simp] theorem plainKey?_ofString (s : String) : plainKey? (.ofString s) = some s := by
  rw [plainKey?, PropertyKey.ofString, PropertyKey.text?_ofText, Option.map_some,
    Utf16.toString?_ofString, Option.getD_some]

theorem eq_ofString_of_plainKey? {key : PropertyKey} {k : String} (wellFormed : key.WellFormed)
    (named : plainKey? key = some k) : key = .ofString k := by
  obtain symbol | ⟨s, rfl⟩ := wellFormed
  · cases key with
    | symbol => cases named
    | index | name => cases symbol
  · rw [plainKey?_ofString] at named
    cases named
    rfl

end Script

/-! ### The hidden object -/

/-- An object with nothing of its own. -/
def Object.blank : Object := .bare .ordinary Intrinsic.objectPrototype

/-- The object that a stand-in turns to when its container has no answer. -/
def World.hidden? (w : World) (id : ObjectId) : Option Object :=
  ((w.engine.objects.get? id.index).bind (·.kind.target?)).bind (w.engine.objects.get? ·.index)

/-- An object stands for a plain object; what else it has is on an ordinary hidden object. -/
structure Fronts (w : World) (id : ObjectId) (p : PlainId) (hidden : Object) : Prop where
  stands : Stands w id (.plain p)
  under : w.hidden? id = some hidden
  ordinary : hidden.kind = .ordinary

/-- The value that a plain object has under a key of the script. -/
def World.valueAt? (w : World) (p : PlainId) (key : PropertyKey) : Option Value :=
  (Script.plainKey? key).bind (w.heap.plain p).get?

namespace World

variable {w : World} {p : PlainId} {key : PropertyKey} {k : String}

theorem valueAt?_of_named (named : Script.plainKey? key = some k) :
    w.valueAt? p key = (w.heap.plain p).get? k := by
  rw [valueAt?, named, Option.bind_some]

@[simp] theorem valueAt?_ofString (w : World) (p : PlainId) (k : String) :
    w.valueAt? p (.ofString k) = (w.heap.plain p).get? k :=
  valueAt?_of_named (Script.plainKey?_ofString k)

end World

theorem World.hidden?_of_reaches {w w' : World} {id : ObjectId} {proxy : Object}
    {target : ObjectId} (found : w.engine.objects.get? id.index = some proxy)
    (aims : proxy.kind.target? = some target) (run : Reaches w w')
    (live : w'.runtime = w.runtime) : w'.hidden? id = w'.engine.objects.get? target.index := by
  obtain ⟨proxy', found', later⟩ := (run.later live).objects id.index proxy found
  rw [hidden?, found', Option.bind_some, later.target, aims, Option.bind_some]

namespace Fronts

variable {w w' : World} {id : ObjectId} {p : PlainId} {hidden : Object}

theorem found (h : Fronts w id p hidden) :
    ∃ proxy target, w.engine.objects.get? id.index = some proxy ∧
      proxy.kind = .plainProxy p target ∧ w.engine.objects.get? target.index = some hidden := by
  obtain ⟨proxy, target, found, kind⟩ := h.stands.plain
  refine ⟨proxy, target, found, kind, ?_⟩
  have under := h.under
  rw [World.hidden?, found, Option.bind_some, kind] at under
  exact under

/-- Crossings leave a hidden object as it is. -/
theorem of_objectsKept (h : Fronts w id p hidden) (kept : ObjectsKept w w') :
    Fronts w' id p hidden := by
  obtain ⟨proxy, target, found, kind, under⟩ := h.found
  have run := kept.steps.reaches
  refine ⟨h.stands.of_reaches run kept.runtime, ?_, h.ordinary⟩
  have aims : proxy.kind.target? = some target := by rw [kind]; rfl
  rw [World.hidden?_of_reaches found aims run kept.runtime]
  exact kept.objects _ _ under (by rw [h.ordinary]; rfl)

/-- Host containers may change meanwhile. -/
theorem of_engine_eq (h : Fronts w id p hidden) (same : w'.engine = w.engine) :
    Fronts w' id p hidden := by
  obtain ⟨⟨proxy, found, stands⟩, under, ordinary⟩ := h
  exact ⟨⟨proxy, by rw [same, found], stands⟩, by rw [World.hidden?, same]; exact under, ordinary⟩

end Fronts

/-! ### Single operations -/

theorem ObjectsKept.refl (w : World) : ObjectsKept w w :=
  ⟨rfl, rfl, fun _ _ h _ => h, .refl w⟩

theorem ObjectsKept.trans {a b c : World} (h : ObjectsKept a b) (h' : ObjectsKept b c) :
    ObjectsKept a c where
  heap := h'.heap.trans h.heap
  runtime := h'.runtime.trans h.runtime
  objects i o found ordinary := h'.objects i o (h.objects i o found ordinary) ordinary
  steps := h.steps.trans h'.steps

/-- What crossings into the script do. -/
def Effect.crossing : Effect := ⟨ObjectsKept, .refl, .trans⟩

instance : Effect.crossing.Gentle := ⟨fun kept => kept⟩

theorem Bridge.objectsKept_toScript {v : Value} {v' : ScriptValue} {w w' : World}
    (crosses : toScript v w = (.value v', w')) : ObjectsKept w w' := by
  have within := toScript_within (E := .crossing) v w
  rwa [crosses] at within

theorem Value.Live.of_runtime_eq {v : Value} {w w' : World} (h : v.Live w)
    (same : w'.runtime = w.runtime) : v.Live w' := by
  cases v with
  | object => exact Eq.trans h same.symm
  | function f =>
    cases f with
    | host => trivial
    | script => exact Eq.trans h same.symm
  | _ => trivial

namespace Script

variable {r : Reentry} {w : World} {id : ObjectId} {o : Object} {key : PropertyKey}

theorem getFrom_of_lacks (found : w.engine.objects.get? id.index = some o)
    (ordinary : o.kind = .ordinary) (lacks : o.properties.get? key = none)
    (receiver : ScriptValue) (steps : Nat) :
    getFrom r receiver key (steps + 1) (some id) w =
      getFrom r receiver key steps o.prototype w := by
  rw [getFrom_properties found (by rw [ordinary]; rfl), lacks]

theorem hasFrom_of_lacks (found : w.engine.objects.get? id.index = some o)
    (ordinary : o.kind = .ordinary) (lacks : o.properties.get? key = none) (steps : Nat) :
    hasFrom key (steps + 1) (some id) w = hasFrom key steps o.prototype w := by
  rw [hasFrom_properties found (by rw [ordinary]; rfl)]
  simp only [Entries.contains, lacks, Option.isSome_none, Bool.false_eq_true, if_false]

variable {p : PlainId} {hidden : Object}

theorem get_of_entry (h : Fronts w id p hidden) {v : Value} (own : w.valueAt? p key = some v) :
    get r id key w = Bridge.intoScript (Bridge.toScript v) w := by
  obtain ⟨proxy, target, found, kind, _⟩ := h.found
  rw [get, chainBound, Act.read_bind, getFrom_entry found kind own]

theorem get_of_no_entry (h : Fronts w id p hidden) (free : w.valueAt? p key = none)
    (lacks : hidden.properties.get? key = none) :
    get r id key w =
      getFrom r (.object id) key (w.engine.objects.size - 1) hidden.prototype w := by
  obtain ⟨proxy, target, found, kind, under⟩ := h.found
  -- the stand-in takes one step along the chain and its hidden object another
  obtain ⟨n, size⟩ := Nat.exists_eq_add_of_lt (Arena.lt_size_of_get? found)
  rw [get, chainBound, Act.read_bind, size, getFrom_plain found kind free]
  exact getFrom_of_lacks under h.ordinary lacks _ _

theorem has_of_entry (h : Fronts w id p hidden) {v : Value} (own : w.valueAt? p key = some v) :
    has id key w = (.value true, w) := by
  obtain ⟨proxy, target, found, kind, _⟩ := h.found
  rw [has, chainBound, Act.read_bind, hasFrom_entry found kind own]

theorem has_of_no_entry (h : Fronts w id p hidden) (free : w.valueAt? p key = none)
    (lacks : hidden.properties.get? key = none) :
    has id key w = hasFrom key (w.engine.objects.size - 1) hidden.prototype w := by
  obtain ⟨proxy, target, found, kind, under⟩ := h.found
  obtain ⟨n, size⟩ := Nat.exists_eq_add_of_lt (Arena.lt_size_of_get? found)
  rw [has, chainBound, Act.read_bind, size, hasFrom_plain found kind free]
  exact hasFrom_of_lacks under h.ordinary lacks _

theorem ownProperty?_eq_of_entry (h : Fronts w id p hidden) {v : Value}
    (own : w.valueAt? p key = some v) : ownProperty? id key w =
      (do return some (.open_ (← Bridge.intoScript (Bridge.toScript v))) : ScriptAct _) w := by
  obtain ⟨proxy, target, found, kind, _⟩ := h.found
  exact ownProperty?_entry found kind own

theorem ownProperty?_of_entry (h : Fronts w id p hidden) {v : Value} {v' : ScriptValue}
    {w' : World} (own : w.valueAt? p key = some v)
    (crosses : Bridge.toScript v w = (.value v', w')) :
    ownProperty? id key w = (.value (some (.open_ v')), w') := by
  rw [ownProperty?_eq_of_entry h own]
  exact Act.bind_of_value (Act.recover_of_value crosses _) _

theorem ownProperty?_of_no_entry (h : Fronts w id p hidden) (free : w.valueAt? p key = none) :
    ownProperty? id key w = (.value (hidden.properties.get? key), w) := by
  obtain ⟨proxy, target, found, kind, under⟩ := h.found
  rw [ownProperty?_plain found kind free, under, Option.bind_some]

end Script

/-- The own keys that the stand-in of a plain object gives the engine: those of the entries, then
those of the hidden object. -/
def World.ownKeyList (w : World) (p : PlainId) (hidden : Object) : List PropertyKey :=
  (w.heap.plain p).keys.map .ofString ++ hidden.ownKeys

namespace Script

variable {r : Reentry} {w w₁ : World} {id : ObjectId} {key : PropertyKey} {p : PlainId}
  {hidden : Object} {k : String}

theorem ownKeys_of_nodup (h : Fronts w id p hidden) (nodup : (w.ownKeyList p hidden).Nodup) :
    ownKeys id w = (.value (w.ownKeyList p hidden), w) := by
  obtain ⟨proxy, target, found, kind, under⟩ := h.found
  exact (ownKeys_plain found kind under).trans (congrArg (Act.run · w) (if_pos nodup))

/-- The engine refuses a list with a key that stands in it twice. -/
theorem ownKeys_of_not_nodup (h : Fronts w id p hidden)
    (twice : ¬(w.ownKeyList p hidden).Nodup) :
    ownKeys id w = Act.throwType "proxy: duplicate property" w := by
  obtain ⟨proxy, target, found, kind, under⟩ := h.found
  exact (ownKeys_plain found kind under).trans (congrArg (Act.run · w) (if_neg twice))

/-! #### Writing -/

theorem assignHosted?_of_plain {o : Object} {target : ObjectId} {x : ScriptValue} {v : Value}
    (kind : o.kind = .plainProxy p target) (named : plainKey? key = some k)
    (crosses : Bridge.toHost r x w = (.value v, w₁)) :
    assignHosted? r o key x w =
      (.value none, (Act.setEntry (ε := Error) p k v w₁).2) := by
  rw [assignHosted?_named kind named]
  exact Act.recover_of_value (Act.bind_of_value crosses _) _

theorem set_of_crossing (h : Fronts w id p hidden) {x : ScriptValue} {v : Value}
    (named : plainKey? key = some k) (crosses : Bridge.toHost r x w = (.value v, w₁)) :
    set r id key x w = (.value (), (Act.setEntry (ε := Error) p k v w₁).2) := by
  obtain ⟨proxy, target, found, kind, _⟩ := h.found
  exact set_of_taken found (.inr ⟨_, _, kind⟩) (assignHosted?_of_plain kind named crosses)

theorem define_of_crossing (h : Fronts w id p hidden) {x : ScriptValue} {v : Value}
    (named : plainKey? key = some k) (crosses : Bridge.toHost r x w = (.value v, w₁)) :
    define r id key (.value x) w = (.value (), (Act.setEntry (ε := Error) p k v w₁).2) := by
  obtain ⟨proxy, target, found, kind, _⟩ := h.found
  rw [define_plain found kind]
  exact Act.bind_of_value (assignHosted?_of_plain kind named crosses) _

theorem deleteProperty_of_named (h : Fronts w id p hidden) (named : plainKey? key = some k) :
    deleteProperty id key w = (.value true, (Act.removeEntry (ε := Error) p k w).2) := by
  obtain ⟨proxy, target, found, kind, _⟩ := h.found
  exact deleteProperty_named found kind named

theorem delete_of_named (h : Fronts w id p hidden) (named : plainKey? key = some k) :
    delete id key w = (.value (), (Act.removeEntry (ε := Error) p k w).2) :=
  Act.bind_of_value (deleteProperty_of_named h named) _

end Script

/-! ### Listing -/

/-- Asks for one thing after another, each under an invariant. -/
theorem Act.mapAll_of_values {ε α β : Type} {I : World → Prop} {f : α → Act ε β} {g : α → β}
    (each : ∀ a w, I w → ∃ w', f a w = (.value (g a), w') ∧ I w') (xs : List α) {w : World}
    (start : I w) : ∃ w', Act.mapAll f xs w = (.value (xs.map g), w') ∧ I w' := by
  induction xs generalizing w with
  | nil => exact ⟨w, rfl, start⟩
  | cons a rest ih =>
    obtain ⟨w₁, first, kept⟩ := each a w start
    obtain ⟨w₂, others, kept'⟩ := ih kept
    exact ⟨w₂, (Act.bind_of_value first _).trans (Act.bind_of_value others _), kept'⟩

/-- Whether `Object.keys` lists an own key. -/
def World.lists (w : World) (p : PlainId) (hidden : Object) (key : PropertyKey) : Bool :=
  !key.isSymbol &&
    ((w.valueAt? p key).isSome || ((hidden.properties.get? key).map (·.enumerable)).getD false)

/-- All that a plain object holds can cross. -/
def World.HoldsLive (w : World) (p : PlainId) : Prop :=
  ∀ k v, (w.heap.plain p).get? k = some v → v.Live w

theorem ObjectsKept.holdsLive {w w' : World} {p : PlainId} (kept : ObjectsKept w w')
    (live : w.HoldsLive p) : w'.HoldsLive p := by
  intro k v own
  rw [kept.heap] at own
  exact (live k v own).of_runtime_eq kept.runtime

namespace Script

variable {w : World} {id : ObjectId} {p : PlainId} {hidden : Object}

section

variable {E : Effect} (crossing : ∀ v, (Bridge.toScript v).Within E)

include crossing

theorem ownProperty?_of_live (h : Fronts w id p hidden) (live : w.HoldsLive p)
    (key : PropertyKey) : ∃ found w', ownProperty? id key w = (.value found, w') ∧
      E.rel w w' ∧
      (found = none ↔ w.valueAt? p key = none ∧ hidden.properties.get? key = none) ∧
      (found.map (·.enumerable)).getD false = ((w.valueAt? p key).isSome ||
        ((hidden.properties.get? key).map (·.enumerable)).getD false) := by
  cases own : w.valueAt? p key with
  | none => exact ⟨_, w, ownProperty?_of_no_entry h own, E.refl w, by simp, by simp⟩
  | some v =>
    obtain ⟨k, _, there⟩ := Option.bind_eq_some_iff.1 own
    obtain ⟨v', w', crosses⟩ := Bridge.toScript_of_live (live k v there)
    have within := crossing v w
    rw [crosses] at within
    exact ⟨_, w', ownProperty?_of_entry h own crosses, within, by simp, rfl⟩

/-- Listing succeeds when all that the plain object holds can cross, and has the effect of the
crossings. -/
theorem listedKeys_of_nodup (keeps : ∀ {u u'}, E.rel u u' → ObjectsKept u u')
    (h : Fronts w id p hidden) (nodup : (w.ownKeyList p hidden).Nodup)
    (live : w.HoldsLive p) : ∃ w', listedKeys id w =
      (.value ((w.ownKeyList p hidden).filter (w.lists p hidden)), w') ∧ E.rel w w' := by
  have marks (key : PropertyKey) (u : World) (within : E.rel w u) :
      ∃ u', mark id key u = (.value (key, w.lists p hidden key), u') ∧ E.rel w u' := by
    have kept := keeps within
    have entry : u.valueAt? p key = w.valueAt? p key := by rw [World.valueAt?, kept.heap]; rfl
    obtain ⟨found, u', asked, within', _, enumerable⟩ :=
      ownProperty?_of_live crossing (h.of_objectsKept kept) (kept.holdsLive live) key
    rw [entry] at enumerable
    cases key with
    | symbol => exact ⟨u, rfl, within⟩
    | index | name =>
      refine ⟨u', ?_, E.trans within within'⟩
      rw [World.lists, ← enumerable]
      exact Act.bind_of_value asked _
  obtain ⟨w', marked, within⟩ := Act.mapAll_of_values marks (w.ownKeyList p hidden) (E.refl w)
  refine ⟨w', ?_, within⟩
  rw [listedKeys, Act.bind_of_value (ownKeys_of_nodup h nodup), Act.bind_of_value marked]
  simp only [List.filter_map, List.map_map, Function.comp_def, List.map_id']
  rfl

end

end Script

/-! ### The view -/

/-- What a script sees of a plain object through an object. -/
structure MapView (r : Reentry) (id : ObjectId) (p : PlainId) (w : World) : Prop where
  read : ∀ k v, (w.heap.plain p).get? k = some v → v.Live w → ∃ v' w',
    Bridge.toScript v w = (.value v', w') ∧ Script.get r id (.ofString k) w = (.value v', w') ∧
      Script.ownProperty? id (.ofString k) w = (.value (some (.open_ v')), w') ∧ ObjectsKept w w'
  has : ∀ k ∈ (w.heap.plain p).keys, Script.has id (.ofString k) w = (.value true, w)
  absent : ∀ k ∉ (w.heap.plain p).keys, Script.ownProperty? id (.ofString k) w = (.value none, w)
  /-- Other keys are looked up as on behalf of any object with nothing of its own. -/
  inherited : ∀ k ∉ (w.heap.plain p).keys, ∀ e : ObjectId,
    w.engine.objects.get? e.index = some .blank →
      Script.get r id (.ofString k) w =
        Script.getFrom r (.object id) (.ofString k) w.engine.objects.size (some e) w ∧
      Script.has id (.ofString k) w =
        Script.hasFrom (.ofString k) w.engine.objects.size (some e) w
  keys : Script.ownKeys id w = (.value ((w.heap.plain p).keys.map .ofString), w)
  listed : w.HoldsLive p → ∃ w',
    Script.listedKeys id w = (.value ((w.heap.plain p).keys.map .ofString), w') ∧ ObjectsKept w w'

/-- What a script does to a plain object through an object. -/
structure MapUpdates (r : Reentry) (id : ObjectId) (p : PlainId) (w : World) : Prop where
  write : ∀ k x v w₁, Bridge.toHost r x w = (.value v, w₁) →
    Script.set r id (.ofString k) x w = (.value (), (Act.setEntry (ε := Error) p k v w₁).2) ∧
    Script.define r id (.ofString k) (.value x) w =
      (.value (), (Act.setEntry (ε := Error) p k v w₁).2)
  refuse : ∀ k x e w₁, Bridge.toHost r x w = (.failure e, w₁) →
    Refuses r (Script.set r id (.ofString k) x) e w w₁ ∧
    Refuses r (Script.define r id (.ofString k) (.value x)) e w w₁
  delete : ∀ k, Script.delete id (.ofString k) w =
    (.value (), (Act.removeEntry (ε := Error) p k w).2)

theorem nodup_map_ofString {ks : List String} (nodup : ks.Nodup) :
    (ks.map PropertyKey.ofString).Nodup :=
  nodup.map fun _ _ => PropertyKey.ofString_injective

section

variable {r : Reentry} {w : World} {id : ObjectId} {p : PlainId} {hidden : Object}

theorem Object.ownKeys_blank : Object.blank.ownKeys = [] := by
  simp [ownKeys, blank, bare, Entries.keys, Entries.empty]

theorem World.ownKeyList_blank (w : World) (p : PlainId) :
    w.ownKeyList p .blank = (w.heap.plain p).keys.map .ofString := by
  rw [ownKeyList, Object.ownKeys_blank, List.append_nil]

theorem World.nodup_ownKeyList_blank (w : World) (p : PlainId) :
    (w.ownKeyList p .blank).Nodup := by
  rw [ownKeyList_blank]
  exact nodup_map_ofString (w.heap.plain p).nodup_keys

/-- The keys of entries are listed. -/
theorem World.lists_of_mem {k : String} (mem : k ∈ (w.heap.plain p).keys) :
    w.lists p hidden (.ofString k) := by
  rw [lists, valueAt?_ofString, (Entries.isSome_get?_iff _ _).2 mem, Bool.true_or, Bool.and_true]
  cases symbol : PropertyKey.ofString k with
  | symbol s => exact absurd symbol (PropertyKey.ofString_ne_symbol k s)
  | _ => rfl

theorem mapView_of_fronts (h : Fronts w id p .blank) : MapView r id p w where
  read k v own live := by
    obtain ⟨v', w', crosses⟩ := Bridge.toScript_of_live live
    have entry : w.valueAt? p (.ofString k) = some v := by rw [World.valueAt?_ofString, own]
    refine ⟨v', w', crosses, ?_, Script.ownProperty?_of_entry h entry crosses,
      Bridge.objectsKept_toScript crosses⟩
    rw [Script.get_of_entry h entry]
    exact Act.recover_of_value crosses _
  has k mem := by
    rw [← Entries.isSome_get?_iff, Option.isSome_iff_exists] at mem
    obtain ⟨v, own⟩ := mem
    exact Script.has_of_entry h (by rw [World.valueAt?_ofString, own])
  absent k missing := by
    rw [← Entries.get?_eq_none_iff, ← World.valueAt?_ofString] at missing
    exact Script.ownProperty?_of_no_entry h missing
  inherited k missing e found := by
    rw [← Entries.get?_eq_none_iff, ← World.valueAt?_ofString] at missing
    obtain ⟨n, size⟩ := Nat.exists_eq_add_of_lt (Arena.lt_size_of_get? found)
    rw [Script.get_of_no_entry h missing rfl, Script.has_of_no_entry h missing rfl, size]
    exact ⟨(Script.getFrom_of_lacks found rfl rfl _ _).symm,
      (Script.hasFrom_of_lacks found rfl rfl _).symm⟩
  keys := by
    rw [← World.ownKeyList_blank]
    exact Script.ownKeys_of_nodup h (w.nodup_ownKeyList_blank p)
  listed live := by
    obtain ⟨w', lists, kept⟩ := Script.listedKeys_of_nodup
      (E := .crossing) Bridge.toScript_within (fun kept => kept) h (w.nodup_ownKeyList_blank p) live
    refine ⟨w', ?_, kept⟩
    rw [lists, World.ownKeyList_blank, List.filter_eq_self.2]
    intro key listed
    obtain ⟨k, mem, rfl⟩ := List.mem_map.1 listed
    exact World.lists_of_mem mem

theorem mapUpdates_of_fronts (h : Fronts w id p hidden) : MapUpdates r id p w where
  write k x v w₁ crosses :=
    ⟨Script.set_of_crossing h (Script.plainKey?_ofString k) crosses,
      Script.define_of_crossing h (Script.plainKey?_ofString k) crosses⟩
  refuse k x e w₁ fails := by
    obtain ⟨proxy, target, found, kind, _⟩ := h.found
    have hosted : Hosted proxy (.ofString k) := .entry p target k kind (Script.plainKey?_ofString k)
    exact ⟨(Script.set_throws found hosted fails).refuses (Bridge.toHost_within x) fails,
      (Script.define_throws found hosted fails).refuses (Bridge.toHost_within x) fails⟩
  delete k := Script.delete_of_named h (Script.plainKey?_ofString k)

end

end ScriptBridge
