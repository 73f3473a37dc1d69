import ScriptBridge.Proofs.DocumentMethods
import ScriptBridge.Proofs.DocumentUniqueness
import ScriptBridge.Proofs.HostDocuments
import ScriptBridge.Session

/-!
Documents of host values, made by host and script. The text that a script makes of an exposed value
denotes the document that the host makes of it, but for the order of members and the spelling of
numbers.
-/

namespace ScriptBridge

open Relation (TransGen)

/-! ### Values that have the same document on both sides -/

/-- The stand-in of a handle, if there is one, has no function under `toJSON`. -/
def LeftAlone (w : World) (handle : Handle) : Prop :=
  ∀ id, w.engine.registry.standIn? handle = some id → Silent w handle id

/-- Values built from primitives, functions, sequences and plain objects that do not come back to
themselves, none of which has a function under `toJSON`. -/
inductive Documented (w : World) : Value → Prop where
  | primitive {v : Value} (h : v.isPrimitive) : Documented w v
  | hostFunction {f : HostFunctionId} (alone : LeftAlone w (.function f)) :
    Documented w (.function (.host f))
  | scriptFunction {ref : ScriptRef} {name : String} {o : Object}
    (live : ref.runtime = w.runtime) (silent : SilentFunction w ref.object o) :
    Documented w (.function (.script ref name))
  | sequence {s : SequenceId} (alone : LeftAlone w (.sequence s))
    (short : (w.heap.sequence s).length ≤ PropertyKey.indexLimit)
    (items : ∀ v ∈ w.heap.children (.sequence s), Documented w v) : Documented w (.sequence s)
  | plain {p : PlainId} (alone : LeftAlone w (.plain p))
    (noFunction : ∀ f, (w.heap.plain p).get? "toJSON" ≠ some (.function f))
    (entries : ∀ v ∈ w.heap.children (.plain p), Documented w v) : Documented w (.plain p)

/-- Whether a value is written as a document of its own. -/
def Value.isWritten : Value → Bool
  | .undefined | .function _ | .object _ => false
  | _ => true

/-- What a value is in the script once it is exposed. -/
inductive Shown (w : World) : Value → ScriptValue → Prop where
  | undefined : Shown w .undefined .undefined
  | null : Shown w .null .null
  | bool (b : Bool) : Shown w (.bool b) (.bool b)
  | number (d : Double) : Shown w (.number d) (.number (Bridge.crossing d))
  | string (s : String) : Shown w (.string s) (.ofString s)
  | function {f : Callback} {id : ObjectId} {o : Object} (silent : SilentFunction w id o) :
    Shown w (.function f) (.object id)
  | sequence {s : SequenceId} {id : ObjectId}
    (registered : w.engine.registry.standIn? (.sequence s) = some id)
    (silent : Silent w (.sequence s) id) : Shown w (.sequence s) (.object id)
  | plain {p : PlainId} {id : ObjectId}
    (registered : w.engine.registry.standIn? (.plain p) = some id)
    (silent : Silent w (.plain p) id) : Shown w (.plain p) (.object id)

section

variable {r : Reentry} {w w' : World} {v : Value} {u : ScriptValue}

namespace Documented

theorem live (h : Documented w v) : v.Live w := by
  cases h with
  | primitive h => cases v <;> first | exact trivial | cases h
  | scriptFunction live silent => exact live
  | hostFunction | sequence | plain => trivial

theorem child (h : Documented w v) {inner : Value} (holds : w.heap.Holds v inner) :
    Documented w inner := by
  cases h with
  | primitive h => cases v <;> first | cases holds | cases h
  | hostFunction | scriptFunction => cases holds
  | sequence alone short items => exact items inner holds
  | plain alone noFunction entries => exact entries inner holds

theorem short {s : SequenceId} (h : Documented w (.sequence s)) :
    (w.heap.sequence s).length ≤ PropertyKey.indexLimit := by
  cases h with
  | primitive h => cases h
  | sequence alone short items => exact short

theorem grounded (h : Documented w v) : w.heap.Grounded v := by
  induction h with
  | @primitive v h =>
    refine .intro v fun inner holds => ?_
    cases v <;> first | cases holds | cases h
  | hostFunction | scriptFunction =>
    refine .intro _ fun inner holds => ?_
    cases holds
  | sequence _ _ _ ih | plain _ _ _ ih => exact .intro _ ih

theorem acyclic (h : Documented w v) : ¬TransGen w.heap.Holds v v := h.grounded.acyclic

theorem crosses (h : Documented w v) (prototypes : SilentPrototypes w) (exposed : Exposed w w') :
    ∃ u w₁, Bridge.toScript v w' = (.value u, w₁) ∧ Exposed w' w₁ ∧ Shown w₁ v u := by
  have handle (handle : Handle) (alone : LeftAlone w handle) : ∃ id w₁,
      Bridge.standIn handle w' = (.value (.object id), w₁) ∧ Exposed w' w₁ ∧
        w₁.engine.registry.standIn? handle = some id ∧ Silent w₁ handle id := by
    obtain ⟨id, w₁, made, registered, _⟩ := Bridge.standIn_registers handle w'
    have more : Exposed w' w₁ := by
      have exposes := Bridge.exposed_standIn handle w'
      rwa [made] at exposes
    exact ⟨id, w₁, made, more, registered,
      silent_of_exposed alone prototypes (exposed.trans more) registered⟩
  cases h with
  | primitive h =>
    cases v with
    | undefined => exact ⟨_, w', rfl, .refl w', .undefined⟩
    | null => exact ⟨_, w', rfl, .refl w', .null⟩
    | bool b => exact ⟨_, w', rfl, .refl w', .bool b⟩
    | number d => exact ⟨_, w', rfl, .refl w', .number d⟩
    | string s => exact ⟨_, w', rfl, .refl w', .string s⟩
    | _ => cases h
  | @hostFunction f alone =>
    obtain ⟨id, w₁, made, more, _, silent⟩ := handle (.function f) alone
    cases silent with
    | function silent => exact ⟨_, w₁, made, more, .function silent⟩
  | @scriptFunction ref name o live silent =>
    have restored : Bridge.restore "script function" ref w' = (.value ref.object, w') :=
      Bridge.restore_of_live (live.trans exposed.runtime.symm)
    exact ⟨_, w', Act.bind_of_value restored _, .refl w', .function (silent.later exposed)⟩
  | @sequence s alone =>
    obtain ⟨id, w₁, made, more, registered, silent⟩ := handle (.sequence s) alone
    exact ⟨_, w₁, made, more, .sequence registered silent⟩
  | @plain p alone =>
    obtain ⟨id, w₁, made, more, registered, silent⟩ := handle (.plain p) alone
    exact ⟨_, w₁, made, more, .plain registered silent⟩

end Documented

theorem Shown.later (h : Shown w v u) (exposed : Exposed w w') : Shown w' v u := by
  cases h with
  | undefined => exact .undefined
  | null => exact .null
  | bool b => exact .bool b
  | number d => exact .number d
  | string s => exact .string s
  | function silent => exact .function (silent.later exposed)
  | sequence registered silent =>
    exact .sequence (exposed.standIn?_eq registered) (silent.later exposed)
  | plain registered silent =>
    exact .plain (exposed.standIn?_eq registered) (silent.later exposed)

theorem Shown.inert (h : Shown w v u) (noFunction : ∀ f, v ≠ .function f) : Inert w u := by
  intro id same
  cases h with
  | function => exact absurd rfl (noFunction _)
  | sequence registered silent =>
    cases silent with
    | sequence found kind =>
      cases same
      exact ⟨_, found, by rw [kind]; rfl⟩
  | plain registered silent =>
    cases silent with
    | plain found kind =>
      cases same
      exact ⟨_, found, by rw [kind]; rfl⟩
  | _ => cases same

/-- A value stands for itself in a document, and a function for nothing. -/
theorem Documented.documentValue_eq (h : Documented w v) (prototypes : SilentPrototypes w)
    (exposed : Exposed w w') (shown : Shown w' v u) (r : Reentry) (key : Utf16) :
    ∃ w₁, Script.documentValue r key u w' =
      (.value (if v.isWritten then u else .undefined), w₁) ∧ Exposed w' w₁ := by
  cases shown with
  | undefined | null | bool | number | string => exact ⟨w', rfl, .refl w'⟩
  | function silent =>
    obtain ⟨x, asked, inert⟩ := Script.get_of_silentFunction (r := r) silent
    refine ⟨w', ?_, .refl w'⟩
    rw [Script.documentValue_of_object r key asked inert silent.found, if_pos silent.kind]
    rfl
  | sequence registered silent =>
    obtain ⟨x, asked, inert⟩ := Script.get_of_silentSequence (r := r) silent
    cases silent with
    | sequence found kind =>
      refine ⟨w', ?_, .refl w'⟩
      rw [Script.documentValue_of_object r key asked inert found, kind]
      rfl
  | @plain p id registered silent =>
    cases h with
    | primitive h => cases h
    | plain alone noFunction entries =>
      have entry (x : Value) (own : (w'.heap.plain p).get? "toJSON" = some x) :
          ∃ u w₁, Bridge.toScript x w' = (.value u, w₁) ∧ Inert w₁ u := by
        rw [exposed.heap] at own
        have inner := entries x (List.mem_map.2 ⟨_, (Entries.get?_eq_some_iff _).1 own, rfl⟩)
        obtain ⟨u, w₁, crosses, _, shown⟩ := inner.crosses prototypes exposed
        exact ⟨u, w₁, crosses, shown.inert fun f same => noFunction f (same ▸ own)⟩
      obtain ⟨x, w₁, asked, inert, more⟩ := Script.get_of_silentPlain (r := r) silent entry
      cases silent with
      | plain found kind =>
        refine ⟨w₁, ?_, more⟩
        rw [Script.documentValue_of_object r key asked inert (more.objects _ _ found), kind]
        rfl

end

/-! ### Values in containers -/

/-- An action exposes no more than values, and gives a text that denotes a document. -/
def WritesDocument (x : ScriptAct Utf16) (w : World) (document : Json) : Prop :=
  ∃ text w₁ read, x w = (.value text, w₁) ∧ Exposed w w₁ ∧ Json.Denotes text read ∧
    Json.Same read document

section

variable {r : Reentry} {w w' : World} {v : Value} {u : ScriptValue}

theorem Shown.ne_undefined (h : Shown w v u) (written : v.isWritten) : u ≠ .undefined := by
  cases h with
  | undefined => cases written
  | _ => exact nofun

theorem Heap.jsonWithin_eq_none_iff (h : Heap) (level : Nat) (v : Value) :
    h.jsonWithin (level + 1) v = none ↔ v.isWritten = false := by
  cases v with
  | undefined | function | object => exact ⟨fun _ => rfl, fun _ => rfl⟩
  | _ =>
    constructor
    · intro none
      cases none
    · intro absent
      cases absent

theorem Heap.jsonWithin_eq_none (h : Heap) (level : Nat) (absent : v.isWritten = false) :
    h.jsonWithin level v = none := by
  cases level with
  | zero => rfl
  | succ level => exact (h.jsonWithin_eq_none_iff level v).2 absent

/-- A value in a container is written if it has a document; the property it is read from gives it as
it crosses. -/
theorem Documented.propertyText_spelled {depth level : Nat} {around : List ObjectId}
    (h : Documented w v) (prototypes : SilentPrototypes w)
    (writes : ∀ {w₁ u}, Exposed w' w₁ → Shown w₁ v u → v.isWritten →
      ∃ d, w.heap.jsonWithin level v = some d ∧
        WritesDocument (Script.documentText r depth around u) w₁ d)
    (exposed : Exposed w w') {id : ObjectId} {key : PropertyKey}
    (reads : Script.get r id key w' = Bridge.intoScript (Bridge.toScript v) w')
    (absent : Option Utf16) :
    ∃ text w₁, Script.propertyText r depth around id key absent w' = (.value text, w₁) ∧
      Exposed w' w₁ ∧ Spelled (w.heap.jsonWithin level v) absent text := by
  obtain ⟨u, w₁, crosses, more, shown⟩ := h.crosses prototypes exposed
  have read : Script.get r id key w' = (.value u, w₁) :=
    reads.trans (Act.recover_of_value crosses _)
  obtain ⟨w₂, stands, more'⟩ :=
    h.documentValue_eq prototypes (exposed.trans more) shown r (key.text?.getD [])
  rw [Script.propertyText, Act.bind_of_value read, Act.bind_of_value stands]
  cases written : v.isWritten with
  | false =>
    exact ⟨absent, w₂, rfl, more.trans more', .absent (w.heap.jsonWithin_eq_none level written)⟩
  | true =>
    obtain ⟨d, made, text, w₃, read, runs, more'', denotes, same⟩ :=
      writes (more.trans more') (shown.later more') written
    refine ⟨some text, w₃, ?_, (more.trans more').trans more'', .present made denotes same⟩
    rw [if_pos rfl]
    split
    · exact absurd rfl (shown.ne_undefined written)
    · exact Act.bind_of_value runs _

/-- Does one thing after another, each of which exposes values and gives what it should. -/
theorem Act.mapAll_of_each {α β ι : Type} {f : α → ScriptAct β} {g : ι → α} {P : ι → β → Prop}
    {xs : List ι} (each : ∀ x ∈ xs, ∀ {w'}, Exposed w w' →
      ∃ y w₁, f (g x) w' = (.value y, w₁) ∧ Exposed w' w₁ ∧ P x y) (exposed : Exposed w w') :
    ∃ ys w₁, Act.mapAll f (xs.map g) w' = (.value ys, w₁) ∧ Exposed w' w₁ ∧
      List.Forall₂ P xs ys := by
  induction xs generalizing w' with
  | nil => exact ⟨[], w', rfl, .refl w', .nil⟩
  | cons x xs ih =>
    obtain ⟨first, others⟩ := List.forall_mem_cons.1 each
    obtain ⟨y, w₁, runs, more, holds⟩ := first exposed
    obtain ⟨ys, w₂, rest, more', hold⟩ := ih others (exposed.trans more)
    refine ⟨y :: ys, w₂, ?_, more.trans more', .cons holds hold⟩
    exact (Act.bind_of_value runs _).trans (Act.bind_of_value rest _)

/-- Objects stand for containers of a path. -/
def StandFor (w : World) (path : List Handle) (around : List ObjectId) : Prop :=
  ∀ id ∈ around, ∃ handle ∈ path, w.engine.registry.standIn? handle = some id

namespace StandFor

variable {path : List Handle} {around : List ObjectId} {handle : Handle} {id : ObjectId}

theorem cons (h : StandFor w path around) (exposed : Exposed w w')
    (registered : w.engine.registry.standIn? handle = some id) :
    StandFor w' (handle :: path) (id :: around) := by
  intro id' mem
  cases List.mem_cons.1 mem with
  | inl same =>
    rw [same]
    exact ⟨handle, List.mem_cons_self, exposed.standIn?_eq registered⟩
  | inr mem =>
    obtain ⟨outer, mem, found⟩ := h id' mem
    exact ⟨outer, List.mem_cons_of_mem _ mem, exposed.standIn?_eq found⟩

/-- The stand-in of another container is another object. -/
theorem not_mem (h : StandFor w path around) (c : w.engine.Coherent)
    (registered : w.engine.registry.standIn? handle = some id) (outside : handle ∉ path) :
    id ∉ around := by
  intro mem
  obtain ⟨outer, mem, found⟩ := h id mem
  exact outside (c.handle_eq registered found ▸ mem)

end StandFor

theorem documentText_of_number {around : List ObjectId} {depth : Nat} (r : Reentry) (d : Double)
    (w : World) :
    WritesDocument (Script.documentText r (depth + 1) around (.number (Bridge.crossing d))) w
      (.ofNumber d) := by
  have text : Script.documentText r (depth + 1) around (.number (Bridge.crossing d)) w =
      (.value (if (Bridge.crossing d).isFinite then .ofChars (Number.scriptText (Bridge.crossing d))
        else .ofString "null"), w) := rfl
  have finite_eq := Bridge.isFinite_crossing d
  cases finite : d.isFinite with
  | true =>
    rw [finite_eq, finite] at text
    exact ⟨_, w, _, text, .refl w,
      Script.denotes_scriptText (finite_eq.trans finite) (Bridge.isNegativeZero_crossing d),
      Json.same_ofNumber finite⟩
  | false =>
    rw [finite_eq, finite] at text
    rw [Json.ofNumber_of_not_finite finite]
    exact ⟨_, w, _, text, .refl w, .null, .null⟩

/-- Where a value lies: the containers around it, their stand-ins, and depths that are enough for
it on both sides. -/
structure Placed (w w' : World) (v : Value) (path : List Handle) (around : List ObjectId)
    (level depth : Nat) : Prop where
  exposed : Exposed w w'
  inside : Around w.heap v path
  known : StandFor w' path around
  level : w.heap.depthBound ≤ path.length + level
  depth : w.heap.depthBound ≤ path.length + depth

namespace Placed

variable {path : List Handle} {around : List ObjectId} {level depth : Nat} {handle : Handle}
  {id : ObjectId}

theorem positive (h : Placed w w' v path around level depth) :
    ∃ n m, level = n + 1 ∧ depth = m + 1 := by
  have fits := h.inside.length_lt
  have level := h.level
  have depth := h.depth
  exact ⟨_, _, (Nat.succ_pred_eq_of_pos (by omega)).symm, (Nat.succ_pred_eq_of_pos (by omega)).symm⟩

/-- One container further in. -/
theorem next {w₁ : World} (handle : Handle)
    (h : Placed w w' handle.value path around (level + 1) (depth + 1))
    (documented : Documented w handle.value) (more : Exposed w' w₁)
    (registered : w'.engine.registry.standIn? handle = some id)
    (holds : w.heap.Holds handle.value v) :
    Placed w w₁ v (handle :: path) (id :: around) level depth where
  exposed := h.exposed.trans more
  inside := h.inside.next handle documented.acyclic holds
  known := h.known.cons more registered
  level := by
    have := h.level
    rw [List.length_cons]
    omega
  depth := by
    have := h.depth
    rw [List.length_cons]
    omega

end Placed

/-- Wherever a value lies, the text that a script makes of it denotes its document. -/
def DocumentsAgree (r : Reentry) (w : World) (v : Value) : Prop :=
  ∀ {w' u path around level depth}, Placed w w' v path around level depth → Shown w' v u →
    v.isWritten → ∃ d, w.heap.jsonWithin level v = some d ∧
      WritesDocument (Script.documentText r depth around u) w' d

theorem documentsAgree_of_primitive (r : Reentry) (w : World) (primitive : v.isPrimitive) :
    DocumentsAgree r w v := by
  intro w' u path around level depth placed shown written
  obtain ⟨level, depth, rfl, rfl⟩ := placed.positive
  cases shown with
  | undefined => cases written
  | null => exact ⟨.null, rfl, _, w', _, rfl, .refl w', .null, .null⟩
  | bool b => exact ⟨.bool b, rfl, _, w', _, rfl, .refl w', .bool b, .bool b⟩
  | number d => exact ⟨.ofNumber d, rfl, documentText_of_number r d w'⟩
  | string s =>
    exact ⟨.string s, rfl, _, w', _, rfl, .refl w', Script.denotes_quoteUnits s, .string s⟩
  | function | sequence | plain => cases primitive

/-- What lies in a container is written as its document, or as what stands for a missing one. -/
theorem Documented.inner_spelled (handle : Handle) {path : List Handle} {around : List ObjectId}
    {level depth : Nat} {id : ObjectId} {key : PropertyKey} {w₁ : World}
    (h : Documented w handle.value) (prototypes : SilentPrototypes w)
    (placed : Placed w w' handle.value path around (level + 1) (depth + 1))
    (registered : w'.engine.registry.standIn? handle = some id)
    (holds : w.heap.Holds handle.value v) (agrees : DocumentsAgree r w v) (more : Exposed w' w₁)
    (reads : Script.get r id key w₁ = Bridge.intoScript (Bridge.toScript v) w₁)
    (absent : Option Utf16) : ∃ text w₂,
      Script.propertyText r depth (id :: around) id key absent w₁ = (.value text, w₂) ∧
        Exposed w₁ w₂ ∧ Spelled (w.heap.jsonWithin level v) absent text :=
  (h.child holds).propertyText_spelled prototypes
    (fun further => agrees (placed.next handle h (more.trans further) registered holds))
    (placed.exposed.trans more) reads absent

theorem documentsAgree_of_sequence {s : SequenceId} (reachable : Reachable w)
    (prototypes : SilentPrototypes w) (h : Documented w (.sequence s))
    (items : ∀ v ∈ w.heap.children (.sequence s), DocumentsAgree r w v) :
    DocumentsAgree r w (.sequence s) := by
  intro w' u path around level depth placed shown _
  obtain ⟨level, depth, rfl, rfl⟩ := placed.positive
  cases shown with
  | @sequence s id registered silent =>
    have c := (reachable.of_reaches placed.exposed.steps.reaches).coherent
    have outside : id ∉ around :=
      placed.known.not_mem c registered (Around.not_mem placed.inside h.acyclic)
    have short := h.short
    let elements := w.heap.sequence s
    let element (i : Nat) := elements[i]?.getD .undefined
    have same : w'.heap.sequence s = elements := by rw [placed.exposed.heap]
    have each : ∀ i ∈ List.range elements.length, ∀ {w₁}, Exposed w' w₁ → ∃ text w₂,
        Script.propertyText r depth (id :: around) id (.ofNat i) (some (.ofString "null")) w₁ =
          (.value text, w₂) ∧ Exposed w₁ w₂ ∧
            Spelled (w.heap.jsonWithin level (element i)) (some (.ofString "null")) text := by
      intro i mem w₁ more
      have inRange := List.mem_range.1 mem
      have holds : w.heap.Holds (.sequence s) (element i) := by
        change elements[i]?.getD .undefined ∈ elements
        rw [List.getElem?_eq_getElem inRange]
        exact List.getElem_mem inRange
      have reads : Script.get r id (.ofNat i) w₁ =
          Bridge.intoScript (Bridge.toScript (element i)) w₁ := by
        cases silent.later more with
        | sequence found kind =>
          rw [PropertyKey.ofNat_of_lt (Nat.lt_of_lt_of_le inRange short),
            Script.get_index found kind, more.heap, same]
      exact h.inner_spelled (.sequence s) prototypes placed registered holds
        (items _ holds) more reads _
    obtain ⟨texts, w₁, runs, more, spelled⟩ := Act.mapAll_of_each (g := fun i => i) each (.refl w')
    have inOrder : (List.range elements.length).map element = elements := by
      refine List.ext_getElem (by simp) fun i inRange _ => ?_
      rw [List.length_map, List.length_range] at inRange
      simp [element, inRange]
    have documents : List.Forall₂ (fun d => Spelled d (some (.ofString "null")))
        (elements.map (w.heap.jsonWithin level)) texts := by
      rw [← inOrder, List.map_map]
      exact List.forall₂_map_left_iff.2 spelled
    obtain ⟨read, denotes, same'⟩ := Json.denotes_sequenceText documents
    refine ⟨_, rfl, _, w₁, read, ?_, more, denotes, ?_⟩
    · rw [Script.documentText_of_sequence silent (same ▸ short) depth outside, same]
      rw [List.map_id'] at runs
      exact Act.bind_of_value runs _
    · rw [List.map_map] at same'
      exact same'

theorem documentsAgree_of_plain {p : PlainId} (reachable : Reachable w)
    (prototypes : SilentPrototypes w) (h : Documented w (.plain p))
    (entries : ∀ v ∈ w.heap.children (.plain p), DocumentsAgree r w v) :
    DocumentsAgree r w (.plain p) := by
  intro w' u path around level depth placed shown _
  obtain ⟨level, depth, rfl, rfl⟩ := placed.positive
  cases shown with
  | @plain p id registered silent =>
    have c := (reachable.of_reaches placed.exposed.steps.reaches).coherent
    have outside : id ∉ around :=
      placed.known.not_mem c registered (Around.not_mem placed.inside h.acyclic)
    let m := w.heap.plain p
    have same : w'.heap.plain p = m := by rw [placed.exposed.heap]
    have holds {e : String × Value} (mem : e ∈ m.toList) : w.heap.Holds (.plain p) e.2 :=
      List.mem_map_of_mem mem
    have live : w'.HoldsLive p := by
      intro k v own
      rw [same, Entries.get?_eq_some_iff] at own
      exact (h.child (holds own)).live.of_runtime_eq placed.exposed.runtime
    obtain ⟨w₁, lists, listed⟩ := Script.listedKeys_of_silent silent live
    let write (key : PropertyKey) : ScriptAct (Option Utf16) := do
      return (← Script.propertyText r depth (id :: around) id key none).map (Script.memberText key)
    have each : ∀ e ∈ m.toList, ∀ {w₂}, Exposed w₁ w₂ → ∃ text w₃,
        write (.ofString e.1) w₂ = (.value text, w₃) ∧ Exposed w₂ w₃ ∧ ∃ value,
          Spelled (w.heap.jsonWithin level e.2) none value ∧
            text = value.map (Script.memberText (.ofString e.1)) := by
      intro e mem w₂ more
      have reads : Script.get r id (.ofString e.1) w₂ =
          Bridge.intoScript (Bridge.toScript e.2) w₂ := by
        obtain ⟨hidden, fronts, _⟩ := Script.fronts_of_silent (silent.later (listed.trans more))
        refine Script.get_of_entry fronts ?_
        rw [World.valueAt?_ofString, more.heap, listed.heap, same, Entries.get?_eq_some_iff]
        exact mem
      obtain ⟨value, w₃, runs, more', spelled⟩ :=
        h.inner_spelled (.plain p) prototypes placed registered (holds mem)
          (entries _ (holds mem)) (listed.trans more) reads none
      exact ⟨_, w₃, Act.bind_of_value runs _, more', value, spelled, rfl⟩
    obtain ⟨texts, w₂, runs, more, spelled⟩ := Act.mapAll_of_each each (.refl w₁)
    let members := m.toList.map fun e => (e.1, w.heap.jsonWithin level e.2)
    have nodup : (members.map Prod.fst).Nodup := by
      rw [List.map_map]
      exact m.nodup
    have documents : List.Forall₂ (fun e text => ∃ value, Spelled e.2 none value ∧
        text = value.map (Script.memberText (.ofString e.1))) members texts :=
      List.forall₂_map_left_iff.2 spelled
    obtain ⟨read, denotes, same'⟩ := Json.denotes_objectText nodup documents
    refine ⟨_, rfl, _, w₂, read, ?_, listed.trans more, denotes, ?_⟩
    · rw [Script.documentText_of_plain silent depth outside, Act.bind_of_value lists, same,
        Entries.keys, List.map_map]
      exact Act.bind_of_value runs _
    · rw [Json.documented, List.filterMap_map] at same'
      exact same'

theorem Documented.documentsAgree (r : Reentry) (reachable : Reachable w)
    (prototypes : SilentPrototypes w) (h : Documented w v) : DocumentsAgree r w v := by
  induction h with
  | primitive primitive => exact documentsAgree_of_primitive r w primitive
  | hostFunction | scriptFunction =>
    intro w' u path around level depth placed shown written
    cases written
  | sequence alone short items ih =>
    exact documentsAgree_of_sequence reachable prototypes (.sequence alone short items) ih
  | plain alone noFunction entries ih =>
    exact documentsAgree_of_plain reachable prototypes (.plain alone noFunction entries) ih

/-! ### Documents that the host makes -/

/-- The rules for documents: numbers lose the sign of a zero, and those that are not finite are
null; what has no document is null in a sequence and left out of a plain object, whose members are
sorted. -/
structure DocumentRules (h : Heap) (v : Value) : Prop where
  absent : h.json v = none ↔ v.isWritten = false
  zero : ∀ d, v = .number d → d.isZero → h.json v = some (.int 0)
  infinite : ∀ d, v = .number d → d.isFinite = false → h.json v = some .null
  sequence : ∀ s, v = .sequence s →
    h.json v = some (.array ((h.sequence s).map fun item => (h.json item).getD .null))
  plain : ∀ p, v = .plain p → h.json v = some (.object (Json.sortMembers
    ((h.plain p).toList.filterMap fun e => (h.json e.2).map (e.1, ·))))

theorem Documented.documentRules (h : Documented w v) : DocumentRules w.heap v where
  absent := w.heap.jsonWithin_eq_none_iff _ v
  zero d same zero := by
    subst same
    exact congrArg some (Json.ofNumber_of_isZero zero)
  infinite d same infinite := by
    subst same
    exact congrArg some (Json.ofNumber_of_not_finite infinite)
  sequence s same := by
    subst same
    exact h.grounded.json_sequence
  plain p same := by
    subst same
    exact h.grounded.json_plain

end

/-! ### Documents of exposed values -/

/-- In a new runtime nothing has a function under `toJSON`. -/
theorem silentPrototypes_fresh {w : World} (h : w.engine = .fresh) : SilentPrototypes w := by
  obtain ⟨root, array, function⟩ :
      Intrinsic.passes Intrinsic.objectPrototype
          (fun o => o.prototype.isNone && (o.properties.get? .toJson).isNone) ∧
        Intrinsic.passes Intrinsic.arrayPrototype
          (fun o => o.prototype = some Intrinsic.objectPrototype &&
            (o.properties.get? .toJson).isNone) ∧
        Intrinsic.passes Intrinsic.functionPrototype
          (fun o => o.prototype = some Intrinsic.objectPrototype &&
            (o.properties.get? .toJson).isNone) := by
    decide +kernel
  have top : Finds w .toJson (some Intrinsic.objectPrototype) .undefined := by
    obtain ⟨o, ordinary, passes⟩ := ordinary_of_passes h root
    obtain ⟨last, lacks⟩ := Bool.and_eq_true_iff.1 passes
    refine .inherited ordinary (Option.isNone_iff_eq_none.1 lacks) ?_
    rw [Option.isNone_iff_eq_none.1 last]
    exact .nothing
  have next {id : ObjectId} (passes : Intrinsic.passes id fun o =>
      o.prototype = some Intrinsic.objectPrototype && (o.properties.get? .toJson).isNone) :
      NoMethod w (some id) := by
    obtain ⟨o, ordinary, passes⟩ := ordinary_of_passes h passes
    obtain ⟨above, lacks⟩ := Bool.and_eq_true_iff.1 passes
    refine ⟨.undefined, .inherited ordinary (Option.isNone_iff_eq_none.1 lacks) ?_, nofun⟩
    rw [of_decide_eq_true above]
    exact top
  exact ⟨⟨.undefined, top, nofun⟩, next array, next function⟩

end ScriptBridge
