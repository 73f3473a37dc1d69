import ScriptBridge.Proofs.DocumentTexts
import ScriptBridge.Proofs.Exposure
import ScriptBridge.Proofs.IndexView

/-!
What stands for a value in a document. Where no function is found under `toJSON`, a value stands for
itself, and a function for nothing.
-/

namespace ScriptBridge

def PropertyKey.toJson : PropertyKey := .ofString "toJSON"

/-- A value that is no function. -/
def Inert (w : World) (v : ScriptValue) : Prop :=
  ∀ id, v = .object id →
    ∃ o, w.engine.objects.get? id.index = some o ∧ o.kind.isFunction = false

/-- From an object on, what is found under `toJSON` is data and no function. -/
def NoMethod (w : World) (start : Option ObjectId) : Prop :=
  ∃ v, Finds w .toJson start v ∧ Inert w v

/-- A function object under whose `toJSON` no function is found. -/
structure SilentFunction (w : World) (id : ObjectId) (o : Object) : Prop where
  found : w.engine.objects.get? id.index = some o
  kind : o.kind.isFunction
  own : ∀ p, o.properties.get? .toJson = some p → ∃ v a b c, p = .data v a b c ∧ Inert w v
  above : o.properties.get? .toJson = none → NoMethod w o.prototype

/-- A stand-in under whose `toJSON` no function is found, unless its container holds one. On that of
a plain object the keys of the entries are listed, and nothing else. -/
inductive Silent (w : World) : Handle → ObjectId → Prop where
  | sequence {s : SequenceId} {id target : ObjectId} {o : Object}
    {methods : List (SequenceMethod × ObjectId)} (found : w.engine.objects.get? id.index = some o)
    (kind : o.kind = .sequenceProxy s target methods) (above : NoMethod w (some target)) :
    Silent w (.sequence s) id
  | plain {p : PlainId} {id target : ObjectId} {o hidden : Object}
    (found : w.engine.objects.get? id.index = some o) (kind : o.kind = .plainProxy p target)
    (under : w.engine.objects.get? target.index = some hidden) (ordinary : hidden.kind = .ordinary)
    (once : (w.ownKeyList p hidden).Nodup)
    (unlisted : ∀ key ∈ hidden.ownKeys, w.lists p hidden key = false)
    (above : NoMethod w (some target)) : Silent w (.plain p) id
  | function {f : HostFunctionId} {id : ObjectId} {o : Object} (h : SilentFunction w id o) :
    Silent w (.function f) id

/-- The prototypes of what the bridge makes have no function under `toJSON`. -/
structure SilentPrototypes (w : World) : Prop where
  object : NoMethod w (some Intrinsic.objectPrototype)
  array : NoMethod w (some Intrinsic.arrayPrototype)
  function : NoMethod w (some Intrinsic.functionPrototype)

section

variable {r : Reentry} {w w' : World} {id : ObjectId} {handle : Handle} {o : Object}
  {v : ScriptValue} {start : Option ObjectId}

/-! ### Exposing more -/

theorem Inert.later (h : Inert w v) (exposed : Exposed w w') : Inert w' v := by
  intro id same
  obtain ⟨o, found, kind⟩ := h id same
  exact ⟨o, exposed.objects _ _ found, kind⟩

theorem NoMethod.later (h : NoMethod w start) (exposed : Exposed w w') : NoMethod w' start := by
  obtain ⟨v, finds, inert⟩ := h
  exact ⟨v, finds.of_objects fun _ _ => exposed.ordinary, inert.later exposed⟩

theorem SilentFunction.later (h : SilentFunction w id o) (exposed : Exposed w w') :
    SilentFunction w' id o where
  found := exposed.objects _ _ h.found
  kind := h.kind
  own p here := by
    obtain ⟨v, a, b, c, data, inert⟩ := h.own p here
    exact ⟨v, a, b, c, data, inert.later exposed⟩
  above lacks := (h.above lacks).later exposed

theorem Silent.later (h : Silent w handle id) (exposed : Exposed w w') : Silent w' handle id := by
  cases h with
  | sequence found kind above =>
    exact .sequence (exposed.objects _ _ found) kind (above.later exposed)
  | @plain p id target o hidden found kind under ordinary once unlisted above =>
    have once' : (w'.ownKeyList p hidden).Nodup := by
      rw [World.ownKeyList, exposed.heap]
      exact once
    have unlisted' : ∀ key ∈ hidden.ownKeys, w'.lists p hidden key = false := by
      intro key mem
      rw [World.lists, World.valueAt?, exposed.heap]
      exact unlisted key mem
    exact .plain (exposed.objects _ _ found) kind (exposed.objects _ _ under) ordinary once'
      unlisted' (above.later exposed)
  | function h => exact .function (h.later exposed)

theorem SilentPrototypes.later (h : SilentPrototypes w) (exposed : Exposed w w') :
    SilentPrototypes w' :=
  ⟨h.object.later exposed, h.array.later exposed, h.function.later exposed⟩

/-- Stand-ins are made without a `toJSON`. -/
theorem NewStandIn.silent (h : NewStandIn w handle id) (prototypes : SilentPrototypes w) :
    Silent w handle id := by
  cases h with
  | sequence found kind under =>
    obtain ⟨v, finds, inert⟩ := prototypes.array
    have lacks : Bridge.emptyArray.properties.get? .toJson = none := by decide
    exact .sequence found kind ⟨v, .inherited under lacks finds, inert⟩
  | @plain p id fronts =>
    obtain ⟨o, target, found, kind, under⟩ := fronts.found
    obtain ⟨v, finds, inert⟩ := prototypes.object
    have unlisted : ∀ key ∈ Object.blank.ownKeys, w.lists p .blank key = false := by
      rw [Object.ownKeys_blank]
      exact nofun
    exact .plain found kind under rfl (w.nodup_ownKeyList_blank _) unlisted
      ⟨v, .inherited ⟨under, rfl⟩ rfl finds, inert⟩
  | @function f id name length found =>
    have lacks :
        (Object.function (.hostFunction f) name length).properties.get? .toJson = none := by
      have notName : PropertyKey.ofString "name" ≠ .toJson := by decide
      have notLength : PropertyKey.length ≠ .toJson := by decide
      rw [Object.function, Entries.get?_insert_of_ne _ notName,
        Entries.get?_insert_of_ne _ notLength, Entries.get?_empty]
    refine .function ⟨found, rfl, fun p here => ?_, fun _ => prototypes.function⟩
    rw [lacks] at here
    cases here

/-- What holds of the stand-in of a handle, if there is one, holds of the one it gets. -/
theorem silent_of_exposed
    (h : ∀ id, w.engine.registry.standIn? handle = some id → Silent w handle id)
    (prototypes : SilentPrototypes w) (exposed : Exposed w w')
    (registered : w'.engine.registry.standIn? handle = some id) : Silent w' handle id :=
  match exposed.standIns handle id registered with
  | .inl before => (h id before).later exposed
  | .inr new => new.silent (prototypes.later exposed)

end

namespace Script

variable {r : Reentry} {w w₁ : World} {id : ObjectId} {o : Object} {v : ScriptValue}
  {key : PropertyKey}

/-! ### Calling and asking -/

theorem callable?_of_inert (h : Inert w v) : callable? v w = (.value none, w) := by
  cases v with
  | object id =>
    obtain ⟨o, found, kind⟩ := h id rfl
    rw [callable?_of_found found, kind]
    rfl
  | _ => rfl

theorem get_of_silentFunction (h : SilentFunction w id o) :
    ∃ v, get r id .toJson w = (.value v, w) ∧ Inert w v := by
  have noTarget := ObjectKind.target?_of_isFunction h.kind
  rw [get, chainBound, Act.read_bind, getFrom_properties h.found noTarget]
  cases here : o.properties.get? .toJson with
  | some p =>
    obtain ⟨v, a, b, c, rfl, inert⟩ := h.own p here
    exact ⟨v, rfl, inert⟩
  | none =>
    obtain ⟨v, finds, inert⟩ := h.above here
    exact ⟨v, finds.getFrom_eq _ (Nat.le_refl _), inert⟩

theorem get_of_silentSequence {s : SequenceId} (h : Silent w (.sequence s) id) :
    ∃ v, get r id .toJson w = (.value v, w) ∧ Inert w v := by
  cases h with
  | @sequence s id target o methods found kind above =>
    obtain ⟨v, finds, inert⟩ := above
    refine ⟨v, ?_, inert⟩
    have name : PropertyKey.toJson = .name (.ofString "toJSON") := by decide
    have noIndex (n : Nat) : PropertyKey.toJson ≠ .index n := by
      rw [name]
      exact nofun
    rw [get, chainBound, Act.read_bind,
      getFrom_sequence found kind noIndex (by decide) (by decide),
      finds.getFrom_eq _ (Nat.le_refl _)]

theorem fronts_of_silent {p : PlainId} (h : Silent w (.plain p) id) :
    ∃ hidden, Fronts w id p hidden ∧ (w.ownKeyList p hidden).Nodup ∧
      ∀ key ∈ hidden.ownKeys, w.lists p hidden key = false := by
  cases h with
  | @plain p id target o hidden found kind under ordinary once unlisted above =>
    have stands : Stands w id (.plain p) := ⟨o, found, by rw [kind]; rfl⟩
    refine ⟨hidden, ⟨stands, ?_, ordinary⟩, once, unlisted⟩
    rw [World.hidden?, found, Option.bind_some, kind]
    exact under

/-- A plain object is asked first, and what it holds crosses. -/
theorem get_of_silentPlain {p : PlainId} (h : Silent w (.plain p) id)
    (entry : ∀ x, (w.heap.plain p).get? "toJSON" = some x →
      ∃ v w₁, Bridge.toScript x w = (.value v, w₁) ∧ Inert w₁ v) :
    ∃ v w₁, get r id .toJson w = (.value v, w₁) ∧ Inert w₁ v ∧ Exposed w w₁ := by
  have asks : (plainKey? .toJson).bind (w.heap.plain p).get? = (w.heap.plain p).get? "toJSON" :=
    w.valueAt?_ofString p "toJSON"
  cases own : (w.heap.plain p).get? "toJSON" with
  | some x =>
    obtain ⟨v, w₁, crosses, inert⟩ := entry x own
    obtain ⟨hidden, fronts, _⟩ := fronts_of_silent h
    refine ⟨v, w₁, ?_, inert, Bridge.exposed_toScript crosses⟩
    rw [get_of_entry fronts (asks.trans own)]
    exact Act.recover_of_value crosses _
  | none =>
    cases h with
    | @plain p id target o hidden found kind under ordinary once unlisted above =>
      obtain ⟨v, finds, inert⟩ := above
      refine ⟨v, w, ?_, inert, .refl w⟩
      rw [get, chainBound, Act.read_bind, getFrom_plain found kind (asks.trans own),
        finds.getFrom_eq _ (Nat.le_refl _)]

/-! ### What stands for a value -/

theorem documentValue_of_object (r : Reentry) (key : Utf16)
    (asked : get r id .toJson w = (.value v, w₁)) (inert : Inert w₁ v)
    (found : w₁.engine.objects.get? id.index = some o) :
    documentValue r key (.object id) w =
      (.value (if o.kind.isFunction then .undefined else .object id), w₁) := by
  have asked' : getValue r (.object id) (.ofString "toJSON") w = (.value v, w₁) := asked
  unfold documentValue
  refine (Act.bind_of_value asked' _).trans ?_
  refine (Act.bind_of_value (callable?_of_inert inert) _).trans ?_
  cases kind : o.kind.isFunction with
  | true =>
    exact Act.bind_of_value (callable?_of_function found kind) _
  | false =>
    have noFunction : Inert w₁ (.object id) := by
      intro id' same
      cases same
      exact ⟨o, found, kind⟩
    exact Act.bind_of_value (callable?_of_inert noFunction) _

end Script

/-! ### Reading a stand-in -/

namespace Script

variable {r : Reentry} {w : World} {id : ObjectId} {o : Object} {key : PropertyKey}

theorem lengthOf_eq {n : Nat} (h : n < 2 ^ 53)
    (reads : get r id .length w = (.value (.number (.ofNat n)), w)) :
    lengthOf r id w = (.value n, w) := by
  have integer : toInteger r (.number (.ofNat n)) w = (.value (.ofNat n), w) :=
    congrArg (fun d => (Outcome.value d, w))
      (Number.toIntegerOrInfinity_ofNat (Double.representable_whole (Nat.le_of_lt h)))
  rw [lengthOf, Act.bind_of_value reads, Act.bind_of_value integer]
  exact congrArg (fun n => (Outcome.value n, w)) (Double.toWord_ofNat (Nat.le_of_lt h) h)

/-- A stand-in wraps no primitive. -/
theorem unwrapped_of_target {target : ObjectId} (found : w.engine.objects.get? id.index = some o)
    (aims : o.kind.target? = some target) :
    unwrapped (.object id) w = (.value (.object id), w) := by
  rw [unwrapped, Act.object?_bind found]
  split
  · rename_i wraps
    cases wraps
    cases aims
  · rename_i wraps
    cases wraps
    cases aims
  · rfl

/-- The text of a property in a document, or what stands for an absent one. -/
def propertyText (r : Reentry) (depth : Nat) (around : List ObjectId) (id : ObjectId)
    (key : PropertyKey) (absent : Option Utf16) : ScriptAct (Option Utf16) := do
  match ← documentValue r (key.text?.getD []) (← get r id key) with
  | .undefined => return absent
  | v => return some (← documentText r depth around v)

theorem listedKeys_of_silent {p : PlainId} (silent : Silent w (.plain p) id)
    (live : w.HoldsLive p) : ∃ w₁, listedKeys id w =
      (.value ((w.heap.plain p).keys.map .ofString), w₁) ∧ Exposed w w₁ := by
  obtain ⟨hidden, fronts, once, unlisted⟩ := fronts_of_silent silent
  obtain ⟨w₁, lists, exposed⟩ := listedKeys_of_nodup (E := .exposing) Bridge.toScript_exposing
    Exposed.objectsKept fronts once live
  refine ⟨w₁, ?_, exposed⟩
  have entries : ((w.heap.plain p).keys.map PropertyKey.ofString).filter (w.lists p hidden) =
      (w.heap.plain p).keys.map .ofString := by
    refine List.filter_eq_self.2 fun key listed => ?_
    obtain ⟨k, mem, rfl⟩ := List.mem_map.1 listed
    exact World.lists_of_mem mem
  have others : hidden.ownKeys.filter (w.lists p hidden) = [] :=
    List.filter_eq_nil_iff.2 fun key mem => Bool.eq_false_iff.1 (unlisted key mem)
  rw [lists, World.ownKeyList, List.filter_append, entries, others, List.append_nil]

theorem documentText_of_sequence {s : SequenceId} (silent : Silent w (.sequence s) id)
    (short : (w.heap.sequence s).length ≤ PropertyKey.indexLimit) (depth : Nat)
    {around : List ObjectId} (outside : id ∉ around) :
    documentText r (depth + 1) around (.object id) w =
      (do return sequenceText (← Act.mapAll
        (fun i => propertyText r depth (id :: around) id (.ofNat i) (some (.ofString "null")))
        (List.range (w.heap.sequence s).length)) : ScriptAct Utf16) w := by
  cases silent with
  | @sequence s id target o methods found kind above =>
    have itself := unwrapped_of_target found (by rw [kind]; rfl)
    have array : (isArray (.object id) : ScriptAct Bool) w = (.value true, w) := by
      rw [isArray_of_found found, kind]
    have length : lengthOf r id w = (.value (w.heap.sequence s).length, w) := by
      refine lengthOf_eq (Nat.lt_of_le_of_lt short (by decide)) ?_
      exact get_length found kind
    unfold documentText
    rw [Act.bind_of_value itself]
    simp only [if_neg outside]
    rw [Act.bind_of_value array]
    simp only [if_true]
    rw [Act.bind_of_value length]
    rfl

theorem documentText_of_plain {p : PlainId} (silent : Silent w (.plain p) id) (depth : Nat)
    {around : List ObjectId} (outside : id ∉ around) :
    documentText r (depth + 1) around (.object id) w =
      (do return objectText (← Act.mapAll
        (fun key => do
          return (← propertyText r depth (id :: around) id key none).map (memberText key))
        (← listedKeys id)) : ScriptAct Utf16) w := by
  cases silent with
  | plain found kind =>
    have itself := unwrapped_of_target found (by rw [kind]; rfl)
    have noArray : (isArray (.object id) : ScriptAct Bool) w = (.value false, w) := by
      rw [isArray_of_found found, kind]
    unfold documentText
    rw [Act.bind_of_value itself]
    simp only [if_neg outside]
    rw [Act.bind_of_value noArray]
    rfl

end Script

end ScriptBridge
