import ScriptBridge.Proofs.DataReads
import ScriptBridge.Proofs.MapView

/-!
Exposing host values to scripts. It adds objects to the script heap and changes none of those that
are there, and the stand-ins it adds are as the bridge makes them.
-/

namespace ScriptBridge

/-- A stand-in that is as it was made. -/
inductive NewStandIn (w : World) : Handle → ObjectId → Prop where
  | sequence {s : SequenceId} {id target : ObjectId} {o : Object}
    {methods : List (SequenceMethod × ObjectId)} (found : w.engine.objects.get? id.index = some o)
    (kind : o.kind = .sequenceProxy s target methods)
    (under : Ordinary w target Bridge.emptyArray) : NewStandIn w (.sequence s) id
  | plain {p : PlainId} {id : ObjectId} (h : Fronts w id p .blank) : NewStandIn w (.plain p) id
  | function {f : HostFunctionId} {id : ObjectId} {name : Utf16} {length : Nat}
    (found : w.engine.objects.get? id.index = some (.function (.hostFunction f) name length)) :
    NewStandIn w (.function f) id

/-- A change by which the script heap got further objects, and no stand-ins but new ones. -/
structure Exposed (w w' : World) : Prop where
  heap : w'.heap = w.heap
  runtime : w'.runtime = w.runtime
  objects : ∀ i o, w.engine.objects.get? i = some o → w'.engine.objects.get? i = some o
  standIns : ∀ handle id, w'.engine.registry.standIn? handle = some id →
    w.engine.registry.standIn? handle = some id ∨ NewStandIn w' handle id
  steps : Steps w w'

namespace Exposed

variable {w w₁ w₂ : World} {handle : Handle} {id : ObjectId} {o : Object}

theorem objectsKept (h : Exposed w w₁) : ObjectsKept w w₁ :=
  ⟨h.heap, h.runtime, fun i o found _ => h.objects i o found, h.steps⟩

theorem ordinary (h : Exposed w w₁) (there : Ordinary w id o) : Ordinary w₁ id o :=
  ⟨h.objects _ _ there.found, there.standsFor⟩

theorem standIn?_eq (h : Exposed w w₁) (found : w.engine.registry.standIn? handle = some id) :
    w₁.engine.registry.standIn? handle = some id :=
  h.steps.reaches.standIn?_eq h.runtime found

theorem newStandIn (h : Exposed w w₁) (new : NewStandIn w handle id) :
    NewStandIn w₁ handle id := by
  cases new with
  | sequence found kind under => exact .sequence (h.objects _ _ found) kind (h.ordinary under)
  | plain fronts => exact .plain (fronts.of_objectsKept h.objectsKept)
  | function found => exact .function (h.objects _ _ found)

theorem refl (w : World) : Exposed w w :=
  ⟨rfl, rfl, fun _ _ found => found, fun _ _ found => .inl found, .refl w⟩

theorem trans (h : Exposed w w₁) (h' : Exposed w₁ w₂) : Exposed w w₂ where
  heap := h'.heap.trans h.heap
  runtime := h'.runtime.trans h.runtime
  objects i o found := h'.objects i o (h.objects i o found)
  standIns handle id found :=
    match h'.standIns handle id found with
    | .inl before => (h.standIns handle id before).imp_right h'.newStandIn
    | .inr new => .inr new
  steps := h.steps.trans h'.steps

end Exposed

def Effect.exposing : Effect := ⟨Exposed, .refl, .trans⟩

namespace Bridge

variable {w w' : World}

theorem exposed_withObject (w : World) {o : Object} (h : o.kind.standsFor? = none) :
    Exposed w (w.withObject o) :=
  ⟨rfl, rfl, fun _ _ found => ObjectHeap.get?_push_of_some found o, fun _ _ found => .inl found,
    .single (.engine w _ (.objectAdded w.engine o h))⟩

theorem exposed_expose {ε : Type} (w : World) {handle : Handle} {o : Object}
    (h : o.kind.standsFor? = some handle) (bare : o.kind.methods = [])
    (new : NewStandIn { w with engine := w.engine.expose handle o } handle
      ⟨w.engine.objects.size⟩) :
    Exposed w ((Act.expose handle o h bare : Act ε _) w).2 := by
  have steps := (Act.expose handle o h bare : Act ε _).steps w
  cases found : w.engine.registry.standIn? handle with
  | some id =>
    rw [Act.expose_of_registered h bare found]
    exact .refl w
  | none =>
    rw [Act.expose_of_new h bare found] at steps ⊢
    refine ⟨rfl, rfl, fun _ _ found => ObjectHeap.get?_push_of_some found o,
      fun other id found => ?_, steps⟩
    rw [Engine.expose, Registry.standIn?_register] at found
    split at found
    · rename_i same
      cases same
      cases found
      exact .inr new
    · exact .inl found

theorem exposed_newStandIn (handle : Handle) (w : World) :
    Exposed w (newStandIn handle w).2 := by
  -- a stand-in lies right behind its target on the heap
  have last (w : World) (handle : Handle) (o : Object) :
      ({ w with engine := w.engine.expose handle o } : World).engine.objects.get?
        w.engine.objects.size = some o :=
    (Arena.get?_push _ _ _).trans (if_pos rfl)
  have before {w : World} {id : ObjectId} {hidden : Object} (under : Ordinary w id hidden)
      (handle : Handle) (o : Object) :
      Ordinary { w with engine := w.engine.expose handle o } id hidden :=
    ⟨ObjectHeap.get?_push_of_some under.found o, under.standsFor⟩
  cases handle with
  | sequence s =>
    have under := w.ordinary_withObject (o := emptyArray) rfl
    refine (exposed_withObject w (o := emptyArray) rfl).trans (exposed_expose _ rfl rfl ?_)
    exact .sequence (last _ _ _) rfl (before under _ _)
  | plain p =>
    have under := w.ordinary_withObject (o := .blank) rfl
    refine (exposed_withObject w (o := .blank) rfl).trans (exposed_expose _ rfl rfl (.plain ?_))
    refine ⟨⟨_, last _ _ _, rfl⟩, ?_, rfl⟩
    rw [World.hidden?, last]
    exact (before under _ _).found
  | function f =>
    simp only [newStandIn, Act.read_bind]
    exact exposed_expose w _ rfl (.function (last _ _ _))

theorem exposed_standIn (handle : Handle) (w : World) : Exposed w (standIn handle w).2 := by
  rw [standIn, standIn?, Act.read_bind]
  cases w.engine.registry.standIn? handle with
  | some id => exact .refl w
  | none =>
    refine Act.Within.bind (E := .exposing) (fun u => ?_) (fun _ => .pure _) w
    exact exposed_newStandIn handle u

theorem toScript_exposing (v : Value) : (toScript v).Within .exposing := by
  have newObject (o : Object) (h : o.kind.standsFor? = none) :
      (Act.newObject o h : HostAct _).Within .exposing :=
    fun w => exposed_withObject w h
  cases v with
  | undefined | null | bool | number | string => exact .pure _
  | sequence | plain => exact exposed_standIn _
  | function f =>
    cases f with
    | host id => exact exposed_standIn _
    | script ref name => exact .bind (restore_within _ ref) fun _ => .pure _
  | date | error => exact .bind (newObject _ rfl) fun _ => .pure _
  | object ref => exact .bind (restore_within _ ref) fun _ => .pure _

theorem exposed_toScript {v : Value} {v' : ScriptValue}
    (crosses : toScript v w = (.value v', w')) : Exposed w w' := by
  have within := toScript_exposing v w
  rwa [crosses] at within

end Bridge

end ScriptBridge
