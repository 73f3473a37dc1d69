import ScriptBridge.Bridge.ToHost
import ScriptBridge.Proofs.Answers
import ScriptBridge.Proofs.StandIns

/-!
Reading objects that stand for nothing: their own properties come first, then those along their
prototypes. And how objects reach the host: by their handle, by copy, or by reference.
-/

namespace ScriptBridge

variable {r : Reentry} {w : World} {id : ObjectId} {o : Object}

/-- An object of the script heap that stands for nothing. -/
structure Ordinary (w : World) (id : ObjectId) (o : Object) : Prop where
  found : w.engine.objects.get? id.index = some o
  standsFor : o.kind.standsFor? = none

namespace Ordinary

theorem lt_size (h : Ordinary w id o) : id.index < w.engine.objects.size :=
  (Array.getElem?_eq_some_iff.1 h.found).1

theorem unique {o' : Object} (h : Ordinary w id o) (h' : Ordinary w id o') : o = o' :=
  Option.some.inj (h.found.symm.trans h'.found)

theorem noTarget (h : Ordinary w id o) : o.kind.target? = none :=
  ObjectKind.target?_of_standsFor h.standsFor

/-- Only stand-ins are registered. -/
theorem unregistered (h : Ordinary w id o) (c : w.engine.Coherent) :
    w.engine.registry.resolve? id = none := by
  cases resolved : w.engine.registry.resolve? id with
  | none => rfl
  | some handle =>
    obtain ⟨q, found, standsFor⟩ :=
      c.standsFor handle id (c.registry.resolve?_eq_some_iff.1 resolved)
    rw [h.found] at found
    cases found
    rw [h.standsFor] at standsFor
    cases standsFor

end Ordinary

namespace Script

/-! ### Properties -/

theorem getFrom_of_ordinary (h : Ordinary w id o) (receiver : ScriptValue) (key : PropertyKey)
    (steps : Nat) :
    getFrom r receiver key (steps + 1) (some id) w =
      (match o.properties.get? key with
        | some (.data v ..) => Pure.pure v
        | some (.accessor (some getter) ..) => r.call getter receiver []
        | some (.accessor none ..) => Pure.pure .undefined
        | none => getFrom r receiver key steps o.prototype : ScriptAct ScriptValue) w :=
  getFrom_properties h.found h.noTarget

theorem getFrom_of_own (h : Ordinary w id o) {key : PropertyKey} {v : ScriptValue} {a b c : Bool}
    (own : o.properties.get? key = some (.data v a b c)) (receiver : ScriptValue) (steps : Nat) :
    getFrom r receiver key (steps + 1) (some id) w = (.value v, w) := by
  rw [getFrom_of_ordinary h, own]
  rfl

theorem get_of_own (h : Ordinary w id o) {key : PropertyKey} {v : ScriptValue} {a b c : Bool}
    (own : o.properties.get? key = some (.data v a b c)) : get r id key w = (.value v, w) :=
  getFrom_of_own h own _ _

/-- A property that an object lacks is read from its prototype. -/
theorem get_of_prototype (h : Ordinary w id o) {key : PropertyKey}
    (lacks : o.properties.get? key = none) {p : ObjectId} (prototype : o.prototype = some p)
    {q : Object} (h' : Ordinary w p q) {v : ScriptValue} {a b c : Bool}
    (own : q.properties.get? key = some (.data v a b c)) : get r id key w = (.value v, w) := by
  obtain ⟨steps, size⟩ := Nat.exists_eq_add_of_lt h'.lt_size
  change getFrom r (.object id) key (w.engine.objects.size + 1) (some id) w = _
  rw [getFrom_of_ordinary h, lacks, size]
  simp only [prototype]
  exact getFrom_of_own h' own _ _

theorem callable?_of_function (found : w.engine.objects.get? id.index = some o)
    (kind : o.kind.isFunction) : callable? (.object id) w = (.value (some id), w) := by
  rw [callable?_of_found found, if_pos kind]

/-! ### Prototypes -/

theorem prototypeOf_of_ordinary {ε : Type} (h : Ordinary w id o) :
    (prototypeOf id : Act ε _) w = (.value o.prototype, w) :=
  prototypeOf_of_no_target h.found h.noTarget

theorem inheritsWithin_of_ordinary {ε : Type} (h : Ordinary w id o) (prototype : ObjectId)
    (steps : Nat) :
    (inheritsWithin prototype (steps + 1) id : Act ε Bool) w =
      (match o.prototype with
        | none => Pure.pure false
        | some p =>
          if p = prototype then Pure.pure true else inheritsWithin prototype steps p :
        Act ε Bool) w :=
  Act.bind_of_value (prototypeOf_of_ordinary h) _

theorem inherits_of_prototype {ε : Type} (h : Ordinary w id o) {p : ObjectId}
    (prototype : o.prototype = some p) : (inherits id p : Act ε Bool) w = (.value true, w) := by
  rw [inherits, chainBound, Act.read_bind, inheritsWithin_of_ordinary h]
  simp only [prototype, if_true]
  rfl

end Script

/-! ### Into the host -/

namespace Bridge

theorem toHost_string {t : Utf16} {s : String} (h : t.toString? = some s) (w : World) :
    toHost r (.string t) w = (.value (.string s), w) := by
  unfold toHost nestingLimit toHostWithin valueToHost
  simp only [h]
  rfl

section

variable (copyArray : ObjectId → HostAct Value)

theorem valueToHost_of_registered (c : w.engine.Coherent) {handle : Handle}
    (h : w.engine.registry.standIn? handle = some id) :
    valueToHost r copyArray (.object id) w = (.value handle.value, w) := by
  have resolved := c.registry.resolve?_eq_some_iff.2 h
  change (handleOf? id >>= _) w = _
  rw [handleOf?, Act.read_bind, resolved]
  rfl

theorem valueToHost_of_ordinary (c : w.engine.Coherent) (h : Ordinary w id o) :
    valueToHost r copyArray (.object id) w =
      (match o.kind with
        | .function _ => holdFunction r id
        | .array => copyArray id
        | _ => objectToHost r id o : HostAct Value) w := by
  have noHandle : (handleOf? id : HostAct _) w = (.value none, w) :=
    congrArg (Outcome.value ·, w) (h.unregistered c)
  have object : (Act.object? id : HostAct _) w = (.value (some o), w) :=
    congrArg (Outcome.value ·, w) h.found
  exact (Act.bind_of_value noHandle _).trans (Act.bind_of_value object _)

theorem valueToHost_of_plain (c : w.engine.Coherent) (h : Ordinary w id o)
    (noFunction : ∀ code, o.kind ≠ .function code) (noArray : o.kind ≠ .array) :
    valueToHost r copyArray (.object id) w = objectToHost r id o w := by
  rw [valueToHost_of_ordinary copyArray c h]
  split
  · exact absurd ‹_› (noFunction _)
  · exact absurd ‹_› noArray
  · rfl

end

theorem toHost_of_registered (c : w.engine.Coherent) {handle : Handle}
    (h : w.engine.registry.standIn? handle = some id) :
    toHost r (.object id) w = (.value handle.value, w) :=
  valueToHost_of_registered _ c h

theorem toHost_of_ordinary (c : w.engine.Coherent) (h : Ordinary w id o) :
    toHost r (.object id) w =
      (match o.kind with
        | .function _ => holdFunction r id
        | .array => copyElements r (toHostWithin r 511) id
        | _ => objectToHost r id o : HostAct Value) w :=
  valueToHost_of_ordinary _ c h

end Bridge

end ScriptBridge
