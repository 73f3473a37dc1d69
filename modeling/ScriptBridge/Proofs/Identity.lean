import ScriptBridge.Proofs.Data
import ScriptBridge.Proofs.Effects
import ScriptBridge.Session

/-!
Identity across the boundary. A handle of the host has one object in the script and an object of the
script one identity on the host, over any run of one runtime.
-/

namespace ScriptBridge

/-! ### Handles -/

theorem Bridge.toScript_handle (handle : Handle) : toScript handle.value = standIn handle := by
  cases handle <;> rfl

/-- Two handles never share a stand-in. -/
theorem Engine.Coherent.handle_eq {e : Engine} (c : e.Coherent) {handle handle' : Handle}
    {id : ObjectId} (h : e.registry.standIn? handle = some id)
    (h' : e.registry.standIn? handle' = some id) : handle = handle' := by
  have resolved := c.registry.resolve?_eq_some_iff.2 h
  rw [c.registry.resolve?_eq_some_iff.2 h'] at resolved
  exact (Option.some.inj resolved).symm

theorem Handle.strictEquals_self (handle : Handle) : handle.value.strictEquals handle.value := by
  cases handle <;> simp [Handle.value, Value.strictEquals, Callback.same]

/-! ### References -/

/-- The reference into the script that a value is. -/
def Value.reference? : Value → Option ScriptRef
  | .object ref | .function (.script ref _) => some ref
  | _ => none

/-- A reference to an object under the identity by which the host holds it. -/
structure Refers (w : World) (ref : ScriptRef) (id : ObjectId) : Prop where
  object : ref.object = id
  runtime : ref.runtime = w.runtime
  number : ref.number < w.engine.roots.taken
  held : ∃ i, ref.identity = i + 1 ∧ w.engine.held[i]? = some id

namespace Refers

variable {w w' : World} {ref ref' : ScriptRef} {id id' : ObjectId}

theorem of_reaches (h : Refers w ref id) (run : Reaches w w') (live : w'.runtime = w.runtime) :
    Refers w' ref id := by
  obtain ⟨object, runtime, number, i, identity, held⟩ := h
  obtain ⟨more, kept⟩ := (run.later live).held
  have inside : i < w.engine.held.length := (List.getElem?_eq_some_iff.1 held).1
  have taken := (run.later live).taken
  refine ⟨object, runtime.trans live.symm, by omega, i, identity, ?_⟩
  rw [← kept, List.getElem?_append_left inside, held]

/-- Identities tell objects apart. -/
theorem identity_eq_iff (c : w.engine.Coherent) (h : Refers w ref id) (h' : Refers w ref' id') :
    ref.identity = ref'.identity ↔ id = id' := by
  obtain ⟨_, _, _, i, identity, held⟩ := h
  obtain ⟨_, _, _, j, identity', held'⟩ := h'
  rw [identity, identity']
  constructor
  · intro same
    obtain rfl : i = j := by omega
    rw [held] at held'
    exact Option.some.inj held'
  · rintro rfl
    have inside := (List.getElem?_eq_some_iff.1 held).1
    rw [(List.getElem?_inj inside c.held).1 (held.trans held'.symm)]

end Refers

/-- How a value holds an object by reference: a function as one, and another object as one. -/
def HoldsAs (o : Object) (v : Value) (ref : ScriptRef) : Prop :=
  if o.kind.isFunction then ∃ name, v = .function (.script ref name) else v = .object ref

/-! ### Taking references -/

namespace Bridge

variable {r : Reentry} {w w₁ : World} {id : ObjectId}

theorem identify_held (id : ObjectId) (w : World) :
    ∃ i w', (Act.identify id : HostAct _) w = (.value (i + 1), w') ∧ w'.runtime = w.runtime ∧
      w'.engine.held[i]? = some id := by
  obtain ⟨i, held, identified, here⟩ := Act.identify_eq (ε := Error) id w
  exact ⟨i, _, identified, rfl, here⟩

theorem hold_refers (id : ObjectId) (w : World) :
    ∃ ref w', hold id w = (.value ref, w') ∧ Refers w' ref id := by
  obtain ⟨i, w', identified, _, held⟩ := identify_held id w
  let number := w'.engine.roots.taken
  exact ⟨{ identity := i + 1, runtime := w'.runtime, number, object := id },
    { w' with engine := { w'.engine with roots := w'.engine.roots.take } },
    Act.bind_of_value identified _, rfl, rfl, Nat.lt_succ_self number, i, rfl, held⟩

theorem refers_of_hold {ref : ScriptRef} (h : hold id w = (.value ref, w₁)) : Refers w₁ ref id := by
  obtain ⟨ref', w', here, refers⟩ := hold_refers id w
  rw [h] at here
  cases here
  exact refers

/-- A reference was taken at some moment of a conversion. -/
def TakenBetween (w w₁ : World) (ref : ScriptRef) (id : ObjectId) : Prop :=
  ∃ w₀ w', Reaches w w₀ ∧ hold id w₀ = (.value ref, w') ∧ Reaches w' w₁

theorem TakenBetween.refers {ref : ScriptRef} (h : TakenBetween w w₁ ref id)
    (live : w₁.runtime = w.runtime) : Refers w₁ ref id := by
  obtain ⟨w₀, w', before, holds, after⟩ := h
  have le := (before.trans (Act.reaches holds)).runtime_le
  have le' := after.runtime_le
  exact (refers_of_hold holds).of_reaches after (by omega)

theorem infallible_holdFunction : (holdFunction r id).Infallible := by
  have infallible_hold : (hold id).Infallible := by
    intro w e w' fails
    obtain ⟨ref, w₁, holds, _⟩ := hold_refers id w
    rw [holds] at fails
    cases fails
  refine infallible_hold.bind fun ref => .bind (.bind (.attempt _) fun v => ?_) fun _ => .pure _
  split
  · exact .recover _ fun _ => .pure _
  · exact .pure _

theorem intoHost_throws {α : Type} (message : String) {v : α} :
    intoHost r (Act.throwType message) w ≠ (.value v, w₁) := by
  intro h
  have thrown : ∃ e w₀, (Act.throwType message : ScriptAct α) w = (.failure e, w₀) := ⟨_, _, rfl⟩
  obtain ⟨e, w₀, thrown⟩ := thrown
  rw [intoHost, Act.recover_of_failure thrown] at h
  obtain ⟨_, _, _, fails⟩ := Act.of_bind_value h
  cases fails

variable {o : Object} {v : Value} {ref : ScriptRef}

theorem holdFunction_takes (h : holdFunction r id w = (.value v, w₁)) :
    ∃ ref name, v = .function (.script ref name) ∧ TakenBetween w w₁ ref id := by
  obtain ⟨ref, w₀, holds, rest⟩ := Act.of_bind_value h
  obtain ⟨name, w₂, reads, last⟩ := Act.of_bind_value rest
  cases last
  exact ⟨ref, _, rfl, w, w₀, .refl w, holds, Act.reaches reads⟩

theorem objectToHost_takes (h : objectToHost r id o w = (.value v, w₁))
    (isRef : v.reference? = some ref) : v = .object ref ∧ TakenBetween w w₁ ref id := by
  obtain ⟨isDate, w₂, asked, rest⟩ := Act.of_bind_value h
  split at rest
  · split at rest
    · rename_i millis _
      unfold dateValue at rest
      split at rest
      · cases rest
      · split at rest
        · cases rest
          cases isRef
        · cases rest
    · exact absurd rest (intoHost_throws _)
  · obtain ⟨isError, w₃, asked', rest⟩ := Act.of_bind_value rest
    split at rest
    · obtain ⟨_, _, _, rest⟩ := Act.of_bind_value rest
      obtain ⟨_, _, _, rest⟩ := Act.of_bind_value rest
      obtain ⟨_, _, _, rest⟩ := Act.of_bind_value rest
      cases rest
      cases isRef
    · obtain ⟨ref', w₄, holds, last⟩ := Act.of_bind_value rest
      cases last
      cases isRef
      exact ⟨rfl, w₃, w₁, (Act.reaches asked).trans (Act.reaches asked'), holds, .refl w₁⟩

theorem copyElements_noReference {convert : ScriptValue → HostAct Value}
    (h : copyElements r convert id w = (.value v, w₁)) : v.reference? = none := by
  obtain ⟨length, w₂, _, rest⟩ := Act.of_bind_value h
  rw [Act.read_bind] at rest
  split at rest
  · cases rest
  · obtain ⟨items, w₃, _, rest⟩ := Act.of_bind_value rest
    obtain ⟨s, w₄, _, last⟩ := Act.of_bind_value rest
    cases last
    rfl

/-- What a value that refers to an object of the script tells of the conversion it comes from. -/
theorem toHost_takes (h : toHost r (.object id) w = (.value v, w₁))
    (isRef : v.reference? = some ref) :
    ∃ o, w.engine.objects.get? id.index = some o ∧ HoldsAs o v ref ∧
      TakenBetween w w₁ ref id := by
  change (handleOf? id >>= _) w = _ at h
  unfold handleOf? at h
  rw [Act.read_bind] at h
  split at h
  · rename_i handle _
    cases h
    cases handle <;> cases isRef
  · simp only [Act.object?, Act.read_bind] at h
    split at h
    · cases h
      cases isRef
    · rename_i o found
      unfold HoldsAs
      split at h
      · rename_i code kind
        obtain ⟨ref', name, rfl, taken⟩ := holdFunction_takes h
        cases isRef
        exact ⟨o, found, by rw [kind]; exact ⟨name, rfl⟩, taken⟩
      · rw [copyElements_noReference h] at isRef
        cases isRef
      · rename_i noFunction _
        obtain ⟨held, taken⟩ := objectToHost_takes h isRef
        have other : o.kind.isFunction = false := by
          cases kind : o.kind with
          | function code => exact absurd kind (noFunction code)
          | _ => rfl
        exact ⟨o, found, by rw [other]; exact held, taken⟩

end Bridge

/-! ### References of several runtimes -/

/-- The references taken over a run through any number of runtimes, the latest first. -/
inductive Takes : List ScriptRef → World → Prop where
  | start {w : World} (h : Reachable w) : Takes [] w
  | later {refs : List ScriptRef} {w w' : World} (before : Takes refs w) (run : Reaches w w') :
    Takes refs w'
  | take {refs : List ScriptRef} {w w' : World} {ref : ScriptRef} (before : Takes refs w)
    (id : ObjectId) (takes : Bridge.hold id w = (.value ref, w')) : Takes (ref :: refs) w'

namespace Takes

variable {refs : List ScriptRef} {w : World} {ref ref' : ScriptRef}

/-- A conversion that gives a reference takes it. -/
theorem of_toHost {r : Reentry} {w' : World} {id : ObjectId} {v : Value} (h : Takes refs w)
    (converts : Bridge.toHost r (.object id) w = (.value v, w')) (isRef : v.reference? = some ref) :
    Takes (ref :: refs) w' := by
  obtain ⟨_, _, _, w₀, w₁, before, holds, after⟩ := Bridge.toHost_takes converts isRef
  exact ((h.later before).take id holds).later after

theorem reachable (h : Takes refs w) : Reachable w := by
  induction h with
  | start h => exact h
  | later _ run ih => exact ih.of_reaches run
  | take _ _ takes ih => exact ih.of_run takes

theorem runtime_le (h : Takes refs w) (mem : ref ∈ refs) : ref.runtime ≤ w.runtime := by
  induction h with
  | start => cases mem
  | later _ run ih => exact Nat.le_trans (ih mem) run.runtime_le
  | take _ _ takes ih =>
    cases mem with
    | head => exact Nat.le_of_eq (Bridge.refers_of_hold takes).runtime
    | tail _ mem => exact Nat.le_trans (ih mem) (Act.reaches takes).runtime_le

theorem refers_after {w' : World} (before : Takes refs w) (mem : ref ∈ refs) (run : Reaches w w')
    (live : ref.runtime = w'.runtime) (ih : ref.runtime = w.runtime → Refers w ref ref.object) :
    Refers w' ref ref.object := by
  -- neither the reference nor the run goes back, so that all three runtimes are one
  have le := before.runtime_le mem
  have le' := run.runtime_le
  exact (ih (by omega)).of_reaches run (by omega)

/-- The references of the present runtime refer to their objects. -/
theorem refers (h : Takes refs w) (mem : ref ∈ refs) (live : ref.runtime = w.runtime) :
    Refers w ref ref.object := by
  induction h with
  | start => cases mem
  | later before run ih => exact before.refers_after mem run live (ih mem)
  | take before _ takes ih =>
    cases mem with
    | head =>
      have refers := Bridge.refers_of_hold takes
      rwa [← refers.object] at refers
    | tail _ mem => exact before.refers_after mem (Act.reaches takes) live (ih mem)

/-- In one runtime identities tell objects apart. -/
theorem identity_eq_iff (h : Takes refs w) (mem : ref ∈ refs) (mem' : ref' ∈ refs)
    (same : ref.runtime = ref'.runtime) :
    ref.identity = ref'.identity ↔ ref.object = ref'.object := by
  induction h with
  | start => cases mem
  | later _ _ ih => exact ih mem mem'
  | @take refs w w' new before id takes ih =>
    -- in the live runtime both refer to their objects now; others were both taken before
    by_cases live : ref.runtime = w'.runtime
    · have after := before.take id takes
      exact Refers.identity_eq_iff after.reachable.coherent (after.refers mem live)
        (after.refers mem' (same ▸ live))
    · have old {r : ScriptRef} (mem : r ∈ new :: refs) (dead : r.runtime ≠ w'.runtime) :
          r ∈ refs := by
        cases mem with
        | head => exact absurd (Bridge.refers_of_hold takes).runtime dead
        | tail _ mem => exact mem
      exact ih (old mem live) (old mem' (same ▸ live))

end Takes

/-! ### What crossing keeps -/

/-- Handles of the host keep their objects, and give each other none. -/
structure KeepsHandles (r : Reentry) (w : World) : Prop where
  crosses : ∀ handle : Handle, ∃ id w₁, Bridge.toScript handle.value w = (.value (.object id), w₁)
  same : ∀ (handle : Handle) (id : ObjectId) (w₁ w₂ : World),
    Bridge.toScript handle.value w = (.value (.object id), w₁) → Reaches w₁ w₂ →
    w₂.runtime = w₁.runtime → Bridge.toScript handle.value w₂ = (.value (.object id), w₂)
  distinct : ∀ (handle handle' : Handle) (id : ObjectId) (w₁ w₂ w₃ : World),
    Bridge.toScript handle.value w = (.value (.object id), w₁) → Reaches w₁ w₂ →
    w₂.runtime = w₁.runtime → Bridge.toScript handle'.value w₂ = (.value (.object id), w₃) →
    handle' = handle
  back : ∀ (handle : Handle) (id : ObjectId) (w₁ w₂ : World),
    Bridge.toScript handle.value w = (.value (.object id), w₁) → Reaches w₁ w₂ →
    w₂.runtime = w₁.runtime → Bridge.toHost r (.object id) w₂ = (.value handle.value, w₂) ∧
      handle.value.strictEquals handle.value

/-- The objects of the script that the host holds by reference. -/
inductive ByReference (w : World) (id : ObjectId) : Prop where
  | function (o : Object) (code : FunctionCode) (h : Ordinary w id o)
      (kind : o.kind = .function code)
  | object (o : Object) (h : Ordinary w id o) (noFunction : ∀ code, o.kind ≠ .function code)
      (noArray : o.kind ≠ .array)
      (noDate : (Script.inherits id Intrinsic.datePrototype : HostAct _) w = (.value false, w))
      (noError : (Script.inherits id Intrinsic.errorPrototype : HostAct _) w = (.value false, w))

/-- Objects of the script keep their references. -/
structure KeepsReferences (r : Reentry) (w : World) : Prop where
  taken : ∀ id, ByReference w id → (∀ e w₁, Bridge.toHost r (.object id) w ≠ (.failure e, w₁)) ∧
    ∀ v w₁, Bridge.toHost r (.object id) w = (.value v, w₁) → ∃ ref, v.reference? = some ref
  back : ∀ (id : ObjectId) (v : Value) (ref : ScriptRef) (w₁ w₂ : World),
    Bridge.toHost r (.object id) w = (.value v, w₁) → v.reference? = some ref → Reaches w₁ w₂ →
    w₂.runtime = w.runtime → Bridge.toScript v w₂ = (.value (.object id), w₂)
  same : ∀ (id id' : ObjectId) (v v' : Value) (ref ref' : ScriptRef) (w₁ w₂ w₃ : World),
    Bridge.toHost r (.object id) w = (.value v, w₁) → v.reference? = some ref → Reaches w₁ w₂ →
    Bridge.toHost r (.object id') w₂ = (.value v', w₃) → v'.reference? = some ref' →
    w₃.runtime = w.runtime → (v'.strictEquals v ↔ id' = id)

def Value.isPrimitive : Value → Bool
  | .undefined | .null | .bool _ | .number _ | .string _ => true
  | _ => false

/-- Data comes back equal, errors as long as their class is intact. -/
structure KeepsData (r : Reentry) (w : World) : Prop where
  primitive : ∀ v : Value, v.isPrimitive → ∃ v' v'', Bridge.toScript v w = (.value v', w) ∧
    (∀ w₂, Bridge.toHost r v' w₂ = (.value v'', w₂)) ∧ v''.sameValueZero v
  date : ∀ millis, Calendar.isHostDate millis → ∃ v' w₁,
    Bridge.toScript (.date millis) w = (.value v', w₁) ∧
    Bridge.toHost r v' w₁ = (.value (.date millis), w₁)
  error : ∀ e : ErrorValue, ClassIntact w e.name → ∃ v' w₁ stack,
    Bridge.toScript (.error e) w = (.value v', w₁) ∧
    Bridge.toHost r v' w₁ = (.value (.error { e with stack := some stack }), w₁) ∧
    ∀ s, e.stack = some s → stack = s

section

variable {r : Reentry} {w : World}

theorem Reachable.keepsHandles (h : Reachable w) : KeepsHandles r w where
  crosses handle := by
    obtain ⟨id, w₁, crosses, _⟩ := Bridge.standIn_registers handle w
    exact ⟨id, w₁, by rw [Bridge.toScript_handle, crosses]⟩
  same handle id w₁ w₂ crosses run live := by
    rw [Bridge.toScript_handle] at crosses ⊢
    exact Bridge.standIn_of_registered
      (run.standIn?_eq live (Bridge.registered_of_standIn crosses).1)
  distinct handle handle' id w₁ w₂ w₃ crosses run live crosses' := by
    rw [Bridge.toScript_handle] at crosses crosses'
    have later := Act.reaches crosses'
    obtain ⟨registered', live'⟩ := Bridge.registered_of_standIn crosses'
    have registered := (run.trans later).standIn?_eq (live'.trans live)
      (Bridge.registered_of_standIn crosses).1
    have coherent := ((h.of_run crosses).of_reaches (run.trans later)).coherent
    exact coherent.handle_eq registered' registered
  back handle id w₁ w₂ crosses run live := by
    rw [Bridge.toScript_handle] at crosses
    have registered := run.standIn?_eq live (Bridge.registered_of_standIn crosses).1
    have coherent := ((h.of_run crosses).of_reaches run).coherent
    exact ⟨Bridge.toHost_of_registered coherent registered, handle.strictEquals_self⟩

theorem Bridge.toScript_of_refers {ref : ScriptRef} {v : Value} {id : ObjectId}
    (h : Refers w ref id) (isRef : v.reference? = some ref) :
    toScript v w = (.value (.object id), w) := by
  have restored (what : String) : restore what ref w = (.value id, w) := by
    rw [restore_of_live h.runtime, h.object]
  cases v with
  | object =>
    cases isRef
    exact Act.bind_of_value (restored _) _
  | function f =>
    cases f with
    | host => cases isRef
    | script =>
      cases isRef
      exact Act.bind_of_value (restored _) _
  | _ => cases isRef

theorem strictEquals_iff_of_holdsAs {o o' : Object} {v v' : Value} {ref ref' : ScriptRef}
    (h : HoldsAs o v ref) (h' : HoldsAs o' v' ref') :
    v'.strictEquals v ↔
      ref'.identity = ref.identity ∧ o'.kind.isFunction = o.kind.isFunction := by
  unfold HoldsAs at h h'
  split at h <;> split at h'
  · obtain ⟨name, rfl⟩ := h
    obtain ⟨name', rfl⟩ := h'
    simp_all [Value.strictEquals, Callback.same]
  · obtain ⟨name, rfl⟩ := h
    subst h'
    simp_all [Value.strictEquals]
  · obtain ⟨name', rfl⟩ := h'
    subst h
    simp_all [Value.strictEquals]
  · subst h h'
    simp_all [Value.strictEquals]

theorem Bridge.toHost_of_byReference (c : w.engine.Coherent) {id : ObjectId}
    (kept : ByReference w id) :
    (∀ e w₁, toHost r (.object id) w ≠ (.failure e, w₁)) ∧
      ∀ v w₁, toHost r (.object id) w = (.value v, w₁) → ∃ ref, v.reference? = some ref := by
  cases kept with
  | function o code ordinary kind =>
    have converts := toHost_of_ordinary (r := r) c ordinary
    rw [kind] at converts
    rw [converts]
    refine ⟨fun e w₁ => infallible_holdFunction w e w₁, fun v w₁ gives => ?_⟩
    obtain ⟨ref, name, rfl, _⟩ := holdFunction_takes gives
    exact ⟨ref, rfl⟩
  | object o ordinary noFunction noArray noDate noError =>
    have converts : toHost r (.object id) w = objectToHost r id o w := by
      rw [toHost_of_ordinary c ordinary]
      split
      · exact absurd ‹_› (noFunction _)
      · exact absurd ‹_› noArray
      · rfl
    obtain ⟨ref, w₂, holds, _⟩ := hold_refers id w
    have held : objectToHost r id o w = (.value (.object ref), w₂) := by
      rw [objectToHost, Act.bind_of_value noDate, if_neg (by decide), Act.bind_of_value noError,
        if_neg (by decide), Act.bind_of_value holds]
      rfl
    rw [converts, held]
    constructor
    · intro e w₁ fails
      cases fails
    · intro v w₁ gives
      cases gives
      exact ⟨ref, rfl⟩

theorem Reachable.keepsReferences (h : Reachable w) : KeepsReferences r w where
  taken _ kept := Bridge.toHost_of_byReference h.coherent kept
  back id v ref w₁ w₂ converts isRef run live := by
    have le := run.runtime_le
    have le' := (Act.reaches converts).runtime_le
    obtain ⟨_, _, _, taken⟩ := Bridge.toHost_takes converts isRef
    have refers := (taken.refers (by omega)).of_reaches run (by omega)
    exact Bridge.toScript_of_refers refers isRef
  same id id' v v' ref ref' w₁ w₂ w₃ converts isRef run converts' isRef' live := by
    have before := Act.reaches converts
    have after := Act.reaches converts'
    have le := before.runtime_le
    have le' := run.runtime_le
    have le'' := after.runtime_le
    obtain ⟨o, found, holds, taken⟩ := Bridge.toHost_takes converts isRef
    obtain ⟨o', found', holds', taken'⟩ := Bridge.toHost_takes converts' isRef'
    -- identities are compared in the last world, where both references hold
    have refers := (taken.refers (by omega)).of_reaches (run.trans after) (by omega)
    have refers' := taken'.refers (by omega)
    have coherent := (h.of_reaches (before.trans (run.trans after))).coherent
    rw [strictEquals_iff_of_holdsAs holds holds', refers'.identity_eq_iff coherent refers]
    refine ⟨fun same => same.1, ?_⟩
    rintro rfl
    obtain ⟨later, there, kept⟩ :=
      ((before.trans run).later (by omega)).objects id'.index o found
    rw [found'] at there
    cases there
    exact ⟨rfl, kept.isFunction⟩

theorem Reachable.keepsData (h : Reachable w) : KeepsData r w where
  primitive v primitive := by
    cases v with
    | undefined => exact ⟨_, _, rfl, fun _ => rfl, rfl⟩
    | null => exact ⟨_, _, rfl, fun _ => rfl, rfl⟩
    | bool b => exact ⟨_, _, rfl, fun _ => rfl, by simp [Value.sameValueZero, Value.strictEquals]⟩
    | number d => exact ⟨_, _, rfl, fun _ => rfl, Bridge.sameValueZero_crossing d⟩
    | string s =>
      refine ⟨_, .string s, rfl, fun w₂ => ?_, by simp [Value.sameValueZero, Value.strictEquals]⟩
      exact Bridge.toHost_string (Utf16.toString?_ofString s) w₂
    | _ => cases primitive
  date millis host := Bridge.date_returns r h.coherent host
  error e intact := by
    obtain ⟨v', w₁, crosses, returns⟩ := Bridge.error_returns r h.coherent intact
    refine ⟨v', w₁, _, crosses, returns, ?_⟩
    rintro s had
    rw [had, Option.getD_some]

end

end ScriptBridge
