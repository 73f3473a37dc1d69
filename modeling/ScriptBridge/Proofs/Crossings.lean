import ScriptBridge.Proofs.Copying
import ScriptBridge.Proofs.Recovery
import ScriptBridge.Proofs.StrictEquality

/-!
Values that go into the script and come back. They agree with what was sent, and the two crossings
change nothing on the host.
-/

namespace ScriptBridge

/-! ### Agreement -/

/-- A value agrees with what came back for it from the script: the two are equal as scripts compare,
not-a-number agrees with itself, and dates and errors agree by what they say. -/
inductive Value.Agrees : Value → Value → Prop where
  | same {v v' : Value} (h : v'.sameValueZero v) : Agrees v v'
  | date (millis : Int) : Agrees (.date millis) (.date millis)
  | error {e e' : ErrorValue} (name : e'.name = e.name) (message : e'.message = e.message)
    (stack : ∀ s, e.stack = some s → e'.stack = some s) : Agrees (.error e) (.error e')

namespace Value

variable {a b c : Value}

theorem sameValueZero_trans (h : a.sameValueZero b) (h' : b.sameValueZero c) :
    a.sameValueZero c := by
  obtain same | ⟨rfl, rfl⟩ := sameValueZero_iff.1 h
  · obtain same' | ⟨rfl, rfl⟩ := sameValueZero_iff.1 h'
    · exact sameValueZero_iff.2 (.inl (strictEquals_trans same same'))
    · exact h
  · exact h'

theorem Agrees.refl (v : Value) : v.Agrees v := by
  have itself (h : v.strictEquals v) : v.Agrees v := .same (sameValueZero_iff.2 (.inl h))
  cases v with
  | undefined | null => exact itself rfl
  | number d => exact .same d.sameValueZero_self
  | date millis => exact .date millis
  | error e => exact .error rfl rfl fun _ had => had
  | function f => cases f <;> exact itself (by simp [strictEquals, Callback.same])
  | bool | string | sequence | plain | object => exact itself (by simp [strictEquals])

theorem Agrees.trans (h : a.Agrees b) (h' : b.Agrees c) : a.Agrees c := by
  cases h with
  | same h =>
    cases h' with
    | same h' => exact .same (sameValueZero_trans h' h)
    | date => cases a <;> cases h
    | error => cases a <;> cases h
  | date millis =>
    cases h' with
    | same h' => cases c <;> cases h'
    | date => exact .date millis
  | error name message stack =>
    cases h' with
    | same h' => cases c <;> cases h'
    | error name' message' stack' =>
      exact .error (name'.trans name) (message'.trans message) fun s had => stack' s (stack s had)

/-- Values that come back as they are: all but negative zeros, errors and references into the
script. -/
def isExact : Value → Bool
  | .number d => !d.isNegativeZero
  | .error _ | .object _ | .function (.script ..) => false
  | _ => true

end Value

/-! ### The script side -/

/-- Only the script side of the world changed, and the objects that stand for nothing stayed as they
were. -/
structure ScriptSide (w w' : World) : Prop where
  world : ∃ engine, w' = { w with engine }
  kept : ObjectsKept w w'

namespace ScriptSide

variable {w w₁ w₂ : World}

theorem refl (w : World) : ScriptSide w w := ⟨⟨w.engine, rfl⟩, .refl w⟩

theorem trans (h : ScriptSide w w₁) (h' : ScriptSide w₁ w₂) : ScriptSide w w₂ := by
  refine ⟨?_, h.kept.trans h'.kept⟩
  obtain ⟨engine, rfl⟩ := h.world
  obtain ⟨engine', rfl⟩ := h'.world
  exact ⟨engine', rfl⟩

theorem of_world (run : Steps w w₁) {engine : Engine} (world : w₁ = { w with engine })
    (objects : ∀ i o, w.engine.objects.get? i = some o → o.kind.standsFor? = none →
      engine.objects.get? i = some o) : ScriptSide w w₁ := by
  subst world
  exact ⟨⟨engine, rfl⟩, rfl, rfl, objects, run⟩

theorem reaches (h : ScriptSide w w₁) : Reaches w w₁ := h.kept.steps.reaches

theorem ordinary (h : ScriptSide w w₁) {id : ObjectId} {o : Object} (there : Ordinary w id o) :
    Ordinary w₁ id o :=
  ⟨h.kept.objects _ _ there.found there.standsFor, there.standsFor⟩

end ScriptSide

/-- Only the script side of the world changed, and of the objects that stand for nothing only
iterators moved on. -/
structure Carried (w w' : World) : Prop where
  world : ∃ engine, w' = { w with engine }
  objects : ∀ id o, Ordinary w id o → ∃ o', Ordinary w' id o' ∧ o.kind.Becomes o'.kind ∧
    o'.prototype = o.prototype ∧ o'.properties = o.properties
  steps : Steps w w'

theorem ScriptSide.carried {w w' : World} (h : ScriptSide w w') : Carried w w' :=
  ⟨h.world, fun _ o there => ⟨o, h.ordinary there, .same _, rfl, rfl⟩, h.kept.steps⟩

theorem ObjectKind.Moves.trans {k k' k'' : ObjectKind} (h : k.Moves k') (h' : k'.Moves k'') :
    k.Moves k'' := by
  cases h with
  | cursor sequence kind =>
    cases h' with
    | cursor sequence' kind' => exact .cursor (sequence'.trans sequence) (kind'.trans kind)
  | iterable => cases h'; exact .iterable ..
  | generator => cases h'; exact .generator ..
  | arrayIterator => cases h'; exact .arrayIterator ..
  | stringIterator => cases h'; exact .stringIterator ..

namespace ObjectKind.Becomes

variable {k k' : ObjectKind}

theorem trans {k'' : ObjectKind} (h : k.Becomes k') (h' : k'.Becomes k'') : k.Becomes k'' := by
  cases h with
  | same => exact h'
  | moved h =>
    cases h' with
    | same => exact .moved h
    | moved h' => exact .moved (movesTo_iff.2 ((movesTo_iff.1 h).trans (movesTo_iff.1 h')))

theorem eq_of_still (h : k.Becomes k') (still : ∀ k', k.movesTo k' = false) : k' = k := by
  cases h with
  | same => rfl
  | moved h => rw [still] at h; cases h

theorem isArray_iff (h : k.Becomes k') : k' = .array ↔ k = .array := by
  cases h with
  | same => rfl
  | moved h => cases movesTo_iff.1 h <;> exact ⟨nofun, nofun⟩

theorem isFunction (h : k.Becomes k') {code : FunctionCode} (kind : k = .function code) :
    ∃ code', k' = .function code' := by
  have same := h.isFunction_eq
  rw [kind] at same
  cases k' with
  | function code' => exact ⟨code', rfl⟩
  | _ => cases same

end ObjectKind.Becomes

namespace Carried

variable {w w₁ w₂ : World} {id : ObjectId} {o : Object}

theorem refl (w : World) : Carried w w := (ScriptSide.refl w).carried

theorem trans (h : Carried w w₁) (h' : Carried w₁ w₂) : Carried w w₂ := by
  refine ⟨?_, fun id o there => ?_, h.steps.trans h'.steps⟩
  · obtain ⟨engine, rfl⟩ := h.world
    obtain ⟨engine', rfl⟩ := h'.world
    exact ⟨engine', rfl⟩
  · obtain ⟨o₁, there₁, kind, prototype, properties⟩ := h.objects id o there
    obtain ⟨o₂, there₂, kind', prototype', properties'⟩ := h'.objects id o₁ there₁
    exact ⟨o₂, there₂, kind.trans kind', prototype'.trans prototype, properties'.trans properties⟩

theorem runtime (h : Carried w w₁) : w₁.runtime = w.runtime := by
  obtain ⟨engine, rfl⟩ := h.world
  rfl

theorem heap (h : Carried w w₁) : w₁.heap = w.heap := by
  obtain ⟨engine, rfl⟩ := h.world
  rfl

theorem config (h : Carried w w₁) : w₁.config = w.config := by
  obtain ⟨engine, rfl⟩ := h.world
  rfl

/-- What is no iterator stays as it is. -/
theorem ordinary (h : Carried w w₁) (there : Ordinary w id o)
    (still : ∀ k, o.kind.movesTo k = false) : Ordinary w₁ id o := by
  obtain ⟨o', there', kind, prototype, properties⟩ := h.objects id o there
  have same : o' = o := by
    have still' := kind.eq_of_still still
    cases o
    cases o'
    cases still'
    cases prototype
    cases properties
    rfl
  exact same ▸ there'

theorem finds (h : Carried w w₁) {key : PropertyKey} {start : Option ObjectId} {v : ScriptValue}
    (found : Finds w key start v) : Finds w₁ key start v := by
  induction found with
  | nothing => exact .nothing
  | own there here =>
    obtain ⟨o', there', _, _, properties⟩ := h.objects _ _ there
    exact .own there' (properties ▸ here)
  | inherited there lacks _ ih =>
    obtain ⟨o', there', _, prototype, properties⟩ := h.objects _ _ there
    exact .inherited there' (properties ▸ lacks) (prototype ▸ ih)

end Carried

/-- A change of the script side by which no error was thrown into the script. -/
structure Crossed (w w' : World) : Prop extends ScriptSide w w' where
  nextTag : w'.engine.nextTag = w.engine.nextTag

namespace Crossed

variable {w w₁ w₂ : World}

theorem refl (w : World) : Crossed w w := ⟨.refl w, rfl⟩

theorem trans (h : Crossed w w₁) (h' : Crossed w₁ w₂) : Crossed w w₂ :=
  ⟨h.toScriptSide.trans h'.toScriptSide, h'.nextTag.trans h.nextTag⟩

end Crossed

/-- Effects on the runtime by which no error is thrown into the script. -/
def Effect.untagged : Effect where
  rel w w' := ∃ engine, w' = { w with engine } ∧ engine.nextTag = w.engine.nextTag
  refl w := ⟨w.engine, rfl, rfl⟩
  trans := by
    rintro w _ _ ⟨engine, rfl, tags⟩ ⟨engine', rfl, tags'⟩
    exact ⟨engine', rfl, tags'.trans tags⟩

namespace Bridge

theorem standIn_untagged (handle : Handle) : (standIn handle).Within .untagged := by
  have newObject (o : Object) (h : o.kind.standsFor? = none) :
      (Act.newObject o h : HostAct _).Within .untagged := fun w => ⟨_, rfl, rfl⟩
  have expose (handle : Handle) (o : Object) (h : o.kind.standsFor? = some handle)
      (bare : o.kind.methods = []) : (Act.expose handle o h bare : HostAct _).Within .untagged := by
    intro w
    cases found : w.engine.registry.standIn? handle with
    | some id =>
      rw [Act.expose_of_registered h bare found]
      exact ⟨_, rfl, rfl⟩
    | none =>
      rw [Act.expose_of_new h bare found]
      exact ⟨_, rfl, rfl⟩
  refine .bind (.read _) fun found => ?_
  split
  · exact .pure _
  · refine .bind ?_ fun _ => .pure _
    cases handle with
    | sequence s => exact .bind (newObject _ _) fun _ => expose _ _ _ _
    | plain p => exact .bind (newObject _ _) fun _ => expose _ _ _ _
    | function f => exact .bind (.read _) fun _ => expose _ _ _ _

theorem toScript_untagged (v : Value) : (toScript v).Within .untagged := by
  cases v with
  | undefined | null | bool | number | string => exact .pure _
  | sequence | plain => exact standIn_untagged _
  | function f =>
    cases f with
    | host id => exact standIn_untagged _
    | script ref name => exact .bind (restore_within _ ref) fun _ => .pure _
  | date | error => exact .bind (fun w => ⟨_, rfl, rfl⟩) fun _ => .pure _
  | object ref => exact .bind (restore_within _ ref) fun _ => .pure _

theorem crossed_toScript {v : Value} {w w' : World} {v' : ScriptValue}
    (crosses : toScript v w = (.value v', w')) : Crossed w w' := by
  have untagged := toScript_untagged v w
  rw [crosses] at untagged
  obtain ⟨engine, rfl, tags⟩ := untagged
  exact ⟨⟨⟨engine, rfl⟩, objectsKept_toScript crosses⟩, tags⟩

theorem crossed_hold {w w' : World} {id : ObjectId} {ref : ScriptRef}
    (holds : hold id w = (.value ref, w')) : Crossed w w' := by
  have run := Act.steps_of holds
  obtain ⟨held, roots, rfl⟩ := hold_world holds
  exact ⟨.of_world run rfl fun _ _ found _ => found, rfl⟩

/-- An error that was thrown into the script and taken out again left its object behind. -/
theorem scriptSide_recovered (w : World) (e : Error) :
    ScriptSide w ((w.raised e).recovered w.engine.nextTag) := by
  have raised : Step w (w.raised e) := .engine w _ (.raised w.engine e _ rfl)
  have recovered : Step (w.raised e) _ :=
    .engine _ _ (.recovered (w.raised e).engine w.engine.nextTag)
  exact .of_world (.step raised (.single recovered)) rfl fun i o found _ =>
    ObjectHeap.get?_push_of_some found _

end Bridge

/-! ### What crosses -/

/-- An object and its prototypes are not a certain prototype's heirs; the prototype of a stand-in is
that of its hidden object. -/
inductive Apart (w : World) (prototype : ObjectId) : Option ObjectId → Prop where
  | root : Apart w prototype none
  | next {id : ObjectId} {o : Object} (h : Ordinary w id o) (other : o.prototype ≠ some prototype)
    (above : Apart w prototype o.prototype) : Apart w prototype (some id)
  | standIn {id target : ObjectId} {o hidden : Object}
    (found : w.engine.objects.get? id.index = some o) (aims : o.kind.target? = some target)
    (under : Ordinary w target hidden) (other : hidden.prototype ≠ some prototype)
    (above : Apart w prototype hidden.prototype) : Apart w prototype (some id)

namespace Apart

variable {w w' : World} {prototype : ObjectId} {start : Option ObjectId} {id : ObjectId}

theorem carried (h : Apart w prototype start) (s : Carried w w') : Apart w' prototype start := by
  induction h with
  | root => exact .root
  | next h other _ ih =>
    obtain ⟨o', there, _, same, _⟩ := s.objects _ _ h
    exact .next there (same ▸ other) (same ▸ ih)
  | @standIn id _ o _ found aims under other _ ih =>
    obtain ⟨o', found', later⟩ := (s.steps.later s.runtime).objects id.index o found
    obtain ⟨hidden, there, _, same, _⟩ := s.objects _ _ under
    exact .standIn found' (later.target.trans aims) there (same ▸ other) (same ▸ ih)

theorem inheritsWithin_eq {ε : Type} (h : Apart w prototype (some id)) (steps : Nat) :
    (Script.inheritsWithin prototype steps id : Act ε Bool) w = (.value false, w) := by
  induction steps generalizing id with
  | zero => rfl
  | succ steps ih =>
    have onwards {above : Option ObjectId} (other : above ≠ some prototype)
        (rest : Apart w prototype above)
        (asked : (Script.prototypeOf id : Act ε _) w = (.value above, w)) :
        (Script.inheritsWithin prototype (steps + 1) id : Act ε Bool) w = (.value false, w) := by
      rw [Script.inheritsWithin, Act.bind_of_value asked]
      cases above with
      | none => rfl
      | some p =>
        simp only [if_neg fun same => other (congrArg some same)]
        exact ih rest
    cases h with
    | next h other above => exact onwards other above (Script.prototypeOf_of_ordinary h)
    | standIn found aims under other above =>
      exact onwards other above (Script.prototypeOf_of_target found aims under.found)

theorem inherits_eq {ε : Type} (h : Apart w prototype (some id)) :
    (Script.inherits id prototype : Act ε Bool) w = (.value false, w) := by
  rw [Script.inherits, Script.chainBound, Act.read_bind]
  exact h.inheritsWithin_eq _

end Apart

/-- An object of the script that is no function, array, date or error. -/
structure HeldObject (w : World) (id : ObjectId) : Prop where
  object : ∃ o, Ordinary w id o ∧ (∀ code, o.kind ≠ .function code) ∧ o.kind ≠ .array
  noDate : Apart w Intrinsic.datePrototype (some id)
  noError : Apart w Intrinsic.errorPrototype (some id)

/-- Values that come back from the script as what they are: primitives, dates of the host, errors of
an intact class, handles, and references to functions whose name is data and to objects that are
still held by reference. -/
inductive Crosses (w : World) : Value → Prop where
  | primitive {v : Value} (h : v.isPrimitive) : Crosses w v
  | date {millis : Int} (h : Calendar.isHostDate millis) : Crosses w (.date millis)
  | error {e : ErrorValue} (intact : ClassIntact w e.name) : Crosses w (.error e)
  | handle (handle : Handle) : Crosses w handle.value
  | object {ref : ScriptRef} {id : ObjectId} (refers : Refers w ref id) (held : HeldObject w id) :
    Crosses w (.object ref)
  | function {ref : ScriptRef} {name : String} {id : ObjectId} {o : Object} {code : FunctionCode}
    {v : ScriptValue} (refers : Refers w ref id) (h : Ordinary w id o)
    (kind : o.kind = .function code) (named : Finds w (.ofString "name") (some id) v) :
    Crosses w (.function (.script ref name))

/-- Values that cross without anything new in the script. -/
inductive Settled (w : World) : Value → Prop where
  | primitive {v : Value} (h : v.isPrimitive) : Settled w v
  | handle {handle : Handle} {id : ObjectId} (h : w.engine.registry.standIn? handle = some id) :
    Settled w handle.value

/-- What a value is in the script once it has crossed. -/
inductive Sent (w : World) : Value → ScriptValue → Prop where
  | undefined : Sent w .undefined .undefined
  | null : Sent w .null .null
  | bool (b : Bool) : Sent w (.bool b) (.bool b)
  | number (d : Double) : Sent w (.number d) (.number (Bridge.crossing d))
  | string (s : String) : Sent w (.string s) (.ofString s)
  | date {millis : Int} {id : ObjectId} (host : Calendar.isHostDate millis)
    (h : Ordinary w id (.bare (.date (.ofInt millis)) Intrinsic.datePrototype)) :
    Sent w (.date millis) (.object id)
  | error {e : ErrorValue} {id : ObjectId} (intact : ClassIntact w e.name)
    (h : Ordinary w id (Bridge.errorObject e.name e.message e.stack)) :
    Sent w (.error e) (.object id)
  | handle {handle : Handle} {id : ObjectId} (h : w.engine.registry.standIn? handle = some id) :
    Sent w handle.value (.object id)
  | object {ref : ScriptRef} {id : ObjectId} (refers : Refers w ref id) (held : HeldObject w id) :
    Sent w (.object ref) (.object id)
  | function {ref : ScriptRef} {name : String} {id : ObjectId} {o : Object} {code : FunctionCode}
    {v : ScriptValue} (refers : Refers w ref id) (h : Ordinary w id o)
    (kind : o.kind = .function code) (named : Finds w (.ofString "name") (some id) v) :
    Sent w (.function (.script ref name)) (.object id)

section

variable {r : Reentry} {w w' : World} {id : ObjectId} {v : Value} {u : ScriptValue}

theorem HeldObject.carried (h : HeldObject w id) (s : Carried w w') : HeldObject w' id := by
  obtain ⟨o, ordinary, noFunction, noArray⟩ := h.object
  obtain ⟨o', there, kind, _⟩ := s.objects _ _ ordinary
  refine ⟨⟨o', there, fun code isFunction => ?_, fun isArray => ?_⟩, h.noDate.carried s,
    h.noError.carried s⟩
  · have same := kind.isFunction_eq
    rw [isFunction] at same
    cases was : o.kind with
    | function code => exact noFunction code was
    | _ => rw [was] at same; cases same
  · exact noArray (kind.isArray_iff.1 isArray)

theorem ClassIntact.carried {name : String} (h : ClassIntact w name) (s : Carried w w') :
    ClassIntact w' name := by
  obtain ⟨⟨o, named, upwards⟩, ⟨p, general, toRoot⟩, q, root, top⟩ := h
  obtain ⟨o', named', _, prototype, properties⟩ := s.objects _ _ named
  obtain ⟨p', general', _, prototype', _⟩ := s.objects _ _ general
  obtain ⟨q', root', _, prototype'', _⟩ := s.objects _ _ root
  exact ⟨⟨o', named', by rwa [prototype, properties]⟩, ⟨p', general', prototype'.trans toRoot⟩,
    q', root', prototype''.trans top⟩

theorem ClassIntact.later {name : String} (h : ClassIntact w name) (s : ScriptSide w w') :
    ClassIntact w' name :=
  h.carried s.carried

theorem Refers.identity_eq {ref ref' : ScriptRef} (h : Refers w ref id) (c : w.engine.Coherent)
    (h' : Refers w ref' id) : (ref.identity == ref'.identity) = true :=
  beq_iff_eq.2 ((Refers.identity_eq_iff c h h').2 rfl)

theorem Refers.carried {ref : ScriptRef} (h : Refers w ref id) (s : Carried w w') :
    Refers w' ref id :=
  h.of_reaches s.steps.reaches s.runtime

theorem Refers.later {ref : ScriptRef} (h : Refers w ref id) (s : ScriptSide w w') :
    Refers w' ref id :=
  h.carried s.carried

theorem Crosses.carried (h : Crosses w v) (s : Carried w w') : Crosses w' v := by
  cases h with
  | primitive h => exact .primitive h
  | date h => exact .date h
  | error intact => exact .error (intact.carried s)
  | handle handle => exact .handle handle
  | object refers held => exact .object (refers.carried s) (held.carried s)
  | function refers h kind named =>
    obtain ⟨o', there, becomes, _⟩ := s.objects _ _ h
    obtain ⟨code', kind'⟩ := becomes.isFunction kind
    exact .function (refers.carried s) there kind' (s.finds named)

theorem Crosses.later (h : Crosses w v) (s : ScriptSide w w') : Crosses w' v := h.carried s.carried

theorem Sent.carried (h : Sent w v u) (s : Carried w w') : Sent w' v u := by
  cases h with
  | undefined => exact .undefined
  | null => exact .null
  | bool b => exact .bool b
  | number d => exact .number d
  | string t => exact .string t
  | date host h => exact .date host (s.ordinary h fun _ => rfl)
  | error intact h => exact .error (intact.carried s) (s.ordinary h fun _ => rfl)
  | handle h => exact .handle (s.steps.reaches.standIn?_eq s.runtime h)
  | object refers held => exact .object (refers.carried s) (held.carried s)
  | function refers h kind named =>
    obtain ⟨o', there, becomes, _⟩ := s.objects _ _ h
    obtain ⟨code', kind'⟩ := becomes.isFunction kind
    exact .function (refers.carried s) there kind' (s.finds named)

theorem Sent.later (h : Sent w v u) (s : ScriptSide w w') : Sent w' v u := h.carried s.carried

/-- A host function is its stand-in. -/
theorem Sent.registered {f : HostFunctionId} (h : Sent w (.function (.host f)) u) :
    ∃ id, u = .object id ∧ w.engine.registry.standIn? (.function f) = some id := by
  generalize sent : Value.function (.host f) = v at h
  cases h with
  | @handle handle id h =>
    cases handle with
    | function g =>
      cases sent
      exact ⟨id, rfl, h⟩
    | _ => cases sent
  | _ => cases sent

namespace Bridge

theorem crossing_of_not_negativeZero {d : Double} (h : d.isNegativeZero = false) :
    crossing d = d := by
  unfold crossing
  split
  · rename_i zero
    cases d with
    | nan | infinity => cases zero
    | finite negative units fits =>
      cases units with
      | zero =>
        cases negative with
        | false => rfl
        | true => cases h
      | succ => cases zero
  · rfl

theorem toScript_of_crosses (h : Crosses w v) :
    ∃ u w', toScript v w = (.value u, w') ∧ Crossed w w' ∧ Sent w' v u := by
  cases h with
  | primitive h =>
    cases v with
    | undefined => exact ⟨_, w, rfl, .refl w, .undefined⟩
    | null => exact ⟨_, w, rfl, .refl w, .null⟩
    | bool b => exact ⟨_, w, rfl, .refl w, .bool b⟩
    | number d => exact ⟨_, w, rfl, .refl w, .number d⟩
    | string s => exact ⟨_, w, rfl, .refl w, .string s⟩
    | _ => cases h
  | @date millis h =>
    have crosses : toScript (.date millis) w = (.value (.object ⟨w.engine.objects.size⟩), _) := rfl
    exact ⟨_, _, crosses, crossed_toScript crosses, .date h (w.ordinary_withObject rfl)⟩
  | @error e intact =>
    have crosses : toScript (.error e) w = (.value (.object ⟨w.engine.objects.size⟩), _) := rfl
    have crossed := crossed_toScript crosses
    exact ⟨_, _, crosses, crossed,
      .error (intact.later crossed.toScriptSide) (w.ordinary_withObject rfl)⟩
  | handle handle =>
    obtain ⟨id, w', crosses, registered, _⟩ := standIn_registers handle w
    rw [← toScript_handle] at crosses
    exact ⟨_, w', crosses, crossed_toScript crosses, .handle registered⟩
  | object refers held =>
    exact ⟨_, w, toScript_of_refers refers rfl, .refl w, .object refers held⟩
  | function refers h kind named =>
    exact ⟨_, w, toScript_of_refers refers rfl, .refl w, .function refers h kind named⟩

theorem toScript_of_settled (h : Settled w v) : ∃ u, toScript v w = (.value u, w) := by
  cases h with
  | primitive h =>
    cases v with
    | undefined | null | bool | number | string => exact ⟨_, rfl⟩
    | _ => cases h
  | handle h => exact ⟨_, (congrArg (· w) (toScript_handle _)).trans (standIn_of_registered h)⟩

/-- What has crossed comes back as it was, if it is exact. -/
theorem toHost_of_exact (r : Reentry) (c : w.engine.Coherent) (h : Sent w v u)
    (exact' : v.isExact) : toHost r u w = (.value v, w) := by
  cases h with
  | undefined | null | bool => rfl
  | number d => rw [crossing_of_not_negativeZero (by simpa [Value.isExact] using exact')]; rfl
  | string s => exact toHost_string (Utf16.toString?_ofString s) w
  | date host h =>
    rw [toHost_of_date c h rfl rfl, dateValue_ofInt host]
    rfl
  | handle h => exact toHost_of_registered c h
  | error | object | function => cases exact'

/-- Otherwise a value comes back that agrees with the one that was sent. -/
theorem toHost_of_sent (r : Reentry) (reachable : Reachable w) (h : Sent w v u) :
    ∃ v' w', toHost r u w = (.value v', w') ∧ Crossed w w' ∧ v.Agrees v' := by
  have c := reachable.coherent
  by_cases exact' : v.isExact
  · exact ⟨v, w, toHost_of_exact r c h exact', .refl w, .refl v⟩
  cases h with
  | undefined | null | bool | string | date => exact absurd rfl exact'
  | number d => exact ⟨_, w, rfl, .refl w, .same (sameValueZero_crossing d)⟩
  | @error e id intact h =>
    refine ⟨_, w, toHost_of_errorObject c h intact, .refl w, .error rfl rfl fun s had => ?_⟩
    rw [had, Option.getD_some]
  | @handle handle id h => exact absurd (by cases handle <;> rfl) exact'
  | @object ref id refers held =>
    obtain ⟨ref', w', holds, refers'⟩ := hold_refers id w
    have crossed := crossed_hold holds
    obtain ⟨o, ordinary, noFunction, noArray⟩ := held.object
    refine ⟨.object ref', w', ?_, crossed, .same ?_⟩
    · refine (valueToHost_of_plain _ c ordinary noFunction noArray).trans ?_
      rw [objectToHost, Act.bind_of_value held.noDate.inherits_eq, if_neg (by decide),
        Act.bind_of_value held.noError.inherits_eq, if_neg (by decide), Act.bind_of_value holds]
      rfl
    · exact refers'.identity_eq (reachable.of_run holds).coherent
        (refers.later crossed.toScriptSide)
  | @function ref name id o code v refers h kind named =>
    obtain ⟨ref', w', holds, refers'⟩ := hold_refers id w
    have crossed := crossed_hold holds
    obtain ⟨text, reads⟩ := (named.of_objects fun _ _ => crossed.ordinary).textOrNone_eq (r := r)
    refine ⟨.function (.script ref' (text.getD "")), w', ?_, crossed, .same ?_⟩
    · rw [toHost_of_ordinary c h]
      simp only [kind]
      rw [holdFunction, Act.bind_of_value holds, Act.bind_of_value reads]
      rfl
    · exact refers'.identity_eq (reachable.of_run holds).coherent
        (refers.later crossed.toScriptSide)

/-! ### Lists of values -/

theorem mapAll_toScript {vs : List Value} (h : ∀ v ∈ vs, Crosses w v) :
    ∃ us w', Act.mapAll toScript vs w = (.value us, w') ∧ Crossed w w' ∧
      List.Forall₂ (Sent w') vs us := by
  induction vs generalizing w with
  | nil => exact ⟨[], w, rfl, .refl w, .nil⟩
  | cons v vs ih =>
    obtain ⟨first, others⟩ := List.forall_mem_cons.1 h
    obtain ⟨u, w₁, crosses, crossed, sent⟩ := toScript_of_crosses first
    obtain ⟨us, w₂, rest, crossed', sents⟩ :=
      ih fun v mem => (others v mem).later crossed.toScriptSide
    refine ⟨u :: us, w₂, ?_, crossed.trans crossed', .cons (sent.later crossed'.toScriptSide) sents⟩
    exact (Act.bind_of_value crosses _).trans (Act.bind_of_value rest _)

theorem mapAll_toScript_of_settled {vs : List Value} (h : ∀ v ∈ vs, Settled w v) :
    ∃ us, Act.mapAll toScript vs w = (.value us, w) := by
  induction vs with
  | nil => exact ⟨[], rfl⟩
  | cons v vs ih =>
    obtain ⟨first, others⟩ := List.forall_mem_cons.1 h
    obtain ⟨u, crosses⟩ := toScript_of_settled first
    obtain ⟨us, rest⟩ := ih others
    exact ⟨u :: us, (Act.bind_of_value crosses _).trans (Act.bind_of_value rest _)⟩

theorem mapAll_toHost (r : Reentry) {vs : List Value} {us : List ScriptValue}
    (reachable : Reachable w) (h : List.Forall₂ (Sent w) vs us) :
    ∃ vs' w', Act.mapAll (toHost r) us w = (.value vs', w') ∧ Crossed w w' ∧
      List.Forall₂ Value.Agrees vs vs' := by
  induction vs generalizing w us with
  | nil =>
    cases h
    exact ⟨[], w, rfl, .refl w, .nil⟩
  | cons v vs ih =>
    cases h with
    | cons sent sents =>
      obtain ⟨v', w₁, returns, crossed, agrees⟩ := toHost_of_sent r reachable sent
      obtain ⟨vs', w₂, rest, crossed', agree⟩ :=
        ih (reachable.of_run returns) (sents.imp fun _ _ sent => sent.later crossed.toScriptSide)
      refine ⟨v' :: vs', w₂, ?_, crossed.trans crossed', .cons agrees agree⟩
      exact (Act.bind_of_value returns _).trans (Act.bind_of_value rest _)

theorem mapAll_toHost_of_exact (r : Reentry) {vs : List Value} {us : List ScriptValue}
    (c : w.engine.Coherent) (h : List.Forall₂ (Sent w) vs us) (exact' : ∀ v ∈ vs, v.isExact) :
    Act.mapAll (toHost r) us w = (.value vs, w) := by
  induction h with
  | nil => rfl
  | cons sent sents ih =>
    obtain ⟨first, others⟩ := List.forall_mem_cons.1 exact'
    exact (Act.bind_of_value (toHost_of_exact r c sent first) _).trans
      (Act.bind_of_value (ih others) _)

end Bridge

end

end ScriptBridge
