import ScriptBridge.Proofs.Runs
import ScriptBridge.Script.Call

/-!
What an object answers, by what it is. The stand-in of a container answers what the container has
and passes the rest on to its target; any other object answers from its properties. There is one
lemma for each thing that is asked and each kind of object that is asked, and what holds of all
objects is split by `ObjectKind.proxy_cases`.
-/

namespace ScriptBridge

theorem ObjectKind.proxy_cases (k : ObjectKind) :
    (∃ s target methods, k = .sequenceProxy s target methods) ∨
      (∃ p target, k = .plainProxy p target) ∨ k.target? = none := by
  cases k with
  | sequenceProxy s target methods => exact .inl ⟨s, target, methods, rfl⟩
  | plainProxy p target => exact .inr (.inl ⟨p, target, rfl⟩)
  | _ => exact .inr (.inr rfl)

namespace Script

variable {r : Reentry} {w w₁ : World} {id target : ObjectId} {o : Object} {s : SequenceId}
  {methods : List (SequenceMethod × ObjectId)} {p : PlainId} {key : PropertyKey}
  {receiver : ScriptValue} {steps : Nat}

/-! ### Reading -/

theorem getFrom_length (found : w.engine.objects.get? id.index = some o)
    (kind : o.kind = .sequenceProxy s target methods) :
    getFrom r receiver .length (steps + 1) (some id) w =
      (.value (.number (.ofNat (w.heap.sequence s).length)), w) := by
  rw [getFrom, Act.object?_bind found]
  simp only [kind, if_true]
  rfl

theorem getFrom_index (found : w.engine.objects.get? id.index = some o)
    (kind : o.kind = .sequenceProxy s target methods) (n : Nat) :
    getFrom r receiver (.index n) (steps + 1) (some id) w =
      Bridge.intoScript (Bridge.toScript ((w.heap.sequence s)[n]?.getD .undefined)) w := by
  have notLength : PropertyKey.index n ≠ .length := by simp [PropertyKey.length]
  rw [getFrom, Act.object?_bind found]
  simp only [kind, if_neg notLength]
  rfl

theorem getFrom_method (found : w.engine.objects.get? id.index = some o)
    (kind : o.kind = .sequenceProxy s target methods) {method : SequenceMethod}
    (named : methodOfKey? key = some method) :
    getFrom r receiver key (steps + 1) (some id) w = boundMethod id method w := by
  have notLength : key ≠ .length := by
    rintro rfl
    cases named
  rw [getFrom, Act.object?_bind found]
  simp only [kind, if_neg notLength, named]
  split
  · cases named
  · rename_i same
    rw [Option.some.inj same]
  · rename_i none
    cases none

theorem getFrom_sequence (found : w.engine.objects.get? id.index = some o)
    (kind : o.kind = .sequenceProxy s target methods) (noIndex : ∀ n, key ≠ .index n)
    (noLength : key ≠ .length) (noMethod : methodOfKey? key = none) :
    getFrom r receiver key (steps + 1) (some id) w =
      getFrom r receiver key steps (some target) w := by
  rw [getFrom, Act.object?_bind found]
  simp only [kind, if_neg noLength, noMethod]

theorem getFrom_entry (found : w.engine.objects.get? id.index = some o)
    (kind : o.kind = .plainProxy p target) {v : Value}
    (has : (plainKey? key).bind (w.heap.plain p).get? = some v) :
    getFrom r receiver key (steps + 1) (some id) w =
      Bridge.intoScript (Bridge.toScript v) w := by
  rw [getFrom, Act.object?_bind found]
  simp only [kind, Act.read_bind, has]

theorem getFrom_plain (found : w.engine.objects.get? id.index = some o)
    (kind : o.kind = .plainProxy p target)
    (lacks : (plainKey? key).bind (w.heap.plain p).get? = none) :
    getFrom r receiver key (steps + 1) (some id) w =
      getFrom r receiver key steps (some target) w := by
  rw [getFrom, Act.object?_bind found]
  simp only [kind, Act.read_bind, lacks]

theorem getFrom_properties (found : w.engine.objects.get? id.index = some o)
    (noTarget : o.kind.target? = none) :
    getFrom r receiver key (steps + 1) (some id) w =
      (match o.properties.get? key with
        | some (.data v ..) => Pure.pure v
        | some (.accessor (some getter) ..) => r.call getter receiver []
        | some (.accessor none ..) => Pure.pure .undefined
        | none => getFrom r receiver key steps o.prototype : ScriptAct ScriptValue) w := by
  rw [getFrom, Act.object?_bind found]
  obtain ⟨k, prototype, properties⟩ := o
  cases k with
  | sequenceProxy | plainProxy => cases noTarget
  | _ => rfl

theorem callable?_of_found (found : w.engine.objects.get? id.index = some o) :
    callable? (.object id) w = (.value (if o.kind.isFunction then some id else none), w) := by
  rw [callable?, Act.object?_bind found]
  obtain ⟨k, prototype, properties⟩ := o
  cases k <;> rfl

theorem isArray_of_found {ε : Type} (found : w.engine.objects.get? id.index = some o) :
    (isArray (.object id) : Act ε Bool) w =
      (.value (match o.kind with
        | .array | .sequenceProxy .. => true
        | _ => false), w) := by
  rw [isArray, Act.object?_bind found]
  obtain ⟨k, _, _⟩ := o
  cases k <;> rfl

/-! ### Calling -/

section Calling

variable {this : ScriptValue} {args : List ScriptValue}

theorem callObject_sequenceMethod (found : w.engine.objects.get? id.index = some o)
    {method : SequenceMethod} (kind : o.kind = .function (.sequenceMethod s method)) :
    callObject r id this args w = callSequenceMethod r s method args w := by
  rw [callObject, Act.object?_bind found]
  obtain ⟨_, _, _⟩ := o
  cases kind
  rfl

theorem callObject_cursorNext (found : w.engine.objects.get? id.index = some o) {c : Cursor}
    (kind : o.kind = .function (.cursorNext c)) :
    callObject r id this args w = stepCursor id c w := by
  rw [callObject, Act.object?_bind found]
  obtain ⟨_, _, _⟩ := o
  cases kind
  rfl

theorem callObject_hostFunction (found : w.engine.objects.get? id.index = some o)
    {f : HostFunctionId} (kind : o.kind = .function (.hostFunction f)) :
    callObject r id this args w = Bridge.invokeFromScript r f this args w := by
  rw [callObject, Act.object?_bind found]
  obtain ⟨_, _, _⟩ := o
  cases kind
  rfl

theorem callObject_builtin (found : w.engine.objects.get? id.index = some o) {b : Builtin}
    (kind : o.kind = .function (.builtin b)) :
    callObject r id this args w = callBuiltin r b this args w := by
  rw [callObject, Act.object?_bind found]
  obtain ⟨_, _, _⟩ := o
  cases kind
  rfl

end Calling

/-! ### Prototypes -/

theorem prototypeOf_of_target {ε : Type} (found : w.engine.objects.get? id.index = some o)
    (aims : o.kind.target? = some target) {hidden : Object}
    (under : w.engine.objects.get? target.index = some hidden) :
    (prototypeOf id : Act ε _) w = (.value hidden.prototype, w) := by
  have prototype : (do return (← Act.object? target).bind (·.prototype) : Act ε _) w =
      (.value hidden.prototype, w) := Act.object?_bind under _
  rw [prototypeOf, Act.object?_bind found]
  obtain ⟨k, _, _⟩ := o
  cases k with
  | sequenceProxy | plainProxy =>
    cases aims
    exact prototype
  | _ => cases aims

theorem prototypeOf_of_no_target {ε : Type} (found : w.engine.objects.get? id.index = some o)
    (noTarget : o.kind.target? = none) :
    (prototypeOf id : Act ε _) w = (.value o.prototype, w) := by
  rw [prototypeOf, Act.object?_bind found]
  obtain ⟨k, prototype, properties⟩ := o
  cases k with
  | sequenceProxy | plainProxy => cases noTarget
  | _ => rfl

/-! ### Whether a key is there -/

theorem hasFrom_index (found : w.engine.objects.get? id.index = some o)
    (kind : o.kind = .sequenceProxy s target methods) (n : Nat) :
    hasFrom (.index n) (steps + 1) (some id) w =
      (.value (n < (w.heap.sequence s).length), w) := by
  rw [hasFrom, Act.object?_bind found]
  simp only [kind]
  rfl

theorem hasFrom_entry (found : w.engine.objects.get? id.index = some o)
    (kind : o.kind = .plainProxy p target) {v : Value}
    (has : (plainKey? key).bind (w.heap.plain p).get? = some v) :
    hasFrom key (steps + 1) (some id) w = (.value true, w) := by
  rw [hasFrom, Act.object?_bind found]
  simp only [kind, Act.read_bind, has, Option.isSome_some, if_true]
  rfl

theorem hasFrom_plain (found : w.engine.objects.get? id.index = some o)
    (kind : o.kind = .plainProxy p target)
    (lacks : (plainKey? key).bind (w.heap.plain p).get? = none) :
    hasFrom key (steps + 1) (some id) w = hasFrom key steps (some target) w := by
  rw [hasFrom, Act.object?_bind found]
  simp only [kind, Act.read_bind, lacks, Option.isSome_none, Bool.false_eq_true, if_false]

theorem hasFrom_properties (found : w.engine.objects.get? id.index = some o)
    (noTarget : o.kind.target? = none) :
    hasFrom key (steps + 1) (some id) w =
      (if o.properties.contains key then Pure.pure true
        else hasFrom key steps o.prototype : ScriptAct Bool) w := by
  rw [hasFrom, Act.object?_bind found]
  obtain ⟨k, prototype, properties⟩ := o
  cases k with
  | sequenceProxy | plainProxy => cases noTarget
  | _ => rfl

/-! ### Own properties -/

theorem ownProperty?_index (found : w.engine.objects.get? id.index = some o)
    (kind : o.kind = .sequenceProxy s target methods) (n : Nat) :
    ownProperty? id (.index n) w =
      (match (w.heap.sequence s)[n]? with
        | none => Pure.pure none
        | some v => do return some (.open_ (← Bridge.intoScript (Bridge.toScript v))) :
        ScriptAct _) w := by
  rw [ownProperty?, Act.object?_bind found]
  simp only [kind]
  rfl

theorem ownProperty?_entry (found : w.engine.objects.get? id.index = some o)
    (kind : o.kind = .plainProxy p target) {v : Value}
    (has : (plainKey? key).bind (w.heap.plain p).get? = some v) :
    ownProperty? id key w =
      (do return some (.open_ (← Bridge.intoScript (Bridge.toScript v))) : ScriptAct _) w := by
  rw [ownProperty?, Act.object?_bind found]
  simp only [kind, Act.read_bind, has]

theorem ownProperty?_plain (found : w.engine.objects.get? id.index = some o)
    (kind : o.kind = .plainProxy p target)
    (lacks : (plainKey? key).bind (w.heap.plain p).get? = none) :
    ownProperty? id key w =
      (.value ((w.engine.objects.get? target.index).bind (·.properties.get? key)), w) := by
  rw [ownProperty?, Act.object?_bind found]
  simp only [kind, Act.read_bind, lacks]
  rfl

theorem ownKeys_sequence (found : w.engine.objects.get? id.index = some o)
    (kind : o.kind = .sequenceProxy s target methods) :
    let own := ((w.engine.objects.get? target.index).map (·.ownKeys)).getD []
    ownKeys id w = (.value ((List.range (w.heap.sequence s).length).map .ofNat ++
      own.filter (!·.isIndex)), w) := by
  intro own
  rw [ownKeys, Act.object?_bind found]
  simp only [kind]
  rfl

theorem ownKeys_plain (found : w.engine.objects.get? id.index = some o)
    (kind : o.kind = .plainProxy p target) {hidden : Object}
    (under : w.engine.objects.get? target.index = some hidden) :
    let keys := (w.heap.plain p).keys.map .ofString ++ hidden.ownKeys
    ownKeys id w = (if keys.Nodup then Pure.pure keys
      else Act.throwType "proxy: duplicate property" : ScriptAct _) w := by
  intro keys
  rw [ownKeys, Act.object?_bind found]
  simp only [kind]
  rw [Act.read_bind, Act.object?_bind under]
  rfl

/-! ### Writing -/

theorem assignHosted?_length (kind : o.kind = .sequenceProxy s target methods) (v : ScriptValue) :
    assignHosted? r o .length v = Bridge.intoScript do
      let requested ← Bridge.toHost r v
      Sequence.assignLength s (← Act.read (·.heap.number requested))
      return none := by
  rw [assignHosted?, kind]
  exact if_pos rfl

theorem assignHosted?_index (kind : o.kind = .sequenceProxy s target methods) (n : Nat)
    (v : ScriptValue) :
    assignHosted? r o (.index n) v = Bridge.intoScript do
      Sequence.writeSlotWithin s n (← Bridge.toHost r v)
      return none := by
  have notLength : PropertyKey.index n ≠ .length := by simp [PropertyKey.length]
  rw [assignHosted?, kind]
  exact if_neg notLength

theorem assignHosted?_sequence (kind : o.kind = .sequenceProxy s target methods)
    (noIndex : ∀ n, key ≠ .index n) (noLength : key ≠ .length) (v : ScriptValue) :
    assignHosted? r o key v = Pure.pure (some target) := by
  rw [assignHosted?, kind]
  cases key with
  | index n => exact absurd rfl (noIndex n)
  | name t => exact if_neg noLength
  | symbol s => exact if_neg noLength

theorem assignHosted?_named (kind : o.kind = .plainProxy p target) {name : String}
    (named : plainKey? key = some name) (v : ScriptValue) :
    assignHosted? r o key v = Bridge.intoScript do
      let v ← Bridge.toHost r v
      Act.setEntry p name v
      return none := by
  rw [assignHosted?, kind]
  simp only [named]

theorem setFrom_proxy (found : w.engine.objects.get? id.index = some o)
    (aims : o.kind.target? = some target) {receiver : ObjectId} {v : ScriptValue} :
    setFrom r receiver key v (steps + 1) (some id) w =
      (do
        match ← assignHosted? r o key v with
        | none => return none
        | some target =>
          match ← setFrom r target key v steps (some target) with
          | none => return none
          | some _ => return some .standIn : ScriptAct (Option Refusal)) w := by
  rw [setFrom, Act.object?_bind found]
  obtain ⟨k, prototype, properties⟩ := o
  cases k with
  | sequenceProxy | plainProxy => rfl
  | _ => cases aims

/-! ### Deleting and defining -/

theorem deleteProperty_index (found : w.engine.objects.get? id.index = some o)
    (kind : o.kind = .sequenceProxy s target methods) (n : Nat) :
    deleteProperty id (.index n) w =
      (do
        Bridge.intoScript (Sequence.clearSlot s n)
        return true : ScriptAct Bool) w := by
  rw [deleteProperty, Act.object?_bind found]
  simp only [kind]

theorem deleteProperty_sequence (found : w.engine.objects.get? id.index = some o)
    (kind : o.kind = .sequenceProxy s target methods) (noIndex : ∀ n, key ≠ .index n) :
    deleteProperty id key w = deleteOwn target key w := by
  rw [deleteProperty, Act.object?_bind found]
  simp only [kind]

theorem deleteProperty_named (found : w.engine.objects.get? id.index = some o)
    (kind : o.kind = .plainProxy p target) {name : String} (named : plainKey? key = some name) :
    deleteProperty id key w = (.value true, (Act.removeEntry (ε := Error) p name w).2) := by
  rw [deleteProperty, Act.object?_bind found]
  simp only [kind, named]
  rfl

theorem define_sequence (found : w.engine.objects.get? id.index = some o)
    (kind : o.kind = .sequenceProxy s target methods) (v : ScriptValue) :
    define r id key (.value v) w = (do
      match ← assignHosted? r o key v with
      | none =>
        if key = .length then Act.throwType "proxy: inconsistent defineProperty" else return ()
      | some target => do
        if ← defineOwn target key (.value v) then return ()
        else Act.throwType "proxy: defineProperty exception" : ScriptAct Unit) w := by
  obtain ⟨_, _, _⟩ := o
  cases kind
  exact Act.object?_bind found _

theorem define_plain (found : w.engine.objects.get? id.index = some o)
    (kind : o.kind = .plainProxy p target) (v : ScriptValue) :
    define r id key (.value v) w = (do
      match ← assignHosted? r o key v with
      | none => return ()
      | some target => do
        if ← defineOwn target key (.value v) then return ()
        else Act.throwType "proxy: defineProperty exception" : ScriptAct Unit) w := by
  obtain ⟨_, _, _⟩ := o
  cases kind
  exact Act.object?_bind found _

theorem define_getter (found : w.engine.objects.get? id.index = some o)
    (aims : o.kind.target? = some target) (f : ObjectId) :
    define r id key (.getter f) w = (do
      if ← defineOwn target key (.getter f) then return ()
      else Act.throwType "proxy: defineProperty exception" : ScriptAct Unit) w := by
  rw [define, Act.object?_bind found]
  obtain ⟨k, _, _⟩ := o
  cases k with
  | sequenceProxy | plainProxy =>
    cases aims
    rfl
  | _ => cases aims

end Script

end ScriptBridge
