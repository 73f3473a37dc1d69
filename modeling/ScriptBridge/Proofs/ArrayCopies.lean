import ScriptBridge.Proofs.Copying

/-!
Arrays of the script copied into the host. Arrays may be shared or contain themselves; the copy
follows them level by level and ends because levels are counted. Each occurrence of an array becomes
a new sequence of its own.
-/

namespace ScriptBridge

/-! ### Lengths -/

theorem Number.arrayLength?_of_whole {units : Nat} (fits : Representable units)
    (whole : units % Double.one = 0) (h : units / Double.one ≤ lengthLimit) :
    arrayLength? (.finite false units fits) = some (units / Double.one) := by
  have integral : (Double.finite false units fits).isIntegral = true := decide_eq_true whole
  have positive : (Double.finite false units fits).lt (.zero false) = false :=
    decide_eq_false (Int.not_lt.2 (Int.natCast_nonneg units))
  simp only [arrayLength?, integral, positive, Double.magnitude, h]
  rfl

theorem Number.arrayLength?_ofNat {n : Nat} (h : n ≤ lengthLimit) :
    arrayLength? (.ofNat n) = some n := by
  have exact : n ≤ 2 ^ 53 := Nat.le_trans h (by decide)
  have whole := Double.whole_div n
  rw [Double.ofNat_eq exact, arrayLength?_of_whole _ (Nat.mul_mod_left n _) (whole.symm ▸ h), whole]

/-! ### Arrays and what is in them -/

/-- An array of the script with what is read at its positions: its own elements, and for a hole what
its prototypes have there, all of it data. -/
structure NativeArray (w : World) (id : ObjectId) (items : List ScriptValue) : Prop where
  array : ∃ o, Ordinary w id o ∧ o.kind = .array ∧
    ∃ a b c, o.properties.get? .length = some (.data (.number (.ofNat items.length)) a b c)
  length_le : items.length ≤ Number.lengthLimit
  items : ∀ i v, items[i]? = some v → Finds w (.index i) (some id) v

namespace Script

/-- Elements are put at their positions, one after another. -/
theorem get?_foldl_items (items : List ScriptValue) (first : Nat)
    (properties : Entries PropertyKey Property) (i : Nat) :
    (((items.map some).zipIdx first).foldl (fun properties (item, i) =>
      match item with
      | some v => properties.insert (PropertyKey.index i) (.open_ v)
      | none => properties) properties).get? (.index i) =
      if first ≤ i ∧ i < first + items.length then (items[i - first]?).map .open_
      else properties.get? (.index i) := by
  induction items generalizing first properties with
  | nil =>
    rw [if_neg (by simp)]
    rfl
  | cons v items ih =>
    rw [List.map_cons, List.zipIdx_cons, List.foldl_cons, ih]
    by_cases here : i = first
    · subst here
      rw [if_neg (by omega), if_pos (by simp), Nat.sub_self]
      exact Entries.get?_insert_self _ _ _
    · have other : PropertyKey.index first ≠ .index i := fun same => here (by cases same; rfl)
      rw [List.length_cons, Entries.get?_insert_of_ne _ other]
      by_cases after : first < i
      · obtain ⟨j, rfl⟩ := Nat.exists_eq_add_of_lt after
        have there : first + j + 1 - first = j + 1 := by omega
        have there' : first + j + 1 - (first + 1) = j := by omega
        rw [there, there', List.getElem?_cons_succ]
        by_cases inside : j < items.length
        · rw [if_pos (by omega), if_pos (by omega)]
        · rw [if_neg (by omega), if_neg (by omega)]
      · rw [if_neg (by omega), if_neg (by omega)]

/-- A new array holds its items. -/
theorem newArray_eq {ε : Type} {items : List ScriptValue}
    (short : items.length ≤ Number.lengthLimit) (w : World) :
    ∃ o, (newArray items : Act ε _) w =
        (.value (.object ⟨w.engine.objects.size⟩), w.withObject o) ∧
      NativeArray (w.withObject o) ⟨w.engine.objects.size⟩ items := by
  refine ⟨_, rfl, ⟨_, World.ordinary_withObject w rfl, rfl, true, false, false, ?_⟩, short,
    fun i v item => ?_⟩
  · rw [Entries.get?_insert_self, List.length_map]
  · obtain ⟨inside, rfl⟩ := List.getElem?_eq_some_iff.1 item
    have apart : PropertyKey.length ≠ .index i := by
      intro same
      cases same
    have stored := get?_foldl_items items 0 .empty i
    rw [if_pos (by omega), Nat.sub_zero, List.getElem?_eq_getElem inside] at stored
    exact .own (World.ordinary_withObject w rfl)
      ((Entries.get?_insert_of_ne _ apart _).trans stored)

end Script

theorem NativeArray.reads {w : World} {id : ObjectId} {items : List ScriptValue}
    (array : NativeArray w id items) : List.Forall₂ (fun i v => Finds w (.index i) (some id) v)
      (List.range items.length) items := by
  refine List.forall₂_iff_get.2 ⟨List.length_range, fun i h h' => ?_⟩
  rw [List.get_eq_getElem, List.get_eq_getElem, List.getElem_range]
  exact array.items i _ (List.getElem?_eq_getElem h')

theorem NativeArray.withObject {w : World} {id : ObjectId} {items : List ScriptValue}
    (array : NativeArray w id items) (made : Object) :
    NativeArray (w.withObject made) id items := by
  obtain ⟨⟨o, ordinary, kind, long⟩, short, elements⟩ := array
  exact ⟨⟨o, ordinary.withObject made, kind, long⟩, short, fun i v item =>
    (elements i v item).of_objects fun _ _ h => h.withObject made⟩

/-- An object of the script that is held by reference and no function. -/
structure PlainObject (w : World) (id : ObjectId) (o : Object) : Prop where
  ordinary : Ordinary w id o
  noFunction : ∀ code, o.kind ≠ .function code
  noArray : o.kind ≠ .array
  noDate : (Script.inherits id Intrinsic.datePrototype : HostAct _) w = (.value false, w)
  noError : (Script.inherits id Intrinsic.errorPrototype : HostAct _) w = (.value false, w)

structure DateObject (w : World) (id : ObjectId) (millis : Double) : Prop where
  object : ∃ o, Ordinary w id o ∧ o.kind = .date millis
  isDate : (Script.inherits id Intrinsic.datePrototype : HostAct _) w = (.value true, w)

/-- An error object of the script with what is read as its name, message and stack. -/
structure ErrorData (w : World) (id : ObjectId) (name message stack : ScriptValue) : Prop where
  object : ∃ o, Ordinary w id o ∧ (∀ code, o.kind ≠ .function code) ∧ o.kind ≠ .array
  noDate : (Script.inherits id Intrinsic.datePrototype : HostAct _) w = (.value false, w)
  isError : (Script.inherits id Intrinsic.errorPrototype : HostAct _) w = (.value true, w)
  name : Finds w (.ofString "name") (some id) name
  message : Finds w (.ofString "message") (some id) message
  stack : Finds w (.ofString "stack") (some id) stack

/-- Data that is no array of the script. -/
inductive Leaf (w : World) : ScriptValue → Prop where
  | primitive {v : ScriptValue} (h : ∀ id, v ≠ .object id) : Leaf w v
  | standIn {id : ObjectId} {handle : Handle} (h : w.engine.registry.standIn? handle = some id)
    (made : ∀ s, handle = .sequence s → s.index < w.heap.sequences.size) : Leaf w (.object id)
  | function {id : ObjectId} {o : Object} {code : FunctionCode} {name : ScriptValue}
    (h : Ordinary w id o) (kind : o.kind = .function code)
    (named : Finds w (.ofString "name") (some id) name) : Leaf w (.object id)
  | object {id : ObjectId} {o : Object} (h : PlainObject w id o) : Leaf w (.object id)
  | date {id : ObjectId} {millis : Double} (h : DateObject w id millis) : Leaf w (.object id)
  | error {id : ObjectId} {name message stack : ScriptValue}
    (h : ErrorData w id name message stack) : Leaf w (.object id)

/-- Leaves that have no form on the host. -/
inductive Inconvertible (w : World) : ScriptValue → Prop where
  | symbol (s : Symbol) : Inconvertible w (.symbol s)
  | bigint (n : Int) : Inconvertible w (.bigint n)
  | text {t : Utf16} (h : t.toString? = none) : Inconvertible w (.string t)
  | date {id : ObjectId} {millis : Double} (h : DateObject w id millis) {e : Error}
    (bad : Bridge.dateValue millis = .error e) : Inconvertible w (.object id)
  | error {id : ObjectId} {name message stack : ScriptValue}
    (h : ErrorData w id name message stack)
    (bad : ∃ v ∈ [name, message, stack], v.optionalText? = none) : Inconvertible w (.object id)

/-- What is found so many levels inside a value: the value itself at level 0, then the elements of
arrays. -/
inductive Inside (w : World) : ScriptValue → Nat → ScriptValue → Prop where
  | self (v : ScriptValue) : Inside w v 0 v
  | element {id : ObjectId} {items : List ScriptValue} {v u : ScriptValue} {level : Nat}
    (array : NativeArray w id items) (mem : v ∈ items) (rest : Inside w v level u) :
    Inside w (.object id) (level + 1) u

/-- Arrays in which there are only arrays and leaves, at any level. -/
def ArrayData (w : World) (v : ScriptValue) : Prop :=
  ∀ level u, Inside w v level u → Leaf w u ∨ ∃ id items, u = .object id ∧ NativeArray w id items

/-- What can be copied into the host while so many levels of arrays are left: no more of them are
nested, none of the arrays is too long, and all leaves have a form on the host. -/
def Copyable (w : World) (levels : Nat) (v : ScriptValue) : Prop :=
  ∀ level u, Inside w v level u → ¬Inconvertible w u ∧
    ∀ id items, u = .object id → NativeArray w id items →
      level < levels ∧ items.length ≤ w.config.maxArrayLength

/-! ### Copies -/

/-- What a leaf becomes on the host. -/
inductive LeafCopy (w w' : World) : ScriptValue → Value → Prop where
  | undefined : LeafCopy w w' .undefined .undefined
  | null : LeafCopy w w' .null .null
  | bool (b : Bool) : LeafCopy w w' (.bool b) (.bool b)
  | number (d : Double) : LeafCopy w w' (.number d) (.number d)
  | string {t : Utf16} {s : String} (h : t.toString? = some s) :
    LeafCopy w w' (.string t) (.string s)
  | standIn {id : ObjectId} {handle : Handle} (h : w.engine.registry.standIn? handle = some id)
    (made : ∀ s, handle = .sequence s → s.index < w.heap.sequences.size) :
    LeafCopy w w' (.object id) handle.value
  | reference {id : ObjectId} {o : Object} {v : Value} {ref : ScriptRef} (h : Ordinary w id o)
    (isRef : v.reference? = some ref) (holds : HoldsAs o v ref) (refers : Refers w' ref id) :
    LeafCopy w w' (.object id) v
  | date {id : ObjectId} {millis : Double} {v : Value} (h : DateObject w id millis)
    (copy : Bridge.dateValue millis = .ok v) : LeafCopy w w' (.object id) v
  | error {id : ObjectId} {name message stack : ScriptValue} {name' message' stack' : Option String}
    (h : ErrorData w id name message stack) (nameText : name.optionalText? = some name')
    (messageText : message.optionalText? = some message')
    (stackText : stack.optionalText? = some stack') :
    LeafCopy w w' (.object id)
      (.error { name := name'.getD "Error", message := message'.getD "", stack := stack' })

/-- What data becomes on the host: an array becomes a sequence that was not there before, as long as
the array and with the copies of its elements. -/
inductive CopyOf (w w' : World) : ScriptValue → Value → Prop where
  | leaf {v : ScriptValue} {x : Value} (h : LeafCopy w w' v x) : CopyOf w w' v x
  | array {id : ObjectId} {items : List ScriptValue} {s : SequenceId}
    (array : NativeArray w id items) (fresh : w.heap.sequences.size ≤ s.index)
    (made : s.index < w'.heap.sequences.size)
    (length : (w'.heap.sequence s).length = items.length)
    (elements : ∀ (i : Nat) (u : ScriptValue) (x : Value), items[i]? = some u →
      (w'.heap.sequence s)[i]? = some x → CopyOf w w' u x) :
    CopyOf w w' (.object id) (.sequence s)

/-! ### Leaves -/

namespace Bridge

variable {r : Reentry} {w u : World} {id : ObjectId} {v : ScriptValue}

theorem valueToHost_of_date (copyArray : ObjectId → HostAct Value) (c : Copying w u)
    (coherent : u.engine.Coherent) {millis : Double} (h : DateObject w id millis) :
    valueToHost r copyArray (.object id) u = Act.ofExcept (dateValue millis) u := by
  obtain ⟨o, ordinary, kind⟩ := h.object
  rw [valueToHost_of_ordinary copyArray coherent (c.ordinary ordinary)]
  simp only [kind]
  rw [objectToHost, Act.bind_of_value (c.inherits h.isDate), if_pos rfl]
  simp only [kind]

theorem errorValue_eq {name message stack : ScriptValue}
    (named : Finds u (.ofString "name") (some id) name)
    (told : Finds u (.ofString "message") (some id) message)
    (traced : Finds u (.ofString "stack") (some id) stack) :
    (∃ name' message' stack', name.optionalText? = some name' ∧
      message.optionalText? = some message' ∧ stack.optionalText? = some stack' ∧
      errorValue r id u = (.value (.error
        { name := name'.getD "Error", message := message'.getD "", stack := stack' }), u)) ∨
    (∃ v ∈ [name, message, stack], v.optionalText? = none) ∧
      ∃ e, errorValue r id u = (.failure e, u) := by
  have readName := named.readText_eq (r := r)
  have readMessage := told.readText_eq (r := r)
  have readStack := traced.readText_eq (r := r)
  rw [errorValue]
  obtain ⟨name', text, reads⟩ | ⟨none, e, fails⟩ := optionalText_eq name u
  · rw [Act.bind_of_value (readName.trans reads)]
    obtain ⟨message', text', reads'⟩ | ⟨none, e, fails⟩ := optionalText_eq message u
    · rw [Act.bind_of_value (readMessage.trans reads')]
      obtain ⟨stack', text'', reads''⟩ | ⟨none, e, fails⟩ := optionalText_eq stack u
      · rw [Act.bind_of_value (readStack.trans reads'')]
        exact .inl ⟨name', message', stack', text, text', text'', rfl⟩
      · exact .inr ⟨⟨stack, by simp, none⟩, e, Act.bind_of_failure (readStack.trans fails) _⟩
    · exact .inr ⟨⟨message, by simp, none⟩, e, Act.bind_of_failure (readMessage.trans fails) _⟩
  · exact .inr ⟨⟨name, by simp, none⟩, e, Act.bind_of_failure (readName.trans fails) _⟩

theorem valueToHost_of_error (copyArray : ObjectId → HostAct Value) (c : Copying w u)
    (coherent : u.engine.Coherent) {name message stack : ScriptValue}
    (h : ErrorData w id name message stack) :
    valueToHost r copyArray (.object id) u = errorValue r id u := by
  obtain ⟨o, ordinary, noFunction, noArray⟩ := h.object
  rw [valueToHost_of_plain copyArray coherent (c.ordinary ordinary) noFunction noArray,
    objectToHost, Act.bind_of_value (c.inherits h.noDate), if_neg (by decide),
    Act.bind_of_value (c.inherits h.isError), if_pos rfl]

theorem valueToHost_of_inconvertible (copyArray : ObjectId → HostAct Value) (c : Copying w u)
    (coherent : u.engine.Coherent) (h : Inconvertible w v) :
    ∃ e u', valueToHost r copyArray v u = (.failure e, u') := by
  cases h with
  | symbol | bigint => exact ⟨_, _, rfl⟩
  | text h =>
    unfold valueToHost
    simp only [h]
    exact ⟨_, _, rfl⟩
  | date h bad =>
    rw [valueToHost_of_date copyArray c coherent h, bad]
    exact ⟨_, _, rfl⟩
  | error h bad =>
    rw [valueToHost_of_error copyArray c coherent h]
    obtain ⟨name, message, stack, text, text', text'', _⟩ | ⟨_, e, fails⟩ :=
      errorValue_eq (r := r) (c.finds h.name) (c.finds h.message) (c.finds h.stack)
    · obtain ⟨v, mem, none⟩ := bad
      simp only [List.mem_cons, List.not_mem_nil, or_false] at mem
      obtain rfl | rfl | rfl := mem <;> simp_all
    · exact ⟨e, u, fails⟩

theorem valueToHost_of_primitive (copyArray : ObjectId → HostAct Value) (u : World)
    (primitive : ∀ id, v ≠ .object id) :
    Inconvertible w v ∨ ∃ x, valueToHost r copyArray v u = (.value x, u) ∧ LeafCopy w u v x := by
  cases v with
  | undefined => exact .inr ⟨_, rfl, .undefined⟩
  | null => exact .inr ⟨_, rfl, .null⟩
  | bool b => exact .inr ⟨_, rfl, .bool b⟩
  | number d => exact .inr ⟨_, rfl, .number d⟩
  | string t =>
    cases text : t.toString? with
    | none => exact .inl (.text text)
    | some s =>
      refine .inr ⟨.string s, ?_, .string text⟩
      unfold valueToHost
      simp only [text]
      rfl
  | symbol s => exact .inl (.symbol s)
  | bigint n => exact .inl (.bigint n)
  | object id => exact absurd rfl (primitive id)

theorem valueToHost_of_function (copyArray : ObjectId → HostAct Value) (c : Copying w u)
    (coherent : u.engine.Coherent) {o : Object} {code : FunctionCode} {name : ScriptValue}
    (h : Ordinary w id o) (kind : o.kind = .function code)
    (named : Finds w (.ofString "name") (some id) name) :
    ∃ x u', valueToHost r copyArray (.object id) u = (.value x, u') ∧ Copying u u' ∧
      LeafCopy w u' (.object id) x := by
  obtain ⟨ref, u', holds, refers⟩ := hold_refers id u
  have copying := Copying.of_hold holds
  obtain ⟨text, reads⟩ := ((c.trans copying).finds named).textOrNone_eq (r := r)
  have held : HoldsAs o (.function (.script ref (text.getD ""))) ref := by
    rw [HoldsAs, kind]
    exact ⟨_, rfl⟩
  refine ⟨_, u', ?_, copying, .reference h rfl held refers⟩
  rw [valueToHost_of_ordinary copyArray coherent (c.ordinary h)]
  simp only [kind]
  rw [holdFunction, Act.bind_of_value holds, Act.bind_of_value reads]
  rfl

theorem valueToHost_of_object (copyArray : ObjectId → HostAct Value) (c : Copying w u)
    (coherent : u.engine.Coherent) {o : Object} (h : PlainObject w id o) :
    ∃ x u', valueToHost r copyArray (.object id) u = (.value x, u') ∧ Copying u u' ∧
      LeafCopy w u' (.object id) x := by
  obtain ⟨ref, u', holds, refers⟩ := hold_refers id u
  have held : HoldsAs o (.object ref) ref := by
    have noFunction : o.kind.isFunction = false := by
      cases kind : o.kind with
      | function code => exact absurd kind (h.noFunction code)
      | _ => rfl
    rw [HoldsAs, noFunction]
    rfl
  refine ⟨_, u', ?_, .of_hold holds, .reference h.ordinary rfl held refers⟩
  rw [valueToHost_of_plain copyArray coherent (c.ordinary h.ordinary) h.noFunction h.noArray,
    objectToHost, Act.bind_of_value (c.inherits h.noDate), if_neg (by decide),
    Act.bind_of_value (c.inherits h.noError), if_neg (by decide), Act.bind_of_value holds]
  rfl

/-- A leaf that has a form on the host is converted, and nothing is done to host containers. -/
theorem valueToHost_of_leaf (copyArray : ObjectId → HostAct Value) (c : Copying w u)
    (coherent : u.engine.Coherent) (leaf : Leaf w v) :
    Inconvertible w v ∨ ∃ x u', valueToHost r copyArray v u = (.value x, u') ∧ Copying u u' ∧
      LeafCopy w u' v x := by
  cases leaf with
  | primitive h =>
    obtain bad | ⟨x, gives, copy⟩ := valueToHost_of_primitive (r := r) copyArray u h
    · exact .inl bad
    · exact .inr ⟨x, u, gives, .refl u, copy⟩
  | standIn h made =>
    have registered := c.registry ▸ h
    exact .inr ⟨_, u, valueToHost_of_registered copyArray coherent registered, .refl u,
      .standIn h made⟩
  | function h kind named => exact .inr (valueToHost_of_function copyArray c coherent h kind named)
  | object h => exact .inr (valueToHost_of_object copyArray c coherent h)
  | @date id millis h =>
    cases copy : dateValue millis with
    | error e => exact .inl (.date h copy)
    | ok x =>
      refine .inr ⟨x, u, ?_, .refl u, .date h copy⟩
      rw [valueToHost_of_date copyArray c coherent h, copy]
      rfl
  | error h =>
    obtain ⟨name, message, stack, text, text', text'', gives⟩ | ⟨bad, _⟩ :=
      errorValue_eq (r := r) (c.finds h.name) (c.finds h.message) (c.finds h.stack)
    · refine .inr ⟨_, u, ?_, .refl u, .error h text text' text''⟩
      rw [valueToHost_of_error copyArray c coherent h, gives]
    · exact .inl (.error h bad)

end Bridge

/-! ### What can be copied -/

section

variable {w : World} {id : ObjectId} {items : List ScriptValue} {v : ScriptValue} {levels : Nat}

theorem NativeArray.kind_eq (array : NativeArray w id items) {o : Object} (h : Ordinary w id o) :
    o.kind = .array := by
  obtain ⟨o', ordinary, kind, _⟩ := array.array
  exact h.unique ordinary ▸ kind

theorem DateObject.noArray {millis : Double} (date : DateObject w id millis) :
    ¬NativeArray w id items := by
  intro array
  obtain ⟨o, ordinary, kind⟩ := date.object
  cases kind.symm.trans (array.kind_eq ordinary)

theorem ErrorData.noArray {name message stack : ScriptValue}
    (error : ErrorData w id name message stack) : ¬NativeArray w id items := by
  intro array
  obtain ⟨o, ordinary, _, noArray⟩ := error.object
  exact noArray (array.kind_eq ordinary)

theorem Leaf.noArray (coherent : w.engine.Coherent) (leaf : Leaf w (.object id)) :
    ¬NativeArray w id items := by
  intro array
  cases leaf with
  | primitive h => exact h id rfl
  | standIn h _ =>
    obtain ⟨o, ordinary, _⟩ := array.array
    obtain ⟨q, found, stands⟩ := coherent.standsFor _ _ h
    obtain rfl := Option.some.inj (found.symm.trans ordinary.found)
    rw [ordinary.standsFor] at stands
    cases stands
  | function h isFunction => cases isFunction.symm.trans (array.kind_eq h)
  | object h => exact h.noArray (array.kind_eq h.ordinary)
  | date h => exact h.noArray array
  | error h => exact h.noArray array

theorem NativeArray.convertible (array : NativeArray w id items) :
    ¬Inconvertible w (.object id) := by
  intro h
  cases h with
  | date h => exact h.noArray array
  | error h => exact h.noArray array

theorem NativeArray.unique {items' : List ScriptValue} (array : NativeArray w id items)
    (array' : NativeArray w id items') : items' = items := by
  have length : items'.length = items.length := by
    obtain ⟨o, ordinary, _, _, _, _, own⟩ := array.array
    obtain ⟨o', ordinary', _, _, _, _, own'⟩ := array'.array
    obtain rfl := ordinary.unique ordinary'
    have same := Option.some.inj (own'.symm.trans own)
    simp only [Property.data.injEq, ScriptValue.number.injEq] at same
    have limit : Number.lengthLimit < 2 ^ 53 := by decide
    have le := array.length_le
    have le' := array'.length_le
    exact Double.ofNat_inj (by omega) (by omega) same.1
  refine List.ext_getElem length fun i h h' => ?_
  exact (array'.items i _ (List.getElem?_eq_getElem h)).unique
    (array.items i _ (List.getElem?_eq_getElem h'))

theorem copyable_leaf (noArray : ∀ id items, v = .object id → ¬NativeArray w id items) :
    Copyable w levels v ↔ ¬Inconvertible w v := by
  constructor
  · exact fun copyable => (copyable 0 v (.self v)).1
  · rintro convertible level u inside
    cases inside with
    | self => exact ⟨convertible, fun id items same array => absurd array (noArray id items same)⟩
    | element array => exact absurd array (noArray _ _ rfl)

theorem not_copyable_zero (array : NativeArray w id items) : ¬Copyable w 0 (.object id) :=
  fun copyable => Nat.not_lt_zero _ ((copyable 0 _ (.self _)).2 id items rfl array).1

/-- An array can be copied that is not too long, if its elements can with one level less. -/
theorem copyable_array (array : NativeArray w id items) :
    Copyable w (levels + 1) (.object id) ↔
      items.length ≤ w.config.maxArrayLength ∧ ∀ v ∈ items, Copyable w levels v := by
  constructor
  · intro copyable
    refine ⟨((copyable 0 _ (.self _)).2 id items rfl array).2, fun v mem level u inside => ?_⟩
    obtain ⟨convertible, limits⟩ := copyable (level + 1) u (.element array mem inside)
    refine ⟨convertible, fun id' items' same array' => ?_⟩
    obtain ⟨below, short⟩ := limits id' items' same array'
    exact ⟨Nat.lt_of_succ_lt_succ below, short⟩
  · rintro ⟨short, all⟩ level u inside
    cases inside with
    | self =>
      refine ⟨array.convertible, fun id' items' same array' => ?_⟩
      cases same
      exact ⟨Nat.succ_pos _, array.unique array' ▸ short⟩
    | element array' mem rest =>
      rw [array.unique array'] at mem
      obtain ⟨convertible, limits⟩ := all _ mem _ _ rest
      refine ⟨convertible, fun id' items' same array' => ?_⟩
      obtain ⟨below, short⟩ := limits id' items' same array'
      exact ⟨Nat.succ_lt_succ below, short⟩

theorem ArrayData.of_leaf (leaf : Leaf w v)
    (noArray : ∀ id items, v = .object id → ¬NativeArray w id items) : ArrayData w v := by
  intro level u inside
  cases inside with
  | self => exact .inl leaf
  | element array => exact absurd array (noArray _ _ rfl)

theorem ArrayData.of_array (array : NativeArray w id items) (each : ∀ v ∈ items, ArrayData w v) :
    ArrayData w (.object id) := by
  intro level u inside
  cases inside with
  | self => exact .inr ⟨id, items, rfl, array⟩
  | element array' mem rest =>
    rw [array.unique array'] at mem
    exact each _ mem _ u rest

theorem ArrayData.element (data : ArrayData w (.object id)) (array : NativeArray w id items)
    (mem : v ∈ items) : ArrayData w v :=
  fun level u inside => data (level + 1) u (.element array mem inside)

end

/-! ### Conversion -/

theorem LeafCopy.later {w w₁ w₂ : World} {v : ScriptValue} {x : Value} (h : LeafCopy w w₁ v x)
    (c : Copying w₁ w₂) : LeafCopy w w₂ v x := by
  cases h with
  | undefined => exact .undefined
  | null => exact .null
  | bool b => exact .bool b
  | number d => exact .number d
  | string h => exact .string h
  | standIn h made => exact .standIn h made
  | reference h isRef holds refers =>
    exact .reference h isRef holds (refers.of_reaches c.reaches c.runtime)
  | date h copy => exact .date h copy
  | error h name message stack => exact .error h name message stack

theorem CopyOf.later {w w₁ w₂ : World} {v : ScriptValue} {x : Value} (h : CopyOf w w₁ v x)
    (c : Copying w₁ w₂) : CopyOf w w₂ v x := by
  induction h with
  | leaf h => exact .leaf (h.later c)
  | array array fresh made length _ ih =>
    have same := c.extends_heap.sequence_eq made
    refine .array array fresh (Nat.lt_of_lt_of_le made c.extends_heap.size_le) (same ▸ length)
      fun i u x item copy => ih i u x item (same ▸ copy)

/-- The sequence that a leaf may become was there before. -/
theorem LeafCopy.old {w w' : World} {v : ScriptValue} {s : SequenceId}
    (h : LeafCopy w w' v (.sequence s)) : s.index < w.heap.sequences.size := by
  generalize value : Value.sequence s = x at h
  cases h with
  | @standIn _ handle _ made =>
    cases handle with
    | sequence t =>
      cases value
      exact made s rfl
    | plain | function => cases value
  | reference _ isRef =>
    subst value
    cases isRef
  | date _ copy =>
    unfold Bridge.dateValue at copy
    subst value
    split at copy
    · cases copy
    · split at copy <;> cases copy
  | _ => cases value

namespace Bridge

variable {r : Reentry} {w u : World} {id : ObjectId} {items : List ScriptValue} {v : ScriptValue}
  {levels : Nat}

/-- How the conversion of data ends: with a copy that owns its new sequences if there are levels
enough and nothing in it is refused, and with a failure otherwise. -/
def Converts (r : Reentry) (w : World) (levels : Nat) (v : ScriptValue) (u : World) : Prop :=
  (Copyable w levels v ∧ ∃ x u', toHostWithin r levels v u = (.value x, u') ∧ Copying u u' ∧
    CopyOf w u' v x ∧ Owns w.heap.sequences.size u.heap.sequences.size u'.heap.sequences.size
      u'.heap x) ∨
  (¬Copyable w levels v ∧ ∃ e u', toHostWithin r levels v u = (.failure e, u'))

/-- The conversion of arrays while so many levels are left. -/
def copyArrayWithin (r : Reentry) : Nat → ObjectId → HostAct Value
  | 0 => fun _ => Act.fail (.conversion .nestedTooDeep)
  | levels + 1 => copyElements r (toHostWithin r levels)

theorem toHostWithin_eq (r : Reentry) (levels : Nat) :
    toHostWithin r levels = valueToHost r (copyArrayWithin r levels) := by
  cases levels <;> rfl

theorem copiedLength?_ofNat {limit n : Nat} (h : n ≤ Number.lengthLimit) :
    copiedLength? limit (.number (.ofNat n)) = if n ≤ limit then some n else none := by
  rw [copiedLength?, Number.arrayLength?_ofNat h, Option.filter_some]
  simp only [decide_eq_true_eq]

theorem converts_leaf (reachable : Reachable w) (leaf : Leaf w v) (c : Copying w u) :
    Converts r w levels v u := by
  have coherent := (reachable.of_reaches c.reaches).coherent
  have copyable : Copyable w levels v ↔ ¬Inconvertible w v :=
    copyable_leaf fun id items same => by
      subst same
      exact leaf.noArray reachable.coherent
  rw [Converts, copyable, toHostWithin_eq, not_not]
  by_cases refused : Inconvertible w v
  · exact .inr ⟨refused, valueToHost_of_inconvertible _ c coherent refused⟩
  · obtain ⟨x, u', converts, copying, copy⟩ :=
      (valueToHost_of_leaf (copyArrayWithin r levels) c coherent leaf).resolve_left refused
    refine .inl ⟨refused, x, u', converts, copying, .leaf copy, .of_old fun s same => ?_⟩
    subst same
    exact copy.old

/-- Elements are converted one after another, in worlds that each of them only adds to. -/
theorem converts_elements {indices : List Nat} {vs : List ScriptValue}
    (reads : List.Forall₂ (fun i v => Finds w (.index i) (some id) v) indices vs)
    (each : ∀ v ∈ vs, ∀ u, Copying w u → Converts r w levels v u) (c : Copying w u) :
    ((∀ v ∈ vs, Copyable w levels v) ∧ ∃ xs u',
      Act.mapAll (fun i => do toHostWithin r levels (← intoHost r (Script.get r id (.index i))))
        indices u = (.value xs, u') ∧
      Copying u u' ∧ List.Forall₂ (CopyOf w u') vs xs ∧
      OwnsAll w.heap.sequences.size u.heap.sequences.size u'.heap.sequences.size u'.heap xs) ∨
    ((∃ v ∈ vs, ¬Copyable w levels v) ∧ ∃ e u',
      Act.mapAll (fun i => do toHostWithin r levels (← intoHost r (Script.get r id (.index i))))
        indices u = (.failure e, u')) := by
  induction reads generalizing u with
  | nil =>
    refine .inl ⟨fun v mem => absurd mem List.not_mem_nil, [], u, rfl, .refl u, .nil, .nil⟩
  | @cons i v indices vs found _ ih =>
    have got : intoHost r (Script.get r id (.index i)) u = (.value v, u) :=
      Act.recover_of_value (c.finds found).get_eq _
    obtain ⟨copyable, x, u₁, converts, c₁, copy, owns⟩ | ⟨refused, e, u₁, fails⟩ :=
      each v List.mem_cons_self u c
    · have first := (Act.bind_of_value got (toHostWithin r levels)).trans converts
      obtain ⟨all, xs, u₂, rest, c₂, copies, ownsAll⟩ | ⟨⟨v', mem, refused⟩, e, u₂, fails⟩ :=
        ih (fun v mem => each v (List.mem_cons_of_mem _ mem)) (c.trans c₁)
      · refine .inl ⟨List.forall_mem_cons.2 ⟨copyable, all⟩, x :: xs, u₂, ?_, c₁.trans c₂,
          .cons (copy.later c₂) copies,
          .cons owns c₂.extends_heap ownsAll c₁.extends_heap.size_le c₂.extends_heap.size_le⟩
        have first := (Act.bind_of_value got (toHostWithin r levels)).trans converts
        exact (Act.bind_of_value first _).trans (Act.bind_of_value rest _)
      · refine .inr ⟨⟨v', List.mem_cons_of_mem _ mem, refused⟩, e, u₂, ?_⟩
        have first := (Act.bind_of_value got (toHostWithin r levels)).trans converts
        exact (Act.bind_of_value first _).trans (Act.bind_of_failure fails _)
    · refine .inr ⟨⟨v, List.mem_cons_self, refused⟩, e, u₁, ?_⟩
      exact Act.bind_of_failure ((Act.bind_of_value got _).trans fails) _

theorem toHostWithin_of_array (array : NativeArray w id items) (c : Copying w u)
    (coherent : u.engine.Coherent) :
    toHostWithin r levels (.object id) u = copyArrayWithin r levels id u := by
  obtain ⟨o, ordinary, kind, _⟩ := array.array
  rw [toHostWithin_eq, valueToHost_of_ordinary _ coherent (c.ordinary ordinary)]
  simp only [kind]

theorem copyElements_of_length (convert : ScriptValue → HostAct Value) {length : ScriptValue}
    (has : Script.get r id .length u = (.value length, u)) :
    copyElements r convert id u =
      (match copiedLength? u.config.maxArrayLength length with
        | none => Act.fail (.conversion .invalidLength)
        | some n => do
          let items ← Act.mapAll (fun i => do convert (← intoHost r (Script.get r id (.index i))))
            (List.range n)
          return .sequence (← Act.newSequence items) : HostAct Value) u := by
  rw [copyElements, intoHost, Act.bind_of_value (Act.recover_of_value has _)]
  exact Act.read_bind _ _ _

/-- An array that is not too long is copied element by element. -/
theorem copyElements_of_array (convert : ScriptValue → HostAct Value)
    (array : NativeArray w id items) (c : Copying w u) :
    copyElements r convert id u =
      (if items.length ≤ w.config.maxArrayLength then do
        let items ← Act.mapAll (fun i => do convert (← intoHost r (Script.get r id (.index i))))
          (List.range items.length)
        return .sequence (← Act.newSequence items)
      else Act.fail (.conversion .invalidLength) : HostAct Value) u := by
  obtain ⟨o, ordinary, kind, _, _, _, long⟩ := array.array
  rw [copyElements_of_length convert (Script.get_of_own (c.ordinary ordinary) long), c.config,
    copiedLength?_ofNat array.length_le]
  by_cases short : items.length ≤ w.config.maxArrayLength
  · simp only [if_pos short]
  · simp only [if_neg short]

theorem converts_data (r : Reentry) (reachable : Reachable w) (data : ArrayData w v)
    (c : Copying w u) : Converts r w levels v u := by
  induction levels generalizing v u with
  | zero =>
    obtain leaf | ⟨id, items, rfl, array⟩ := data 0 v (.self v)
    · exact converts_leaf reachable leaf c
    · have coherent := (reachable.of_reaches c.reaches).coherent
      exact .inr ⟨not_copyable_zero array, _, _, toHostWithin_of_array array c coherent⟩
  | succ levels ih =>
    obtain leaf | ⟨id, items, rfl, array⟩ := data 0 v (.self v)
    · exact converts_leaf reachable leaf c
    · have coherent := (reachable.of_reaches c.reaches).coherent
      have copies : toHostWithin r (levels + 1) (.object id) u = _ :=
        (toHostWithin_of_array array c coherent).trans
          (copyElements_of_array (toHostWithin r levels) array c)
      rw [Converts, copies, copyable_array array]
      by_cases short : items.length ≤ w.config.maxArrayLength
      · simp only [if_pos short]
        obtain ⟨all, xs, u₁, gives, c₁, copied, owns⟩ | ⟨⟨v, mem, refused⟩, e, u₁, fails⟩ :=
          converts_elements array.reads (fun v mem u c => ih (data.element array mem) c) c
        · let u₂ : World := { u₁ with heap := u₁.heap.pushSequence xs }
          have made : (Act.newSequence xs : HostAct _) u₁ = (.value u₁.heap.nextSequence, u₂) := rfl
          have c₂ := Copying.of_newSequence made
          refine .inl ⟨⟨short, all⟩, .sequence u₁.heap.nextSequence, u₂,
            (Act.bind_of_value gives _).trans (Act.bind_of_value made _), c₁.trans c₂, ?_, ?_⟩
          · have stored : u₂.heap.sequence u₁.heap.nextSequence = xs :=
              Heap.sequence_pushSequence_next _ _
            refine .array array (c.trans c₁).extends_heap.size_le ?_ ?_ fun i v x item copy => ?_
            · exact Nat.lt_of_lt_of_eq (Nat.lt_succ_self _) (Arena.size_push _ _).symm
            · rw [stored, copied.length_eq]
            · rw [stored] at copy
              obtain ⟨inside, rfl⟩ := List.getElem?_eq_some_iff.1 item
              obtain ⟨inside', rfl⟩ := List.getElem?_eq_some_iff.1 copy
              exact (copied.get inside inside').later c₂
          · have size : u₂.heap.sequences.size = u₁.heap.sequences.size + 1 := Arena.size_push _ _
            rw [size]
            exact owns.push c₁.extends_heap.size_le
        · exact .inr ⟨fun both => refused (both.2 v mem), e, u₁, Act.bind_of_failure fails _⟩
      · simp only [if_neg short]
        exact .inr ⟨fun both => short both.1, _, _, rfl⟩

end Bridge

/-! ### Arrays that contain themselves -/

namespace Inside

variable {w : World} {v u x : ScriptValue} {a b : Nat}

theorem trans (h : Inside w v a u) (h' : Inside w u b x) : Inside w v (a + b) x := by
  induction h with
  | self => rwa [Nat.zero_add]
  | @element id items v u level array mem _ ih =>
    rw [Nat.add_right_comm]
    exact .element array mem (ih h')

/-- What contains itself does so at as many levels as one likes. -/
theorem repeated (h : Inside w v a v) (n : Nat) : Inside w v (n * a) v := by
  induction n with
  | zero =>
    rw [Nat.zero_mul]
    exact .self v
  | succ n ih =>
    rw [Nat.succ_mul]
    exact ih.trans h

end Inside

theorem not_copyable_of_cycle {w : World} {v u : ScriptValue} {level around : Nat}
    (inside : Inside w v level u) (cycle : Inside w u (around + 1) u) (levels : Nat) :
    ¬Copyable w levels v := by
  intro copyable
  have deep := inside.trans (cycle.repeated levels)
  cases cycle with
  | element array =>
    have below := ((copyable _ _ deep).2 _ _ rfl array).1
    have enough : levels ≤ levels * (around + 1) := Nat.le_mul_of_pos_right _ (Nat.succ_pos _)
    omega

end ScriptBridge
