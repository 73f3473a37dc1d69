import ScriptBridge.Proofs.Numbers
import ScriptBridge.Proofs.Reading

/-!
Data that crosses by value. Texts, numbers, dates and errors come back from the script as they went
in, an error as long as the class it belongs to is what it was.
-/

namespace ScriptBridge

/-! ### Texts -/

namespace Utf16

theorem toChars?_cons_plain {u : UInt16} (lead : isLead u = false) (trail : isTrail u = false)
    (rest : Utf16) : toChars? (u :: rest) = (toChars? rest).map (Char.ofNat u.toNat :: ·) := by
  cases rest with
  | nil => simp [toChars?, lead, trail]
  | cons v rest => simp [toChars?, lead, trail]

theorem toChars?_cons_pair {u v : UInt16} (lead : isLead u) (trail : isTrail v) (rest : Utf16) :
    toChars? (u :: v :: rest) = (toChars? rest).map (ofPair u v :: ·) := by
  simp [toChars?, lead, trail]

theorem isLead_iff {u : UInt16} : isLead u ↔ 0xD800 ≤ u.toNat ∧ u.toNat < 0xDC00 := by
  simp [isLead, UInt16.le_iff_toNat_le, UInt16.lt_iff_toNat_lt]

theorem isTrail_iff {u : UInt16} : isTrail u ↔ 0xDC00 ≤ u.toNat ∧ u.toNat < 0xE000 := by
  simp [isTrail, UInt16.le_iff_toNat_le, UInt16.lt_iff_toNat_lt]

theorem toNat_valid (c : Char) : c.toNat < 0xD800 ∨ 0xDFFF < c.toNat ∧ c.toNat < 0x110000 := c.valid

theorem toChars?_ofChar_append (c : Char) (rest : Utf16) :
    toChars? (ofChar c ++ rest) = (toChars? rest).map (c :: ·) := by
  have valid := toNat_valid c
  unfold ofChar
  simp only
  split
  · rename_i small
    have unit : (UInt16.ofNat c.toNat).toNat = c.toNat := by
      rw [UInt16.toNat_ofNat']
      omega
    have lead : isLead (UInt16.ofNat c.toNat) = false := by
      rw [Bool.eq_false_iff, ne_eq, isLead_iff, unit]
      omega
    have trail : isTrail (UInt16.ofNat c.toNat) = false := by
      rw [Bool.eq_false_iff, ne_eq, isTrail_iff, unit]
      omega
    rw [List.singleton_append, toChars?_cons_plain lead trail, unit, Char.ofNat_toNat]
  · -- the two halves of a surrogate pair
    rename_i large
    generalize hn : c.toNat - 0x10000 = n
    have bound : n < 0x100000 := by omega
    have first : (UInt16.ofNat (0xD800 + n / 0x400)).toNat = 0xD800 + n / 0x400 := by
      rw [UInt16.toNat_ofNat']
      omega
    have second : (UInt16.ofNat (0xDC00 + n % 0x400)).toNat = 0xDC00 + n % 0x400 := by
      rw [UInt16.toNat_ofNat']
      omega
    have lead : isLead (UInt16.ofNat (0xD800 + n / 0x400)) := by
      rw [isLead_iff, first]
      omega
    have trail : isTrail (UInt16.ofNat (0xDC00 + n % 0x400)) := by
      rw [isTrail_iff, second]
      omega
    have joined : 0x10000 + (0xD800 + n / 0x400 - 0xD800) * 0x400 +
        (0xDC00 + n % 0x400 - 0xDC00) = c.toNat := by omega
    rw [List.cons_append, List.singleton_append, toChars?_cons_pair lead trail, ofPair, first,
      second, joined, Char.ofNat_toNat]

theorem toChars?_ofChars (cs : List Char) : toChars? (ofChars cs) = some cs := by
  induction cs with
  | nil => rfl
  | cons c cs ih => rw [ofChars, List.flatMap_cons, toChars?_ofChar_append, ← ofChars, ih]; rfl

theorem toString?_ofString (s : String) : (ofString s).toString? = some s := by
  rw [toString?, ofString, toChars?_ofChars, Option.map_some, String.ofList_toList]

end Utf16

/-! ### Numbers -/

theorem Double.eq_self {d : Double} (h : d.isNaN = false) : d.eq d := by
  cases d with
  | nan => cases h
  | infinity => simp [Double.eq]
  | finite => simp [Double.eq]

theorem Double.sameValueZero_self (d : Double) : d.sameValueZero d := by
  cases h : d.isNaN with
  | true => simp [sameValueZero, h]
  | false => simp [sameValueZero, eq_self h]

theorem Double.zero_eq {d : Double} (h : d.isZero) : (zero false).eq d := by
  cases d with
  | nan | infinity => cases h
  | finite negative units fits =>
    cases units with
    | zero =>
      change (signed false 0 == signed negative 0) = true
      cases negative <;> decide
    | succ => cases h

/-- A number loses at most the sign of a zero. -/
theorem Bridge.sameValueZero_crossing (d : Double) : (crossing d).sameValueZero d := by
  by_cases zero : d.isZero
  · rw [crossing, if_pos zero, Double.sameValueZero, Double.zero_eq zero, Bool.or_true]
  · rw [crossing, if_neg zero]
    exact d.sameValueZero_self

/-! ### Dates -/

theorem Calendar.civil_year (millis : Int) :
    (civil millis).year = (civilOfDay (millis / millisPerDay)).1 := rfl

/-- A year is at most 401 after the one its era begins with. -/
theorem Calendar.year_bounds (days : Int) :
    (days + 719468) / 146097 * 400 ≤ (civilOfDay days).1 ∧
      (civilOfDay days).1 ≤ (days + 719468) / 146097 * 400 + 401 := by
  have inside : ((days + 719468) % 146097).toNat < 146097 := by omega
  unfold civilOfDay
  simp only
  generalize ((days + 719468) % 146097).toNat = dayOfEra at inside ⊢
  have yearOfEra :
      (dayOfEra - dayOfEra / 1460 + dayOfEra / 36524 - dayOfEra / 146096) / 365 ≤ 400 := by
    omega
  generalize (dayOfEra - dayOfEra / 1460 + dayOfEra / 36524 - dayOfEra / 146096) / 365 = year
    at yearOfEra ⊢
  split <;> split <;> omega

/-- Host dates are so near that every millisecond is a double. -/
theorem Calendar.natAbs_le_of_isHostDate {millis : Int} (h : isHostDate millis) :
    millis.natAbs ≤ 2 ^ 53 := by
  obtain ⟨first, last⟩ : firstYear ≤ (civil millis).year ∧ (civil millis).year ≤ lastYear := by
    simpa [isHostDate] using h
  have bounds := year_bounds (millis / millisPerDay)
  rw [civil_year] at first last
  unfold firstYear at first
  unfold lastYear at last
  unfold millisPerDay at first last bounds
  omega

theorem Bridge.dateValue_ofInt {millis : Int} (h : Calendar.isHostDate millis) :
    dateValue (.ofInt millis) = .ok (.date millis) := by
  have small := Calendar.natAbs_le_of_isHostDate h
  simp only [dateValue, Double.isFinite_ofInt small, Double.toInt_ofInt small, h, Bool.not_true,
    Bool.false_eq_true, if_false, if_true]

/-! ### New objects -/

/-- The world with one more object that stands for nothing. -/
def World.withObject (w : World) (o : Object) : World :=
  { w with engine := { w.engine with objects := w.engine.objects.push o } }

theorem World.ordinary_withObject (w : World) {o : Object} (h : o.kind.standsFor? = none) :
    Ordinary (w.withObject o) ⟨w.engine.objects.size⟩ o :=
  ⟨(Arena.get?_push _ _ _).trans (if_pos rfl), h⟩

theorem Ordinary.withObject {w : World} {id : ObjectId} {q : Object} (h : Ordinary w id q)
    (o : Object) : Ordinary (w.withObject o) id q :=
  ⟨ObjectHeap.get?_push_of_some h.found o, h.standsFor⟩

theorem World.coherent_withObject {w : World} (c : w.engine.Coherent) (o : Object) :
    (w.withObject o).engine.Coherent :=
  c.of_objects rfl rfl (ObjectHeap.later_push _ o)

theorem Bridge.toHost_of_date {r : Reentry} {w : World} (c : w.engine.Coherent) {id : ObjectId}
    {o : Object} (h : Ordinary w id o) {millis : Double} (kind : o.kind = .date millis)
    (prototype : o.prototype = some Intrinsic.datePrototype) :
    toHost r (.object id) w = Act.ofExcept (dateValue millis) w := by
  rw [toHost_of_ordinary c h]
  simp only [kind]
  rw [objectToHost, Act.bind_of_value (Script.inherits_of_prototype h prototype), if_pos rfl]
  simp only [kind]

theorem Bridge.date_returns (r : Reentry) {w : World} (c : w.engine.Coherent) {millis : Int}
    (h : Calendar.isHostDate millis) :
    ∃ v w₁, toScript (.date millis) w = (.value v, w₁) ∧
      toHost r v w₁ = (.value (.date millis), w₁) := by
  let made : Object := .bare (.date (.ofInt millis)) Intrinsic.datePrototype
  refine ⟨.object ⟨w.engine.objects.size⟩, w.withObject made, rfl, ?_⟩
  have ordinary : Ordinary (w.withObject made) ⟨w.engine.objects.size⟩ made :=
    w.ordinary_withObject rfl
  rw [toHost_of_date (w.coherent_withObject c made) ordinary rfl rfl, dateValue_ofInt h]
  rfl

/-! ### Errors -/

/-- The prototype of the error objects of a class; classes that are not standard have the general
one. -/
def Intrinsic.errorClass (name : String) : ObjectId := (errorPrototype? name).getD errorPrototype

/-- A class of errors is as the engine made it, as far as its name and its prototypes go. -/
structure ClassIntact (w : World) (name : String) : Prop where
  named : ∃ o, Ordinary w (Intrinsic.errorClass name) o ∧
    (o.prototype = some (if Intrinsic.errorClass name = Intrinsic.errorPrototype then
      Intrinsic.objectPrototype else Intrinsic.errorPrototype)) ∧
    ((Intrinsic.errorPrototype? name).isSome →
      ∃ a b c, o.properties.get? (.ofString "name") = some (.data (.ofString name) a b c))
  general : ∃ o, Ordinary w Intrinsic.errorPrototype o ∧
    o.prototype = some Intrinsic.objectPrototype
  root : ∃ o, Ordinary w Intrinsic.objectPrototype o ∧ o.prototype = none

namespace Bridge

variable {name message : String} {stack : Option String}

theorem get?_message : (errorObject name message stack).properties.get? (.ofString "message") =
    some (.hidden (.ofString message)) := by
  have stackKey : PropertyKey.ofString "stack" ≠ .ofString "message" := by decide
  have nameKey : PropertyKey.ofString "name" ≠ .ofString "message" := by decide
  have made : (errorProperties (.ofString message)).get? (.ofString "message") =
      some (.hidden (.ofString message)) := by
    rw [errorProperties, Entries.get?_insert_of_ne _ stackKey, Entries.get?_insert_self]
    rfl
  unfold errorObject
  cases stack with
  | none =>
    simp only
    split
    · rw [Entries.get?_insert_of_ne _ nameKey, made]
    · exact made
  | some stack =>
    simp only
    rw [Entries.get?_insert_of_ne _ stackKey]
    split
    · rw [Entries.get?_insert_of_ne _ nameKey, made]
    · exact made

theorem get?_stack : (errorObject name message stack).properties.get? (.ofString "stack") =
    some (.hidden (.ofString (stack.getD engineStack))) := by
  have nameKey : PropertyKey.ofString "name" ≠ .ofString "stack" := by decide
  unfold errorObject
  cases stack with
  | none =>
    simp only
    split
    · rw [Entries.get?_insert_of_ne _ nameKey, errorProperties, Entries.get?_insert_self]
      rfl
    · rw [errorProperties, Entries.get?_insert_self]
      rfl
  | some stack => exact Entries.get?_insert_self _ _ _

theorem get?_name (name message : String) (stack : Option String) :
    (errorObject name message stack).properties.get? (.ofString "name") =
      if (Intrinsic.errorPrototype? name).isNone then some (.hidden (.ofString name)) else none := by
  have stackKey : PropertyKey.ofString "stack" ≠ .ofString "name" := by decide
  have messageKey : PropertyKey.ofString "message" ≠ .ofString "name" := by decide
  have made : (errorProperties (.ofString message)).get? (.ofString "name") = none := by
    rw [errorProperties, Entries.get?_insert_of_ne _ stackKey,
      Entries.get?_insert_of_ne _ messageKey, Entries.get?_empty]
  unfold errorObject
  cases stack with
  | none =>
    simp only
    split
    · rw [Entries.get?_insert_self]
    · exact made
  | some stack =>
    simp only
    rw [Entries.get?_insert_of_ne _ stackKey]
    split
    · rw [Entries.get?_insert_self]
    · exact made

end Bridge

/-! ### Classes of errors -/

theorem Intrinsic.errorClass_cases (name : String) :
    (name = "Error" ∨ errorPrototype? name = none) ∧ errorClass name = errorPrototype ∨
      ∃ i, ∃ h : i < derivedErrors.length, derivedErrors[i] = name ∧
        errorClass name = ⟨firstErrorPrototype + i⟩ := by
  unfold errorClass errorPrototype?
  split
  · exact .inl ⟨.inl ‹_›, rfl⟩
  · cases found : derivedErrors.idxOf? name with
    | none => exact .inl ⟨.inr rfl, rfl⟩
    | some i =>
      obtain ⟨inside, here, _⟩ := List.idxOf?_eq_some_iff.1 found
      exact .inr ⟨i, inside, here, rfl⟩

/-- An object of a new runtime stands for nothing and passes a test. -/
def Intrinsic.passes (id : ObjectId) (p : Object → Bool) : Bool :=
  (Engine.fresh.objects.get? id.index).any fun o => o.kind.standsFor?.isNone && p o

/-- The prototypes of the error classes in a new runtime. -/
theorem Intrinsic.errorPrototypes_fresh :
    passes objectPrototype (·.prototype.isNone) ∧
      passes errorPrototype (fun o => o.prototype = some objectPrototype ∧
        o.properties.get? (.ofString "name") = some (.hidden (.ofString "Error"))) ∧
      ∀ i (inside : i < derivedErrors.length),
        passes ⟨firstErrorPrototype + i⟩ fun o => o.prototype = some errorPrototype ∧
          o.properties.get? (.ofString "name") =
            some (.hidden (.ofString derivedErrors[i])) := by
  decide +kernel

section

variable {w : World}

theorem ordinary_of_passes (h : w.engine = .fresh) {id : ObjectId} {p : Object → Bool}
    (passes : Intrinsic.passes id p) : ∃ o, Ordinary w id o ∧ p o := by
  unfold Intrinsic.passes at passes
  rw [← h] at passes
  obtain ⟨o, found, passes⟩ := (Option.any_eq_true _ _).1 passes
  obtain ⟨nothing, holds⟩ := Bool.and_eq_true_iff.1 passes
  exact ⟨o, ⟨found, Option.isNone_iff_eq_none.1 nothing⟩, holds⟩

theorem Intrinsic.derived_ne_errorPrototype (i : Nat) :
    (⟨firstErrorPrototype + i⟩ : ObjectId) ≠ errorPrototype := by
  intro same
  have := congrArg ObjectId.index same
  simp only [firstErrorPrototype, errorPrototype] at this
  omega

/-- In a new runtime all classes are intact. -/
theorem classIntact_fresh (h : w.engine = .fresh) (name : String) : ClassIntact w name := by
  obtain ⟨rootPasses, generalPasses, derivedPasses⟩ := Intrinsic.errorPrototypes_fresh
  obtain ⟨o, general, isGeneral⟩ := ordinary_of_passes h generalPasses
  obtain ⟨toRoot, generalName⟩ := of_decide_eq_true isGeneral
  obtain ⟨q, root, last⟩ := ordinary_of_passes h rootPasses
  refine ⟨?_, ⟨o, general, toRoot⟩, q, root, Option.isNone_iff_eq_none.1 last⟩
  obtain ⟨which, cls⟩ | ⟨i, inside, rfl, cls⟩ := Intrinsic.errorClass_cases name
  · rw [cls]
    refine ⟨o, general, by rw [if_pos rfl, toRoot], fun standard => ?_⟩
    cases which with
    | inl named =>
      subst named
      exact ⟨_, _, _, generalName⟩
    | inr other =>
      rw [other] at standard
      cases standard
  · obtain ⟨p, derived, isDerived⟩ := ordinary_of_passes h (derivedPasses i inside)
    obtain ⟨toGeneral, name⟩ := of_decide_eq_true isDerived
    have notGeneral := Intrinsic.derived_ne_errorPrototype i
    rw [cls]
    exact ⟨p, derived, by rw [if_neg notGeneral, toGeneral], fun _ => ⟨_, _, _, name⟩⟩

end

section

variable {r : Reentry} {w : World} {id : ObjectId} {o : Object} {name : String}

theorem ClassIntact.withObject (intact : ClassIntact w name) (made : Object) :
    ClassIntact (w.withObject made) name := by
  obtain ⟨⟨o, h, named⟩, ⟨p, h', general⟩, q, h'', root⟩ := intact
  exact ⟨⟨o, h.withObject made, named⟩, ⟨p, h'.withObject made, general⟩, q, h''.withObject made,
    root⟩

theorem Intrinsic.errorClass_ne_datePrototype (name : String) :
    errorClass name ≠ datePrototype := by
  obtain ⟨_, cls⟩ | ⟨i, _, _, cls⟩ := errorClass_cases name
  · rw [cls]
    decide
  · intro same
    have := congrArg ObjectId.index (cls.symm.trans same)
    simp only [firstErrorPrototype, datePrototype] at this
    omega

namespace Script

theorem inheritsWithin_next {ε : Type} (h : Ordinary w id o) {p : ObjectId}
    (next : o.prototype = some p) {prototype : ObjectId} (other : p ≠ prototype) (steps : Nat) :
    (inheritsWithin prototype (steps + 1) id : Act ε Bool) w =
      (inheritsWithin prototype steps p : Act ε Bool) w := by
  rw [inheritsWithin_of_ordinary h]
  simp only [next, if_neg other]

theorem inheritsWithin_here {ε : Type} (h : Ordinary w id o) {prototype : ObjectId}
    (next : o.prototype = some prototype) (steps : Nat) :
    (inheritsWithin prototype (steps + 1) id : Act ε Bool) w = (.value true, w) := by
  rw [inheritsWithin_of_ordinary h]
  simp only [next, if_true]
  rfl

theorem inheritsWithin_root {ε : Type} (h : Ordinary w id o) (root : o.prototype = none)
    (prototype : ObjectId) (steps : Nat) :
    (inheritsWithin prototype (steps + 1) id : Act ε Bool) w = (.value false, w) := by
  rw [inheritsWithin_of_ordinary h]
  simp only [root]
  rfl

end Script

namespace ClassIntact

/-- There are more steps than an object of an intact class has prototypes. -/
theorem chainBound_eq {ε : Type} (intact : ClassIntact w name) :
    ∃ steps, (Script.chainBound : Act ε Nat) w = (.value (steps + 4), w) := by
  obtain ⟨p, h, _⟩ := intact.general
  obtain ⟨steps, size⟩ := Nat.exists_eq_add_of_lt h.lt_size
  refine ⟨steps + 1, ?_⟩
  change ((.value (w.engine.objects.size + 1), w) : Outcome ε Nat × World) = _
  rw [size]
  congr 2
  change 3 + steps + 1 + 1 = _
  omega

theorem notDate {ε : Type} (intact : ClassIntact w name) (h : Ordinary w id o)
    (prototype : o.prototype = some (Intrinsic.errorClass name)) :
    (Script.inherits id Intrinsic.datePrototype : Act ε Bool) w = (.value false, w) := by
  obtain ⟨steps, bound⟩ := intact.chainBound_eq (ε := ε)
  obtain ⟨q, general, next⟩ := intact.general
  obtain ⟨root, last, none⟩ := intact.root
  obtain ⟨p, cls, up, _⟩ := intact.named
  rw [Script.inherits, Act.bind_of_value bound,
    Script.inheritsWithin_next h prototype (Intrinsic.errorClass_ne_datePrototype name)]
  by_cases top : Intrinsic.errorClass name = Intrinsic.errorPrototype
  · rw [if_pos top] at up
    rw [Script.inheritsWithin_next cls up (by decide), Script.inheritsWithin_root last none]
  · rw [if_neg top] at up
    rw [Script.inheritsWithin_next cls up (by decide),
      Script.inheritsWithin_next general next (by decide), Script.inheritsWithin_root last none]

theorem isError {ε : Type} (intact : ClassIntact w name) (h : Ordinary w id o)
    (prototype : o.prototype = some (Intrinsic.errorClass name)) :
    (Script.inherits id Intrinsic.errorPrototype : Act ε Bool) w = (.value true, w) := by
  obtain ⟨steps, bound⟩ := intact.chainBound_eq (ε := ε)
  obtain ⟨p, cls, up, _⟩ := intact.named
  rw [Script.inherits, Act.bind_of_value bound]
  by_cases top : Intrinsic.errorClass name = Intrinsic.errorPrototype
  · rw [top] at prototype
    exact Script.inheritsWithin_here h prototype _
  · rw [if_neg top] at up
    rw [Script.inheritsWithin_next h prototype top]
    exact Script.inheritsWithin_here cls up _

end ClassIntact

namespace Bridge

theorem optionalText_ofString (s : String) (w : World) :
    optionalText (.ofString s) w = (.value (some s), w) := by
  rw [ScriptValue.ofString, optionalText, Utf16.toString?_ofString]
  rfl

theorem readText_of_get {key s : String}
    (h : Script.get r id (.ofString key) w = (.value (.ofString s), w)) :
    readText r id key w = (.value (some s), w) := by
  rw [readText, intoHost, Act.bind_of_value (Act.recover_of_value h _), optionalText_ofString]

/-- An error object of a class with its message and its stack; the classes that are not standard have
their name on it. -/
structure ErrorShape (o : Object) (name message stack : String) : Prop where
  kind : o.kind = .error
  prototype : o.prototype = some (Intrinsic.errorClass name)
  name : o.properties.get? (.ofString "name") =
    if (Intrinsic.errorPrototype? name).isNone then some (.hidden (.ofString name)) else none
  message : o.properties.get? (.ofString "message") = some (.hidden (.ofString message))
  stack : o.properties.get? (.ofString "stack") = some (.hidden (.ofString stack))

theorem errorShape_errorObject (name message : String) (stack : Option String) :
    ErrorShape (errorObject name message stack) name message (stack.getD engineStack) :=
  ⟨rfl, rfl, get?_name name message stack, get?_message, get?_stack⟩

variable {message stack : String}

/-- Such an object has the name of its class, its own or inherited. -/
theorem ErrorShape.get_name (shape : ErrorShape o name message stack) (h : Ordinary w id o)
    (intact : ClassIntact w name) :
    Script.get r id (.ofString "name") w = (.value (.ofString name), w) := by
  have own := shape.name
  split at own
  · exact Script.get_of_own h own
  · rename_i standard
    obtain ⟨p, cls, _, named⟩ := intact.named
    obtain ⟨_, _, _, named⟩ := named (Option.isSome_iff_ne_none.2 (by simpa using standard))
    exact Script.get_of_prototype h own shape.prototype cls named

theorem ErrorShape.toHost_eq (shape : ErrorShape o name message stack) (c : w.engine.Coherent)
    (h : Ordinary w id o) (intact : ClassIntact w name) :
    toHost r (.object id) w = (.value (.error { name, message, stack := some stack }), w) := by
  have prototype := shape.prototype
  rw [toHost_of_ordinary c h]
  simp only [shape.kind]
  rw [objectToHost, errorValue, Act.bind_of_value (intact.notDate h prototype), if_neg (by decide),
    Act.bind_of_value (intact.isError h prototype), if_pos rfl,
    Act.bind_of_value (readText_of_get (shape.get_name h intact)),
    Act.bind_of_value (readText_of_get (Script.get_of_own h shape.message)),
    Act.bind_of_value (readText_of_get (Script.get_of_own h shape.stack))]
  rfl

/-- The object of an error of an intact class is read out as its name and message, and with its stack
if it had one. -/
theorem toHost_of_errorObject (c : w.engine.Coherent) {e : ErrorValue}
    (h : Ordinary w id (errorObject e.name e.message e.stack)) (intact : ClassIntact w e.name) :
    toHost r (.object id) w =
      (.value (.error { e with stack := some (e.stack.getD engineStack) }), w) :=
  (errorShape_errorObject e.name e.message e.stack).toHost_eq c h intact

/-- An error of an intact class comes back from the script. -/
theorem error_returns (r : Reentry) (c : w.engine.Coherent) {e : ErrorValue}
    (intact : ClassIntact w e.name) :
    ∃ v w₁, toScript (.error e) w = (.value v, w₁) ∧
      toHost r v w₁ = (.value (.error { e with stack := some (e.stack.getD engineStack) }), w₁) :=
  ⟨_, _, rfl, toHost_of_errorObject (w.coherent_withObject c _) (w.ordinary_withObject rfl)
    (intact.withObject _)⟩

end Bridge

end

end ScriptBridge
