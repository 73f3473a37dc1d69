import ScriptBridge.Proofs.Identity
import ScriptBridge.Proofs.MapView
import ScriptBridge.Proofs.Searching

/-!
Strict equality of host values. It is the script relation on primitives and identity on handles, and
on references to objects of one runtime it tells whether they are the same object. Each runtime
counts identities from one, so references of different runtimes may be equal.
-/

namespace ScriptBridge

theorem Utf16.ofString_inj {s t : String} : ofString s = ofString t ↔ s = t :=
  ⟨ofString_injective, congrArg ofString⟩

/-! ### Numbers -/

namespace Double

variable {d e : Double}

theorem isNaN_iff : d.isNaN ↔ d = nan := by
  cases d <;> simp [isNaN]

theorem isZero_nan : nan.isZero = false := rfl

theorem isZero_infinity (negative : Bool) : (infinity negative).isZero = false := rfl

theorem isZero_finite {negative : Bool} {units : Nat} {fits : Representable units} :
    (finite negative units fits).isZero ↔ units = 0 := by
  cases units with
  | zero => exact ⟨fun _ => rfl, fun _ => rfl⟩
  | succ n => exact ⟨nofun, nofun⟩

theorem signed_eq_signed_iff {a c : Bool} {u v : Nat} :
    signed a u = signed c v ↔ (a = c ∧ u = v) ∨ (u = 0 ∧ v = 0) := by
  cases a <;> cases c <;> simp [signed] <;> omega

/-- Two numbers are equal if they are one number or both a zero. -/
theorem eq_iff : d.eq e ↔ d.isNaN = false ∧ (d = e ∨ d.isZero ∧ e.isZero) := by
  cases d <;> cases e <;>
    simp [Double.eq, isNaN, isZero_nan, isZero_infinity, isZero_finite, signed_eq_signed_iff]

end Double

namespace Bridge

variable {d e : Double}

theorem isZero_crossing : (crossing d).isZero = d.isZero := by
  unfold crossing
  split
  · rename_i zero
    rw [zero]
    exact Double.isZero_finite.2 rfl
  · rfl

theorem crossing_eq_iff : crossing d = crossing e ↔ d = e ∨ d.isZero ∧ e.isZero := by
  constructor
  · intro same
    have zeros : d.isZero = e.isZero := by
      rw [← isZero_crossing, same, isZero_crossing]
    by_cases zero : d.isZero
    · exact .inr ⟨zero, zeros ▸ zero⟩
    · have nonzero : ¬e.isZero := zeros ▸ zero
      rw [crossing, if_neg zero, crossing, if_neg nonzero] at same
      exact .inl same
  · rintro (rfl | ⟨zero, zero'⟩)
    · rfl
    · rw [crossing, if_pos zero, crossing, if_pos zero']

theorem isNaN_crossing : (crossing d).isNaN = d.isNaN := by
  unfold crossing
  split
  · cases d <;> first | rfl | cases ‹_›
  · rfl

/-- Two numbers are equal if they cross as one number. -/
theorem eq_iff_crossing_eq : d.eq e ↔ d.isNaN = false ∧ crossing d = crossing e := by
  rw [Double.eq_iff, crossing_eq_iff]

/-- Crossing keeps which numbers are equal. -/
theorem eq_crossing : (crossing d).eq (crossing e) = d.eq e := by
  rw [Bool.eq_iff_iff, Double.eq_iff, eq_iff_crossing_eq, isNaN_crossing, isZero_crossing,
    isZero_crossing]
  refine and_congr_right fun _ => ⟨?_, .inl⟩
  rintro (same | zeros)
  · exact same
  · exact crossing_eq_iff.2 (.inr zeros)

end Bridge

/-! ### What values are compared by -/

/-- What equality compares of a value. -/
inductive IdentityKey where
  | undefined
  | null
  | bool (b : Bool)
  | number (d : Double)
  | string (s : String)
  | sequence (id : SequenceId)
  | plain (id : PlainId)
  | hostFunction (id : HostFunctionId)
  | scriptFunction (identity : Nat)
  | object (identity : Nat)

def IdentityKey.typeName : IdentityKey → String
  | undefined => "undefined"
  | null => "null"
  | bool _ => "boolean"
  | number _ => "number"
  | string _ => "string"
  | sequence _ => "array"
  | plain _ => "plain object"
  | hostFunction _ | scriptFunction _ => "function"
  | object _ => "object"

def Callback.identityKey : Callback → IdentityKey
  | host id => .hostFunction id
  | script ref _ => .scriptFunction ref.identity

theorem Callback.same_iff_key {f g : Callback} : f.same g ↔ f.identityKey = g.identityKey := by
  cases f <;> cases g <;> simp [same, identityKey]

namespace Value

variable {a b c : Value}

/-- Dates, errors and not-a-number have no identity. -/
def identityKey? : Value → Option IdentityKey
  | undefined => some .undefined
  | null => some .null
  | bool b => some (.bool b)
  | number d => if d.isNaN then none else some (.number (Bridge.crossing d))
  | string s => some (.string s)
  | sequence id => some (.sequence id)
  | plain id => some (.plain id)
  | function f => some f.identityKey
  | object ref => some (.object ref.identity)
  | date _ | error _ => none

theorem typeName_of_key {key : IdentityKey} (h : a.identityKey? = some key) :
    a.typeName = key.typeName := by
  cases a with
  | date | error => cases h
  | function f => cases f <;> cases h <;> rfl
  | number d =>
    simp only [identityKey?] at h
    split at h <;> cases h
    rfl
  | undefined | null | bool | string | sequence | plain | object =>
    cases h
    rfl

/-- Two values are equal if they have one identity. -/
theorem strictEquals_iff_key :
    a.strictEquals b ↔ a.identityKey?.isSome ∧ a.identityKey? = b.identityKey? := by
  fun_cases strictEquals a b
  case case4 d e =>
    rw [Bridge.eq_iff_crossing_eq]
    simp only [identityKey?]
    constructor
    · rintro ⟨nan, same⟩
      have nan' : e.isNaN = false := by
        rw [← Bridge.isNaN_crossing, ← same, Bridge.isNaN_crossing, nan]
      rw [nan, nan', same]
      exact ⟨rfl, rfl⟩
    · rintro ⟨some, same⟩
      split at some
      · cases some
      · rename_i nan
        rw [if_neg nan] at same
        split at same
        · cases same
        · exact ⟨Bool.eq_false_iff.2 nan, IdentityKey.number.inj (Option.some.inj same)⟩
  case case8 f g => simp [identityKey?, Callback.same_iff_key]
  case case10 =>
    -- no two values of one kind are left here, apart from dates and errors, which have no identity
    refine ⟨nofun, ?_⟩
    rintro ⟨some, same⟩
    obtain ⟨key, ha⟩ := Option.isSome_iff_exists.1 some
    have kinds : a.typeName = b.typeName :=
      (typeName_of_key ha).trans (typeName_of_key (same ▸ ha)).symm
    cases a <;> cases b <;> simp only [typeName, String.reduceEq] at kinds
    all_goals simp_all [identityKey?]
  all_goals simp [identityKey?]

theorem strictEquals_symm (h : a.strictEquals b) : b.strictEquals a := by
  obtain ⟨some, same⟩ := strictEquals_iff_key.1 h
  exact strictEquals_iff_key.2 ⟨same ▸ some, same.symm⟩

theorem strictEquals_comm (a b : Value) : a.strictEquals b = b.strictEquals a :=
  Bool.eq_iff_iff.2 ⟨strictEquals_symm, strictEquals_symm⟩

theorem strictEquals_trans (h : a.strictEquals b) (h' : b.strictEquals c) : a.strictEquals c := by
  obtain ⟨some, same⟩ := strictEquals_iff_key.1 h
  obtain ⟨_, same'⟩ := strictEquals_iff_key.1 h'
  exact strictEquals_iff_key.2 ⟨some, same.trans same'⟩

theorem typeName_eq_of_strictEquals (h : a.strictEquals b) : a.typeName = b.typeName := by
  obtain ⟨some, same⟩ := strictEquals_iff_key.1 h
  obtain ⟨key, known⟩ := Option.isSome_iff_exists.1 some
  exact (typeName_of_key known).trans (typeName_of_key (same ▸ known)).symm

theorem strictEquals_handle {handle handle' : Handle} :
    handle.value.strictEquals handle'.value ↔ handle = handle' := by
  cases handle <;> cases handle' <;> simp [Handle.value, strictEquals, Callback.same]

theorem strictEquals_object {ref ref' : ScriptRef} :
    (object ref).strictEquals (object ref') ↔ ref.identity = ref'.identity := by
  rw [strictEquals, beq_iff_eq]

theorem strictEquals_scriptFunction {ref ref' : ScriptRef} {name name' : String} :
    (function (.script ref name)).strictEquals (function (.script ref' name')) ↔
      ref.identity = ref'.identity := by
  rw [strictEquals, Callback.same, beq_iff_eq]

/-- Primitives are equal if they are in the script. -/
theorem strictEquals_of_primitive (ha : a.isPrimitive) (hb : b.isPrimitive) :
    ∃ x y, (∀ w, Bridge.toScript a w = (.value x, w)) ∧ (∀ w, Bridge.toScript b w = (.value y, w)) ∧
      a.strictEquals b = Script.strictEquals x y := by
  cases a with
  | undefined | null | bool | number | string =>
    cases b with
    | undefined | null | bool | number | string =>
      refine ⟨_, _, fun _ => rfl, fun _ => rfl, ?_⟩
      simp [strictEquals, Script.strictEquals, ScriptValue.ofString, Bridge.eq_crossing,
        Bool.beq_eq_decide_eq, Utf16.ofString_inj]
    | _ => cases hb
  | _ => cases ha

theorem sameValueZero_iff :
    a.sameValueZero b ↔ a.strictEquals b ∨ a = number .nan ∧ b = number .nan := by
  cases a <;> cases b <;>
    simp [sameValueZero, strictEquals, Double.sameValueZero, Double.isNaN_iff, or_comm]

end Value

/-! ### The laws -/

/-- What strict equality means where the references are those given, and what searches make of
it. -/
structure StrictEqualityLaws (refs : List ScriptRef) : Prop where
  symmetric : ∀ a b : Value, a.strictEquals b = b.strictEquals a
  transitive : ∀ a b c : Value, a.strictEquals b → b.strictEquals c → a.strictEquals c
  kinds : ∀ a b : Value, a.strictEquals b → a.typeName = b.typeName
  primitives : ∀ a b : Value, a.isPrimitive → b.isPrimitive → ∃ x y,
    (∀ w, Bridge.toScript a w = (.value x, w)) ∧ (∀ w, Bridge.toScript b w = (.value y, w)) ∧
      a.strictEquals b = Script.strictEquals x y
  handles : ∀ handle handle' : Handle,
    handle.value.strictEquals handle'.value ↔ handle = handle'
  dates : ∀ millis millis', (Value.date millis).strictEquals (.date millis') = false
  errors : ∀ e e', (Value.error e).strictEquals (.error e') = false
  objects : ∀ ref ∈ refs, ∀ ref' ∈ refs, ref.runtime = ref'.runtime →
    ((Value.object ref).strictEquals (.object ref') ↔ ref.object = ref'.object)
  functions : ∀ ref ∈ refs, ∀ ref' ∈ refs, ref.runtime = ref'.runtime → ∀ name name',
    ((Value.function (.script ref name)).strictEquals (.function (.script ref' name')) ↔
      ref.object = ref'.object)
  mixed : ∀ f ref name,
    (Value.function (.host f)).strictEquals (.function (.script ref name)) = false
  callbacks : ∀ f g : Callback, f.same g = (Value.function f).strictEquals (.function g)
  indexOf : ∀ xs target start i, Sequence.indexOf? xs target start = some i ↔
    Number.relativeIndex start xs.length 0 ≤ i ∧ Sequence.EqualAt xs target i ∧
      ∀ j, Number.relativeIndex start xs.length 0 ≤ j → j < i → ¬Sequence.EqualAt xs target j
  /-- Doubles count the positions of all lists that fit into a memory. -/
  lastIndexOf : ∀ xs : List Value, xs.length ≤ 2 ^ 53 → ∀ target start i,
    Sequence.lastIndexOf? xs target start = some i ↔
      ∃ last, Sequence.lastStart? xs.length start = some last ∧ i ≤ last ∧
        Sequence.EqualAt xs target i ∧ ∀ j, i < j → j ≤ last → ¬Sequence.EqualAt xs target j
  includes : ∀ xs target start, Sequence.includes xs target start ↔
    ∃ i x, Number.relativeIndex start xs.length 0 ≤ i ∧ xs[i]? = some x ∧
      (x.strictEquals target ∨ x = .number .nan ∧ target = .number .nan)

/-- Whatever runtimes come and go, references taken from one of them are equal exactly if they are
to one object. -/
theorem strict_equality_within_a_runtime {refs : List ScriptRef} {w : World}
    (taken : Takes refs w) : StrictEqualityLaws refs where
  symmetric := Value.strictEquals_comm
  transitive _ _ _ := Value.strictEquals_trans
  kinds _ _ := Value.typeName_eq_of_strictEquals
  primitives _ _ := Value.strictEquals_of_primitive
  handles _ _ := Value.strictEquals_handle
  dates _ _ := rfl
  errors _ _ := rfl
  objects _ mem _ mem' same :=
    Value.strictEquals_object.trans (taken.identity_eq_iff mem mem' same)
  functions _ mem _ mem' same _ _ :=
    Value.strictEquals_scriptFunction.trans (taken.identity_eq_iff mem mem' same)
  mixed _ _ _ := rfl
  callbacks _ _ := rfl
  indexOf _ _ _ _ := Sequence.indexOf?_eq_some_iff
  lastIndexOf _ small _ _ _ := Sequence.lastIndexOf?_eq_some_iff small
  includes _ _ _ := by simp only [Sequence.includes_iff, Value.sameValueZero_iff]

/-- One runtime gives the host an object twice and another object once, the next one an object. -/
theorem strict_equality_within_each_of_two_runtimes : ∃ refs w, Takes refs w ∧
    refs.map (·.runtime) = [2, 1, 1, 1] ∧
    refs.map (·.object) = [Intrinsic.globalObject, Intrinsic.objectPrototype,
      Intrinsic.globalObject, Intrinsic.globalObject] ∧
    StrictEqualityLaws refs := by
  have first : Takes [⟨1, 1, 0, Intrinsic.globalObject⟩] _ :=
    .take (.start (Reachable.initial.run (Act.restart (ε := Error)))) Intrinsic.globalObject rfl
  have again : Takes (⟨1, 1, 1, Intrinsic.globalObject⟩ :: _) _ :=
    .take first Intrinsic.globalObject rfl
  have other : Takes (⟨2, 1, 2, Intrinsic.objectPrototype⟩ :: _) _ :=
    .take again Intrinsic.objectPrototype rfl
  have restarted := other.later (Steps.reaches ((Act.restart (ε := Error)).steps _))
  have taken : Takes (⟨1, 2, 0, Intrinsic.globalObject⟩ :: _) _ :=
    .take restarted Intrinsic.globalObject rfl
  exact ⟨_, _, taken, by decide, by decide, strict_equality_within_a_runtime taken⟩

/-- The first object that each of two runtimes gives to the host is under one identity. -/
theorem strict_equality_confuses_runtimes : ¬∀ refs w, Takes refs w →
    ∀ ref ∈ refs, ∀ ref' ∈ refs, (Value.object ref).strictEquals (.object ref') →
      ref.runtime = ref'.runtime ∧ ref.object = ref'.object := by
  intro claim
  have first : Takes [⟨1, 1, 0, Intrinsic.globalObject⟩] _ :=
    .take (.start (Reachable.initial.run (Act.restart (ε := Error)))) Intrinsic.globalObject rfl
  have restarted := first.later (Steps.reaches ((Act.restart (ε := Error)).steps _))
  have second : Takes [⟨1, 2, 0, Intrinsic.objectPrototype⟩, ⟨1, 1, 0, Intrinsic.globalObject⟩] _ :=
    .take restarted Intrinsic.objectPrototype rfl
  have same := claim _ _ second _ (.head _) _ (.tail _ (.head _)) (by decide)
  exact absurd same.1 (by decide)

end ScriptBridge
