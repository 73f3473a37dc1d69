import ScriptBridge.Proofs.Atomicity
import ScriptBridge.Proofs.ErrorTags
import ScriptBridge.Proofs.WholeNumberTexts
import ScriptBridge.Script.Operators

/-!
What errors look like on the other side. A script that catches a host error has an error object of
the class that the error names, with its name and message; and the host receives what a script
throws with the name and message that reading it gives, or with its text.
-/

namespace ScriptBridge

/-! ### Classes and their constructors -/

namespace Intrinsic

/-- The standard error classes. -/
def errorNames : List String := "Error" :: derivedErrors

/-- The constructor that a new runtime has under the name of a standard error class. -/
def errorConstructor? (name : String) : Option ObjectId :=
  match (Engine.fresh.objects.get? globalObject.index).bind
    (·.properties.get? (.ofString name)) with
  | some (.data (.object id) ..) => some id
  | _ => none

/-- It is a function, and it keeps its prototype for good. -/
theorem errorConstructors_fresh : ∀ name ∈ errorNames,
    (errorConstructor? name).any fun id => passes id fun o => o.kind.isFunction ∧
      o.properties.get? (.ofString "prototype") =
        some (.data (.object (errorClass name)) false false false) := by
  decide +kernel

/-- No object of a new runtime bears the tag of a host error. -/
theorem untagged_fresh {i : Nat} {o : Object} (found : Engine.fresh.objects.get? i = some o) :
    o.properties.get? Bridge.tagKey = none := by
  have all : Engine.fresh.objects.cells.all fun o =>
      (o.properties.get? Bridge.tagKey).isNone := by
    decide +kernel
  obtain ⟨inside, rfl⟩ := Array.getElem?_eq_some_iff.1 found
  exact Option.isNone_iff_eq_none.1 (Array.all_eq_true.1 all i inside)

end Intrinsic

/-- A new runtime keeps all its objects. -/
theorem Reachable.later_fresh {w : World} (h : Reachable w) (started : 0 < w.runtime) :
    Engine.fresh.Later w.engine := by
  let Holds (w : World) : Prop := 0 < w.runtime → Engine.fresh.Later w.engine
  have entered {w : World} (holds : Holds w) : Holds w.entered := fun live =>
    (holds live).trans (Engine.throughout_later.entered _)
  have left {w : World} (holds : Holds w) : Holds w.left := fun live =>
    (holds live).trans (Engine.throughout_later.left _)
  have steps {w w' : World} (run : Steps w w') : Holds w → Holds w' := by
    refine run.lift (R := fun w w' => Holds w → Holds w') (fun _ h => h) (fun h h' p => h' (h p))
      ?_ fun inside holds => left (inside (entered holds))
    intro w w' s holds live
    cases s with
    | engine e s => exact (holds live).trans s.later
    | started => exact .refl _
    | heap | bound | logged | exited => exact holds live
  obtain ⟨config, run⟩ := h
  suffices holds : Holds w from holds started
  clear started
  induction run with
  | refl => exact fun live => absurd live (Nat.lt_irrefl 0)
  | run _ run ih => exact steps run ih
  | entered _ ih => exact entered ih
  | left _ ih => exact left ih

/-! ### Host errors in the script -/

section

variable {r : Reentry} {w : World} {id : ObjectId} {o : Object} {name message stack : String}

/-- What is an instance of a standard error class is a matter of prototypes, whatever a script has
done to the constructors. -/
theorem Script.isInstance_errorConstructor (later : Engine.fresh.Later w.engine)
    (standard : name ∈ Intrinsic.errorNames) : ∃ c, Intrinsic.errorConstructor? name = some c ∧
      ∀ id, isInstance r (.object id) (.object c) w =
        inherits id (Intrinsic.errorClass name) w := by
  obtain ⟨c, isConstructor, passes⟩ :=
    (Option.any_eq_true _ _).1 (Intrinsic.errorConstructors_fresh name standard)
  obtain ⟨o, found, passes⟩ := (Option.any_eq_true _ _).1 passes
  obtain ⟨nothing, isClass⟩ := Bool.and_eq_true_iff.1 passes
  obtain ⟨isFunction, prototype⟩ := of_decide_eq_true isClass
  obtain ⟨o', found', kept⟩ := later.objects _ _ found
  have ordinary : Ordinary w c o' :=
    ⟨found', kept.standsFor.trans (Option.isNone_iff_eq_none.1 nothing)⟩
  have function : o'.kind.isFunction := kept.isFunction.trans isFunction
  refine ⟨c, isConstructor, fun id => ?_⟩
  rw [isInstance, Act.bind_of_value (callable?_of_function found' function)]
  exact Act.bind_of_value (get_of_own ordinary (kept.fixed _ _ prototype rfl)) _

theorem Bridge.ErrorShape.tagged (shape : Bridge.ErrorShape o name message stack) (tag : Nat) :
    Bridge.ErrorShape (o.tagged tag) name message stack := by
  have other (key : String) (apart : Bridge.tagKey ≠ .ofString key) :
      (o.tagged tag).properties.get? (.ofString key) = o.properties.get? (.ofString key) :=
    Entries.get?_insert_of_ne _ apart _
  exact ⟨shape.kind, shape.prototype, by rw [other _ (by decide), shape.name],
    by rw [other _ (by decide), shape.message], by rw [other _ (by decide), shape.stack]⟩

/-- What a script caught is an error object of a class, with a name and a message, and the host
reads it as such an error value. -/
structure CaughtError (r : Reentry) (w : World) (id : ObjectId) (cls text : String) : Prop where
  isError : ∃ c, Intrinsic.errorConstructor? "Error" = some c ∧
    Script.isInstance r (.object id) (.object c) w = (.value true, w)
  isInstance : cls ∈ Intrinsic.errorNames → ∃ c, Intrinsic.errorConstructor? cls = some c ∧
    Script.isInstance r (.object id) (.object c) w = (.value true, w)
  name : Script.get r id (.ofString "name") w = (.value (.ofString cls), w)
  message : Script.get r id (.ofString "message") w = (.value (.ofString text), w)
  returns : ∃ stack, Bridge.toHost r (.object id) w =
    (.value (.error { name := cls, message := text, stack := some stack }), w)

theorem caughtError_of_shape (reachable : Reachable w) (started : 0 < w.runtime)
    (h : Ordinary w id o) (shape : Bridge.ErrorShape o name message stack)
    (intact : ClassIntact w name) : CaughtError r w id name message := by
  have later := reachable.later_fresh started
  refine ⟨?_, fun standard => ?_, shape.get_name h intact, Script.get_of_own h shape.message,
    stack, shape.toHost_eq reachable.coherent h intact⟩
  · obtain ⟨c, isConstructor, asks⟩ := Script.isInstance_errorConstructor (r := r) later
      (List.mem_cons_self : "Error" ∈ Intrinsic.errorNames)
    exact ⟨c, isConstructor, (asks id).trans (intact.isError h shape.prototype)⟩
  · obtain ⟨c, isConstructor, asks⟩ := Script.isInstance_errorConstructor (r := r) later standard
    exact ⟨c, isConstructor, (asks id).trans (Script.inherits_of_prototype h shape.prototype)⟩

/-- Throwing an error into the script only adds the object that bears it. -/
theorem scriptSide_raised {e : Error} (notEngine : ∀ fault, e ≠ .engine fault) (w : World) :
    ScriptSide w (w.raised e) := by
  have kept := Bridge.throwIntoScript_within (α := Unit) (E := .crossing) e w
  rw [Bridge.throwIntoScript_eq notEngine] at kept
  exact ⟨⟨_, rfl⟩, kept⟩

/-- An operation of a script that ends by throwing a host error throws an object that shows it. -/
theorem Throws.caughtError {α : Type} {op : ScriptAct α} {e : Error} {w₀ : World}
    (throws : Throws op e w₀ w) (notEngine : ∀ fault, e ≠ .engine fault) (reachable : Reachable w)
    (started : 0 < w.runtime) (intact : ClassIntact w e.scriptName) :
    ∃ id w₁, op w₀ = (.failure (.object id), w₁) ∧
      CaughtError r w₁ id e.scriptName e.message := by
  obtain ⟨v, w₁, thrown, here⟩ := throws
  have raises := Bridge.throwIntoScript_eq (α := Unit) notEngine w
  cases raises.symm.trans thrown
  have made : Ordinary (w.raised e) ⟨w.engine.objects.size⟩ _ :=
    ⟨(Arena.get?_push _ _ _).trans (if_pos rfl), rfl⟩
  have shape := (Bridge.errorShape_errorObject e.scriptName e.message e.stack).tagged
    w.engine.nextTag
  exact ⟨_, _, here, caughtError_of_shape (reachable.of_run raises) started made shape
    (intact.later (scriptSide_raised notEngine w))⟩

end

/-! ### Thrown objects on the host -/

/-- The text that reading a property gave, if it is one; failures count as none. -/
def Outcome.text? : Outcome ScriptValue ScriptValue → Option String
  | .value (.string t) => t.toString?
  | _ => none

theorem Outcome.value_ends {ε α : Type} (a : α) : (value a : Outcome ε α) ≠ .exhausted := nofun

theorem Outcome.text?_ofString (s : String) : (value (.ofString s)).text? = some s :=
  Utf16.toString?_ofString s

/-- Reading a thrown object in the order in which the host does, which may run getters in between.
No kept error is found under its tag, its name and its message are texts, and its stack may be
anything. -/
inductive ReadsAsError (r : Reentry) (id : ObjectId) (w : World) (e : ScriptException)
    (w₄ : World) : Prop where
  | read {w₁ w₂ w₃ : World} {tagged stack : Outcome ScriptValue ScriptValue}
    (tag : Script.get r id Bridge.tagKey w = (tagged, w₁)) (tagEnds : tagged ≠ .exhausted)
    (unkept : ∀ d, tagged = .value (.number d) → ∀ p ∈ w₁.engine.stash, p.1 ≠ d.toWord 64)
    (name : Script.get r id (.ofString "name") w₁ = (.value (.ofString e.name), w₂))
    (message : Script.get r id (.ofString "message") w₂ = (.value (.ofString e.message), w₃))
    (last : Script.get r id (.ofString "stack") w₃ = (stack, w₄)) (stackEnds : stack ≠ .exhausted)
    (text : e.stack = stack.text?)

section

variable {r : Reentry} {α : Type} {w w₁ : World} {id : ObjectId}

namespace Bridge

theorem textOrNone_of_read {key : String} {outcome : Outcome ScriptValue ScriptValue}
    (read : Script.get r id (.ofString key) w = (outcome, w₁)) (ends : outcome ≠ .exhausted) :
    textOrNone r id key w = (.value outcome.text?, w₁) := by
  unfold textOrNone
  cases outcome with
  | value v =>
    rw [Act.bind_of_value (Act.attempt_of_value read)]
    cases v with
    | string t =>
      unfold optionalText Outcome.text?
      simp only
      cases t.toString? with
      | none | some => rfl
    | _ => rfl
  | failure e =>
    rw [Act.bind_of_value (Act.attempt_of_failure read)]
    rfl
  | exhausted => exact absurd rfl ends

theorem stashedError?_of_read {tagged : Outcome ScriptValue ScriptValue}
    (read : Script.get r id tagKey w = (tagged, w₁)) (ends : tagged ≠ .exhausted)
    (unkept : ∀ d, tagged = .value (.number d) → ∀ p ∈ w₁.engine.stash, p.1 ≠ d.toWord 64) :
    stashedError? r id w = (.value none, w₁) := by
  unfold stashedError?
  cases tagged with
  | value v =>
    rw [Act.bind_of_value (Act.attempt_of_value read)]
    cases v with
    | number d => exact Act.takeError_of_absent (unkept d rfl)
    | _ => rfl
  | failure e =>
    rw [Act.bind_of_value (Act.attempt_of_failure read)]
    rfl
  | exhausted => exact absurd rfl ends

/-- Such an object arrives with what reading it gave. -/
theorem intoHost_of_reads {z : ScriptAct α} {w₀ : World} {e : ScriptException}
    (fails : z w₀ = (.failure (.object id), w)) (reads : ReadsAsError r id w e w₁) :
    intoHost r z w₀ = (.failure (.script e.arrived), w₁) := by
  obtain ⟨tag, tagEnds, unkept, name, message, last, stackEnds, text⟩ := reads
  have arrives : errorOfThrown r (.object id) w = (.value (.script e.arrived), w₁) := by
    rw [errorOfThrown, Act.bind_of_value (stashedError?_of_read tag tagEnds unkept)]
    simp only
    rw [Act.bind_of_value (textOrNone_of_read name (Outcome.value_ends _)),
      Act.bind_of_value (textOrNone_of_read message (Outcome.value_ends _)),
      Act.bind_of_value (textOrNone_of_read last stackEnds), ← text, Outcome.text?_ofString,
      Outcome.text?_ofString]
    rfl
  rw [intoHost, Act.recover_of_failure fails, Act.bind_of_value arrives]
  rfl

end Bridge

/-- An object whose tag, name, message and stack are data reads as they are. -/
theorem readsAsError_of_finds {e : ScriptException} {tag stack : ScriptValue}
    (untagged : ∀ d, tag = .number d → ∀ p ∈ w.engine.stash, p.1 ≠ d.toWord 64)
    (tagged : Finds w Bridge.tagKey (some id) tag)
    (name : Finds w (.ofString "name") (some id) (.ofString e.name))
    (message : Finds w (.ofString "message") (some id) (.ofString e.message))
    (last : Finds w (.ofString "stack") (some id) stack)
    (text : e.stack = (Outcome.value stack).text?) : ReadsAsError r id w e w :=
  .read tagged.get_eq (Outcome.value_ends _) (fun d same => untagged d (Outcome.value.inj same))
    name.get_eq message.get_eq last.get_eq (Outcome.value_ends _) text

/-! ### Thrown primitives on the host -/

/-- Primitives that the host and the script write alike: no symbols and big integers, no texts with
lone surrogates, and no large whole numbers. -/
def ScriptValue.SharesText : ScriptValue → Prop
  | .undefined | .null | .bool _ => True
  | .number d => d.isIntegral → d.magnitude < 2 ^ 53 ∨ Number.wholeLimit ≤ d.magnitude
  | .string t => ∃ s, t = .ofString s
  | .symbol _ | .bigint _ | .object _ => False

theorem Bridge.primitiveMessage_eq {v : ScriptValue} (shares : v.SharesText) (w : World) :
    Script.toText r v w = (.value (.ofString (primitiveMessage v)), w) := by
  cases v with
  | undefined | null | bool => rfl
  | number d =>
    have same := Number.hostText_eq_scriptText shares
    change (Outcome.value (Utf16.ofChars (Number.scriptText d)), w) = _
    rw [← same, primitiveMessage, Utf16.ofString, String.toList_ofList]
  | string t =>
    obtain ⟨s, rfl⟩ := shares
    change (Outcome.value (Utf16.ofString s), w) = _
    rw [primitiveMessage, Utf16.toString?_ofString]
    rfl
  | symbol | bigint | object => exact absurd shares id

theorem Bridge.intoHost_of_primitive {z : ScriptAct α} {w₀ : World} {v : ScriptValue}
    (fails : z w₀ = (.failure v, w)) (primitive : Script.isObject v = false) :
    intoHost r z w₀ =
      (.failure (.script { name := "Error", message := primitiveMessage v }), w) := by
  have arrives : errorOfThrown r v w =
      (.value (.script { name := "Error", message := primitiveMessage v }), w) := by
    cases v with
    | object => cases primitive
    | _ => rfl
  rw [intoHost, Act.recover_of_failure fails, Act.bind_of_value arrives]
  rfl

end

/-! ### Both ways -/

end ScriptBridge
