import ScriptBridge.Proofs.CursorRuns
import ScriptBridge.Proofs.IndexView

/-!
The methods that the stand-in of a sequence hands out. Whatever scripts do, each is a function that
runs the method on this very sequence, made when it is first asked for and given again afterwards.
-/

namespace ScriptBridge

/-! ### What stand-ins keep -/

namespace Engine

/-- An object is the function of a method of a sequence. -/
def Runs (e : Engine) (s : SequenceId) (method : SequenceMethod) (id : ObjectId) : Prop :=
  ∃ o, e.objects.get? id.index = some o ∧ o.kind = .function (.sequenceMethod s method)

/-- What a stand-in keeps as a method is the function of that method of its sequence. -/
def MethodsKept (e : Engine) : Prop :=
  ∀ i o s target methods, e.objects.get? i = some o → o.kind = .sequenceProxy s target methods →
    ∀ method id, (method, id) ∈ methods → e.Runs s method id

theorem Runs.later {e e' : Engine} {s : SequenceId} {method : SequenceMethod} {id : ObjectId}
    (h : e.Runs s method id) (later : e.Later e') : e'.Runs s method id := by
  obtain ⟨o, found, kind⟩ := h
  obtain ⟨o', found', same⟩ := later.objects _ _ found
  exact ⟨o', found', (same.method s method kind).trans kind⟩

theorem get?_addMethod {e : Engine} {proxy : ObjectId} {o : Object} (method : SequenceMethod)
    (code : Object) (found : e.objects.get? proxy.index = some o) :
    (e.addMethod proxy o method code).objects.get? e.objects.size = some code := by
  have apart : proxy.index ≠ e.objects.size := Nat.ne_of_lt (Arena.lt_size_of_get? found)
  refine (Arena.get?_set _ _ _ _).trans ((if_neg fun both => apart both.1).trans ?_)
  exact (Arena.get?_push _ _ _).trans (if_pos rfl)

theorem runs_addMethod {e : Engine} {proxy : ObjectId} {o code : Object} {s : SequenceId}
    {method : SequenceMethod} (found : e.objects.get? proxy.index = some o)
    (runs : code.kind = .function (.sequenceMethod s method)) :
    (e.addMethod proxy o method code).Runs s method ⟨e.objects.size⟩ :=
  ⟨code, get?_addMethod method code found, runs⟩

end Engine

/-- How an object came to be what it is after a step. -/
inductive EngineStep.Origin (e e' : Engine) (i : Nat) (o' : Object) : Prop where
  | before {o : Object} (found : e.objects.get? i = some o) (kind : o.kind.Becomes o'.kind)
  | new (bare : o'.kind.methods = [])
  | methodAdded {o : Object} {s : SequenceId} {method : SequenceMethod} {id : ObjectId}
    (found : e.objects.get? i = some o) (stands : o.kind.standsFor? = some (.sequence s))
    (runs : e'.Runs s method id) (made : o' = o.addMethod method id)

theorem ObjectKind.methods_of_none {k : ObjectKind} (h : k.standsFor? = none) : k.methods = [] := by
  cases k with
  | sequenceProxy => cases h
  | _ => rfl

/-- Stand-ins do not come about by moving on. -/
theorem ObjectKind.Becomes.sequenceProxy {k : ObjectKind} {s : SequenceId} {target : ObjectId}
    {methods : List (SequenceMethod × ObjectId)} (h : k.Becomes (.sequenceProxy s target methods)) :
    k = .sequenceProxy s target methods := by
  cases h with
  | same => rfl
  | moved h => cases movesTo_iff.1 h

theorem EngineStep.origin {e e' : Engine} (step : EngineStep e e') {i : Nat} {o' : Object}
    (found : e'.objects.get? i = some o') : Origin e e' i o' := by
  have pushed {o : Object} (bare : o.kind.methods = [])
      (found : Arena.get? (e.objects.push o) i = some o') : Origin e e' i o' := by
    rw [Arena.get?_push] at found
    split at found
    · cases found
      exact .new bare
    · exact .before found (.same _)
  cases step with
  | objectAdded o h => exact pushed (ObjectKind.methods_of_none h) found
  | objectChanged id o q here becomes =>
    rw [Arena.get?_set] at found
    split at found
    · rename_i same
      cases found
      exact .before (same.1 ▸ here) becomes.kind
    · exact .before found (.same _)
  | exposed handle o fresh h bare => exact pushed bare found
  | raised error o h =>
    refine pushed ?_ found
    change o.kind.methods = []
    rw [h]
    rfl
  | methodAdded proxy o s method code here stands runs =>
    rw [Engine.addMethod, Arena.get?_set] at found
    split at found
    · rename_i same
      cases found
      exact .methodAdded (same.1 ▸ here) stands (Engine.runs_addMethod here runs) rfl
    · refine pushed ?_ found
      rw [runs]
      rfl
  | symbolMade | jobQueued | jobTaken | held | rooted | dropped | recovered =>
    exact .before found (.same _)

theorem EngineStep.methodsKept {e e' : Engine} (step : EngineStep e e') (h : e.MethodsKept) :
    e'.MethodsKept := by
  intro i o' s target methods found kind method id mem
  cases step.origin found with
  | @before o here becomes =>
    rw [kind] at becomes
    exact (h i o s target methods here becomes.sequenceProxy method id mem).later step.later
  | new bare =>
    rw [kind] at bare
    rw [show methods = [] from bare] at mem
    cases mem
  | @methodAdded o s' method' id' here stands runs made =>
    obtain ⟨t, ms, was⟩ := ObjectKind.sequenceProxy_of_standsFor stands
    have added : o'.kind = .sequenceProxy s' t ((method', id') :: ms) := by
      rw [made, Object.addMethod]
      simp only [was]
    rw [kind] at added
    cases added
    cases mem with
    | head => exact runs
    | tail _ mem => exact (h i o _ _ _ here was method id mem).later step.later

/-- No stand-in has been made yet. -/
theorem Engine.methodsKept_fresh : Engine.fresh.MethodsKept := by
  intro i o s target methods found kind
  have all : Engine.fresh.objects.cells.all fun o => o.kind.standsFor?.isNone := by
    decide +kernel
  obtain ⟨inside, rfl⟩ := Array.getElem?_eq_some_iff.1 found
  have none := Array.all_eq_true.1 all i inside
  rw [kind] at none
  cases none

theorem Engine.invariant_methodsKept : Engine.Invariant Engine.MethodsKept where
  initial i o _ _ _ found := by simp [Arena.get?, Arena.empty] at found
  fresh := Engine.methodsKept_fresh
  step s h := s.methodsKept h
  entered h := h
  left h := h

/-- At every moment of every execution stand-ins keep their own methods. -/
theorem Reachable.methodsKept {w : World} (h : Reachable w) : w.engine.MethodsKept :=
  Engine.invariant_methodsKept.of_reachable h

/-! ### Asking for a method -/

theorem Act.addMethod_eq {ε : Type} {w : World} {xs : ObjectId} {s : SequenceId} {o code : Object}
    {method : SequenceMethod} (found : w.engine.objects.get? xs.index = some o)
    (stands : o.kind.standsFor? = some (.sequence s))
    (runs : code.kind = .function (.sequenceMethod s method)) :
    (Act.addMethod xs s method code runs : Act ε _) w =
      (.value ⟨w.engine.objects.size⟩,
        { w with engine := w.engine.addMethod xs o method code }) := by
  unfold Act.addMethod
  simp only [found, if_pos stands]

namespace Script

variable {w : World} {xs target : ObjectId} {s : SequenceId} {o : Object}
  {methods : List (SequenceMethod × ObjectId)}

/-- A stand-in makes the function of a method when it is first asked for it. -/
theorem boundMethod_of_unasked (method : SequenceMethod)
    (found : w.engine.objects.get? xs.index = some o)
    (kind : o.kind = .sequenceProxy s target methods)
    (unasked : methods.find? (·.1 == method) = none) :
    let code := .function (.sequenceMethod s method) (.ofString method.name) 0
    boundMethod xs method w = (.value (.object ⟨w.engine.objects.size⟩),
      { w with engine := w.engine.addMethod xs o method code }) := by
  obtain ⟨_, prototype, properties⟩ := o
  subst kind
  rw [boundMethod, Act.object?_bind found]
  simp only [unasked]
  exact Act.bind_of_value (Act.addMethod_eq found rfl rfl) _

theorem boundMethod_of_asked {method method' : SequenceMethod} {m : ObjectId}
    (found : w.engine.objects.get? xs.index = some o)
    (kind : o.kind = .sequenceProxy s target methods)
    (asked : methods.find? (·.1 == method) = some (method', m)) :
    boundMethod xs method w = (.value (.object m), w) := by
  obtain ⟨_, prototype, properties⟩ := o
  subst kind
  rw [boundMethod, Act.object?_bind found]
  simp only [asked]
  rfl

theorem scriptSide_boundMethod {w₁ : World} {method : SequenceMethod} {v : ScriptValue}
    (given : boundMethod xs method w = (.value v, w₁)) (world : ∃ engine, w₁ = { w with engine }) :
    ScriptSide w w₁ := by
  have kept := boundMethod_within (E := .crossing) xs method w
  rw [given] at kept
  exact ⟨world, kept⟩

/-- A stand-in hands out functions that run the methods of its sequence. -/
theorem boundMethod_eq (reachable : Reachable w)
    (registered : w.engine.registry.standIn? (.sequence s) = some xs) (method : SequenceMethod) :
    ∃ m w₁, boundMethod xs method w = (.value (.object m), w₁) ∧ ScriptSide w w₁ ∧
      w₁.engine.Runs s method m := by
  obtain ⟨o, target, methods, found, kind⟩ := (reachable.stands registered).sequence
  cases known : methods.find? (·.1 == method) with
  | some entry =>
    obtain ⟨method', m⟩ := entry
    obtain rfl : method' = method := by simpa using List.find?_some known
    exact ⟨m, w, boundMethod_of_asked found kind known, .refl w,
      reachable.methodsKept _ _ _ _ _ found kind _ _ (List.mem_of_find?_eq_some known)⟩
  | none =>
    have given := boundMethod_of_unasked method found kind known
    exact ⟨_, _, given, scriptSide_boundMethod given ⟨_, rfl⟩, Engine.runs_addMethod found rfl⟩

end Script

end ScriptBridge
