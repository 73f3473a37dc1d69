import ScriptBridge.Proofs.Data
import ScriptBridge.Script.Call
import ScriptBridge.Session

/-!
Host errors find their way back. An error thrown into the script is kept under a tag that its error
object bears for good. As long as the object is passed on uncaught, the error stays there: only the
end of the outermost entry drops it, and the host takes it out at the next crossing. So it crosses
any chain of calls unchanged.
-/

namespace ScriptBridge

/-! ### Tags -/

/-- Every kept error has a tag of its own that was given out before. -/
structure Engine.Tagged (e : Engine) : Prop where
  nodup : (e.stash.map Prod.fst).Nodup
  below : ∀ p ∈ e.stash, p.1 < e.nextTag

namespace Engine

theorem Tagged.nil {e : Engine} (h : e.stash = []) : e.Tagged := by
  refine ⟨?_, ?_⟩ <;> simp [h]

theorem Tagged.of_eq {e e' : Engine} (t : e.Tagged) (stash : e'.stash = e.stash)
    (nextTag : e'.nextTag = e.nextTag) : e'.Tagged :=
  ⟨stash ▸ t.nodup, by rw [stash, nextTag]; exact t.below⟩

theorem Tagged.raise {e : Engine} (t : e.Tagged) (error : Error) (o : Object) :
    (e.raise error o).Tagged := by
  refine ⟨List.nodup_cons.2 ⟨fun mem => ?_, t.nodup⟩, fun p mem => ?_⟩
  · obtain ⟨p, hp, tag⟩ := List.mem_map.1 mem
    have := t.below p hp
    omega
  · cases List.mem_cons.1 mem with
    | inl here =>
      subst here
      exact Nat.lt_succ_self _
    | inr there => exact Nat.lt_succ_of_lt (t.below p there)

theorem Tagged.forget {e : Engine} (t : e.Tagged) (tag : Nat) : (e.forget tag).Tagged :=
  ⟨t.nodup.sublist (List.filter_sublist.map _), fun p mem => t.below p (List.mem_filter.1 mem).1⟩

theorem Tagged.left {e : Engine} (t : e.Tagged) : e.left.Tagged := by
  by_cases outermost : e.depth - 1 = 0
  · exact .nil (if_pos outermost)
  · exact t.of_eq (if_neg outermost) rfl

theorem Tagged.find? {e : Engine} (t : e.Tagged) {tag : Nat} {error : Error}
    (kept : (tag, error) ∈ e.stash) : e.stash.find? (·.1 == tag) = some (tag, error) :=
  (find?_key_eq_some_iff t.nodup).2 ⟨kept, rfl⟩

end Engine

theorem EngineStep.tagged {e e' : Engine} (s : EngineStep e e') (t : e.Tagged) : e'.Tagged := by
  cases s with
  | raised error o _ => exact t.raise error o
  | recovered tag => exact t.forget tag
  | objectAdded | objectChanged | symbolMade | jobQueued | jobTaken | exposed | methodAdded | held
  | rooted | dropped =>
    exact t.of_eq rfl rfl

theorem Engine.invariant_tagged : Engine.Invariant Engine.Tagged where
  initial := .nil rfl
  fresh := .nil rfl
  step s t := s.tagged t
  entered t := t.of_eq rfl rfl
  left t := t.left

theorem Reachable.tagged {w : World} (h : Reachable w) : w.engine.Tagged :=
  Engine.invariant_tagged.of_reachable h

/-! ### Errors on their way -/

/-- A run that takes a kept error nowhere out, though it may leave entries into the runtime. -/
inductive Spares (kept : Nat × Error) : World → World → Prop where
  | refl (w : World) : Spares kept w w
  | step {w w₁ w₂ : World} (s : Step w w₁)
      (spared : kept ∈ w.engine.stash → kept ∈ w₁.engine.stash) (rest : Spares kept w₁ w₂) :
    Spares kept w w₂
  | entry {w w₁ w₂ : World} (inside : Spares kept w.entered w₁) (rest : Spares kept w₁.left w₂) :
    Spares kept w w₂

namespace Spares

variable {kept : Nat × Error} {w w' : World}

theorem steps (h : Spares kept w w') : Steps w w' := by
  induction h with
  | refl => exact .refl _
  | step s _ _ ih => exact .step s ih
  | entry _ _ inside rest => exact .entry inside rest

/-- Inside an entry a spared error stays: the entries that are left are not the outermost. -/
theorem mem (h : Spares kept w w') (inside : 0 < w.engine.depth) (mem : kept ∈ w.engine.stash) :
    kept ∈ w'.engine.stash := by
  induction h with
  | refl => exact mem
  | step s spared _ ih =>
    have depth := (Steps.single s).depth_eq
    exact ih (by omega) (spared mem)
  | @entry w w₁ w₂ nested _ ihNested ihRest =>
    have depth : w₁.engine.depth = w.engine.depth + 1 := nested.steps.depth_eq
    have stash : w₁.left.engine.stash = w₁.engine.stash := if_neg (by omega)
    refine ihRest ?_ (stash ▸ ihNested (Nat.succ_pos _) mem)
    change 0 < w₁.engine.depth - 1
    omega

end Spares

/-- A thrown value is the error object that was made for a host error, which is still kept. -/
structure Carries (w : World) (v : ScriptValue) (tag : Nat) (e : Error) : Prop where
  object : ∃ id o, v = .object id ∧ Ordinary w id o ∧
    o.properties.get? Bridge.tagKey = some (.fixed (.number (.ofNat tag)))
  kept : (tag, e) ∈ w.engine.stash

/-- What is passed on inside an entry carries its error on. -/
theorem Carries.spared {w w' : World} {v : ScriptValue} {tag : Nat} {e : Error}
    (h : Carries w v tag e) (run : Spares (tag, e) w w') (inside : 0 < w.engine.depth) :
    Carries w' v tag e := by
  obtain ⟨id, o, rfl, ordinary, tagged⟩ := h.object
  obtain ⟨o', found, later⟩ :=
    (run.steps.later (run.steps.runtime_eq inside)).objects _ o ordinary.found
  exact ⟨⟨id, o', rfl, ⟨found, later.standsFor.trans ordinary.standsFor⟩,
    later.fixed _ _ tagged rfl⟩, run.mem inside h.kept⟩

namespace World

/-- The world after a host error was thrown into the script. -/
def raised (w : World) (e : Error) : World :=
  { w with engine := w.engine.raise e (Bridge.errorObject e.scriptName e.message e.stack) }

/-- The world after a host error was taken out again. -/
def recovered (w : World) (tag : Nat) : World := { w with engine := w.engine.forget tag }

theorem carries_raised (w : World) (e : Error) :
    Carries (w.raised e) (.object ⟨w.engine.objects.size⟩) w.engine.nextTag e :=
  ⟨⟨_, _, rfl, ⟨(Arena.get?_push _ _ _).trans (if_pos rfl), rfl⟩, Entries.get?_insert_self _ _ _⟩,
    List.mem_cons_self⟩

end World

namespace Bridge

variable {r : Reentry} {α : Type} {e : Error}

theorem throwIntoScript_eq (notEngine : ∀ fault, e ≠ .engine fault) (w : World) :
    (throwIntoScript e : ScriptAct α) w =
      (.failure (.object ⟨w.engine.objects.size⟩), w.raised e) := by
  cases e with
  | engine fault => exact absurd rfl (notEngine fault)
  | argument | conversion | logic | host | script | read => rfl

theorem takeError_of_kept {ε : Type} {w : World} (t : w.engine.Tagged) {tag : Nat}
    (kept : (tag, e) ∈ w.engine.stash) :
    (Act.takeError tag : Act ε _) w = (.value (some e), w.recovered tag) :=
  Act.takeError_of_found (t.find? kept)

/-- The host takes out the very error. -/
theorem errorOfThrown_of_carries {w : World} {v : ScriptValue} {tag : Nat}
    (h : Carries w v tag e) (t : w.engine.Tagged) (few : tag ≤ 2 ^ 53) :
    errorOfThrown r v w = (.value e, w.recovered tag) := by
  obtain ⟨id, o, rfl, ordinary, tagged⟩ := h.object
  have read := Script.get_of_own (r := r) ordinary tagged
  have stashed : stashedError? r id w = (.value (some e), w.recovered tag) := by
    rw [stashedError?, Act.bind_of_value (Act.attempt_of_value read)]
    simp only
    rw [Double.toWord_ofNat few (by omega)]
    exact takeError_of_kept t h.kept
  exact Act.bind_of_value stashed _

theorem intoHost_of_carries {z : ScriptAct α} {w w₁ : World} {v : ScriptValue} {tag : Nat}
    (fails : z w = (.failure v, w₁)) (h : Carries w₁ v tag e) (t : w₁.engine.Tagged)
    (few : tag ≤ 2 ^ 53) : intoHost r z w = (.failure e, w₁.recovered tag) := by
  rw [intoHost, Act.recover_of_failure fails, Act.bind_of_value (errorOfThrown_of_carries h t few)]
  rfl

end Bridge

/-! ### Errors of the script -/

/-- A text that may be missing, as the script has it. -/
def ScriptValue.ofText? (s : Option String) : ScriptValue := (s.map .ofString).getD .undefined

/-- An error object of the script's own, with what reading it gives. -/
structure OwnError (r : Reentry) (w : World) (id : ObjectId) (e : ScriptException) : Prop where
  untagged : Script.get r id Bridge.tagKey w = (.value .undefined, w)
  name : Script.get r id (.ofString "name") w = (.value (.ofString e.name), w)
  message : Script.get r id (.ofString "message") w = (.value (.ofString e.message), w)
  stack : Script.get r id (.ofString "stack") w = (.value (.ofText? e.stack), w)

/-- How such an error arrives at the host: an empty stack is none, and the engine's bare message for
what is no function is written out. -/
def ScriptException.arrived (e : ScriptException) : ScriptException :=
  Bridge.nameCallee { e with stack := e.stack.filter (!·.isEmpty) }

theorem ScriptException.arrived_eq {e : ScriptException}
    (notBare : ¬(e.name = "TypeError" ∧ e.message = "not a function"))
    (filled : e.stack ≠ some "") : e.arrived = e := by
  have kept : e.stack.filter (!·.isEmpty) = e.stack := by
    cases h : e.stack with
    | none => rfl
    | some stack =>
      have nonempty : stack.isEmpty = false := by
        simpa using fun empty : stack = "" => filled (empty ▸ h)
      simp [Option.filter, nonempty]
  rw [arrived, kept, Bridge.nameCallee, if_neg notBare]

namespace Bridge

variable {r : Reentry} {α : Type} {w : World} {id : ObjectId}

theorem textOrNone_of_get {key : String} {s : Option String}
    (h : Script.get r id (.ofString key) w = (.value (.ofText? s), w)) :
    textOrNone r id key w = (.value s, w) := by
  rw [textOrNone, Act.bind_of_value (Act.attempt_of_value h)]
  refine Act.recover_of_value ?_ _
  cases s with
  | none => rfl
  | some s => exact optionalText_ofString s w

theorem intoHost_of_own {z : ScriptAct α} {w₁ : World} {own : ScriptException}
    (fails : z w = (.failure (.object id), w₁)) (h : OwnError r w₁ id own) :
    intoHost r z w = (.failure (.script own.arrived), w₁) := by
  have untagged : stashedError? r id w₁ = (.value none, w₁) := by
    rw [stashedError?, Act.bind_of_value (Act.attempt_of_value h.untagged)]
    rfl
  have arrives : errorOfThrown r (.object id) w₁ = (.value (.script own.arrived), w₁) := by
    rw [errorOfThrown, Act.bind_of_value untagged]
    simp only
    rw [Act.bind_of_value (textOrNone_of_get (s := some own.name) h.name),
      Act.bind_of_value (textOrNone_of_get (s := some own.message) h.message),
      Act.bind_of_value (textOrNone_of_get h.stack)]
    rfl
  rw [intoHost, Act.recover_of_failure fails, Act.bind_of_value arrives]
  rfl

end Bridge

/-! ### Chains of calls -/

mutual

/-- An action of the host, begun in a world, ends by an error that came up somewhere down a chain of
calls and was caught nowhere. -/
inductive HostRaises : {α : Type} → HostAct α → World → Error → World → Prop where
  | raised {α : Type} (e : Error) (w : World) : HostRaises (Act.fail e : HostAct α) w e w
  /-- A script threw an error of its own. -/
  | thrown {α : Type} {r : Reentry} {z : ScriptAct α} {w w₁ : World} {id : ObjectId}
      {own : ScriptException} (fails : z w = (.failure (.object id), w₁))
      (h : OwnError r w₁ id own) : HostRaises (Bridge.intoHost r z) w (.script own.arrived) w₁
  | first {α β : Type} {x : HostAct α} {f : α → HostAct β} {w w₁ : World} {e : Error}
      (h : HostRaises x w e w₁) : HostRaises (x >>= f) w e w₁
  | next {α β : Type} {x : HostAct α} {f : α → HostAct β} {a : α} {w w₁ w₂ : World} {e : Error}
      (before : x w = (.value a, w₁)) (h : HostRaises (f a) w₁ e w₂) : HostRaises (x >>= f) w e w₂
  | entered {α : Type} {x : HostAct α} {w w₁ : World} {e : Error}
      (h : HostRaises x w.entered e w₁) : HostRaises (Session.enter x) w e w₁.left
  /-- The host called a script. -/
  | script {α : Type} {r : Reentry} {z : ScriptAct α} {w w₁ : World} {v : ScriptValue} {tag : Nat}
      {e : Error} (h : ScriptRaises z w v tag e w₁) :
    HostRaises (Bridge.intoHost r z) w e (w₁.recovered tag)

/-- An action of the script ends by throwing the error object of a host error that came up down the
chain. -/
inductive ScriptRaises :
    {α : Type} → ScriptAct α → World → ScriptValue → Nat → Error → World → Prop where
  /-- The script called the host. -/
  | host {α : Type} {x : HostAct α} {w w₁ : World} {e : Error} (h : HostRaises x w e w₁)
      (notEngine : ∀ fault, e ≠ .engine fault) :
    ScriptRaises (Bridge.intoScript x) w (.object ⟨w₁.engine.objects.size⟩) w₁.engine.nextTag e
      (w₁.raised e)
  | next {α β : Type} {x : ScriptAct α} {f : α → ScriptAct β} {a : α} {w w₁ w₂ : World}
      {v : ScriptValue} {tag : Nat} {e : Error} (before : x w = (.value a, w₁))
      (h : ScriptRaises (f a) w₁ v tag e w₂) : ScriptRaises (x >>= f) w v tag e w₂
  /-- Code around the call passes on what is thrown, whatever else it does before. -/
  | passed {α β : Type} {z : ScriptAct α} {z' : ScriptAct β} {w w₁ w₂ : World} {v : ScriptValue}
      {tag : Nat} {e : Error} (h : ScriptRaises z w v tag e w₁)
      (uncaught : z w = (.failure v, w₁) → z' w = (.failure v, w₂))
      (spares : Spares (tag, e) w₁ w₂) : ScriptRaises z' w v tag e w₂

end

theorem ScriptRaises.first {α β : Type} {z : ScriptAct α} {f : α → ScriptAct β} {w w₁ : World}
    {v : ScriptValue} {tag : Nat} {e : Error} (h : ScriptRaises z w v tag e w₁) :
    ScriptRaises (z >>= f) w v tag e w₁ :=
  .passed h (fun fails => Act.bind_of_failure fails f) (.refl w₁)

/-- Inside an entry an action fails with an error. -/
structure FailsInside {α : Type} (x : HostAct α) (w : World) (e : Error) (w₁ : World) : Prop where
  depth : w₁.engine.depth = w.engine.depth
  fails : Reachable w → 0 < w.engine.depth → w₁.engine.nextTag ≤ 2 ^ 53 → x w = (.failure e, w₁)

/-- Inside an entry an action throws the object that bears an error. -/
structure ThrowsInside {α : Type} (z : ScriptAct α) (w : World) (v : ScriptValue) (tag : Nat)
    (e : Error) (w₁ : World) : Prop where
  depth : w₁.engine.depth = w.engine.depth
  fails : Reachable w → 0 < w.engine.depth → w₁.engine.nextTag ≤ 2 ^ 53 →
    z w = (.failure v, w₁) ∧ Carries w₁ v tag e ∧ tag < w₁.engine.nextTag

section

variable {α β : Type} {w w₁ w₂ : World} {e : Error} {v : ScriptValue} {tag : Nat}

theorem FailsInside.first {x : HostAct α} (h : FailsInside x w e w₁) (f : α → HostAct β) :
    FailsInside (x >>= f) w e w₁ :=
  ⟨h.depth, fun reachable inside few => Act.bind_of_failure (h.fails reachable inside few) f⟩

theorem FailsInside.next {x : HostAct α} {f : α → HostAct β} {a : α}
    (before : x w = (.value a, w₁)) (h : FailsInside (f a) w₁ e w₂) :
    FailsInside (x >>= f) w e w₂ := by
  have depth := (Act.steps_of before).depth_eq
  refine ⟨h.depth.trans depth, fun reachable inside few => ?_⟩
  rw [Act.bind_of_value before]
  exact h.fails (reachable.of_run before) (by omega) few

theorem ThrowsInside.next {x : ScriptAct α} {f : α → ScriptAct β} {a : α}
    (before : x w = (.value a, w₁)) (h : ThrowsInside (f a) w₁ v tag e w₂) :
    ThrowsInside (x >>= f) w v tag e w₂ := by
  have depth := (Act.steps_of before).depth_eq
  refine ⟨h.depth.trans depth, fun reachable inside few => ?_⟩
  rw [Act.bind_of_value before]
  exact h.fails (reachable.of_run before) (by omega) few

theorem FailsInside.entered {x : HostAct α} (h : FailsInside x w.entered e w₁) :
    FailsInside (Session.enter x) w e w₁.left := by
  have depth : w₁.engine.depth = w.engine.depth + 1 := h.depth
  refine ⟨?_, fun reachable _ few => ?_⟩
  · change w₁.engine.depth - 1 = w.engine.depth
    omega
  · unfold Session.enter Act.entering
    simp only [h.fails reachable.entered (Nat.succ_pos _) few]

theorem ThrowsInside.script {r : Reentry} {z : ScriptAct α} (h : ThrowsInside z w v tag e w₁) :
    FailsInside (Bridge.intoHost r z) w e (w₁.recovered tag) := by
  refine ⟨h.depth, fun reachable inside few => ?_⟩
  have few : w₁.engine.nextTag ≤ 2 ^ 53 := few
  obtain ⟨fails, carries, below⟩ := h.fails reachable inside few
  exact Bridge.intoHost_of_carries fails carries (reachable.of_run fails).tagged (by omega)

/-- Thrown into the script, the error is borne by a new object. -/
theorem FailsInside.host {x : HostAct α} (h : FailsInside x w e w₁)
    (notEngine : ∀ fault, e ≠ .engine fault) :
    ThrowsInside (Bridge.intoScript x) w (.object ⟨w₁.engine.objects.size⟩) w₁.engine.nextTag e
      (w₁.raised e) := by
  refine ⟨h.depth, fun reachable inside few => ⟨?_, w₁.carries_raised e, Nat.lt_succ_self _⟩⟩
  have fails := h.fails reachable inside (Nat.le_of_succ_le few)
  rw [Bridge.intoScript, Act.recover_of_failure fails, Bridge.throwIntoScript_eq notEngine]

theorem ThrowsInside.passed {z : ScriptAct α} {z' : ScriptAct β} (h : ThrowsInside z w v tag e w₁)
    (uncaught : z w = (.failure v, w₁) → z' w = (.failure v, w₂))
    (spares : Spares (tag, e) w₁ w₂) : ThrowsInside z' w v tag e w₂ := by
  have depth := h.depth
  refine ⟨spares.steps.depth_eq.trans depth, fun reachable inside few => ?_⟩
  have later := spares.steps.later (spares.steps.runtime_eq (by omega))
  have tags := later.nextTag
  obtain ⟨fails, carries, below⟩ := h.fails reachable inside (by omega)
  exact ⟨uncaught fails, carries.spared spares (by omega), by omega⟩

end

/-- Along a chain of calls inside an entry the error stays the same. -/
theorem HostRaises.failsInside {α : Type} {x : HostAct α} {w w₁ : World} {e : Error}
    (h : HostRaises x w e w₁) : FailsInside x w e w₁ := by
  -- the relations are mutual, and each has an invariant of its own
  refine @HostRaises.rec (fun x w e w₁ _ => FailsInside x w e w₁)
    (fun z w v tag e w₁ _ => ThrowsInside z w v tag e w₁) ?raised ?thrown ?first ?next ?entered
    ?script ?host ?scriptNext ?passed α x w e w₁ h
  case raised => exact fun e w => ⟨rfl, fun _ _ _ => rfl⟩
  case thrown =>
    exact fun fails own =>
      ⟨(Act.steps_of fails).depth_eq, fun _ _ _ => Bridge.intoHost_of_own fails own⟩
  case first => exact fun _ ih => ih.first _
  case next => exact fun before _ ih => ih.next before
  case entered => exact fun _ ih => ih.entered
  case script => exact fun _ ih => ih.script
  case host => exact fun _ notEngine ih => ih.host notEngine
  case scriptNext => exact fun before _ ih => ih.next before
  case passed => exact fun _ uncaught spares ih => ih.passed uncaught spares

end ScriptBridge
