import ScriptBridge.Proofs.Crossings

/-!
Host functions called from the host and through their stand-ins. The way through the script runs the
body once, on values that agree with those given, and brings back what it answers.
-/

namespace ScriptBridge

/-! ### The way through the script -/

namespace Act

variable {ε δ α β : Type} {w w₁ : World}

theorem bind_congr_run {x y : Act ε α} (h : x w = y w₁) (f : α → Act ε β) :
    (x >>= f) w = (y >>= f) w₁ := by
  rw [run_bind, run_bind, h]

theorem recover_congr_run {x y : Act ε α} (h : x w = y w₁) (handle : ε → Act δ α) :
    x.recover handle w = y.recover handle w₁ := by
  simp only [recover, h]

theorem of_mapAll_cons {f : α → Act ε β} {x : α} {xs : List α} {y : β} {ys : List β}
    (runs : mapAll f (x :: xs) w = (.value (y :: ys), w₁)) :
    ∃ w', f x w = (.value y, w') ∧ mapAll f xs w' = (.value ys, w₁) := by
  obtain ⟨_, w', first, runs⟩ := of_bind_value (x := f x) runs
  obtain ⟨_, _, others, made⟩ := of_bind_value (x := mapAll f xs) runs
  cases made
  exact ⟨w', first, others⟩

end Act

namespace Bridge

/-- Calls a host function as a script does: through its stand-in. -/
def invokeThroughScript (r : Reentry) (f : HostFunctionId) (this : Value) (args : List Value) :
    HostAct Value := do
  match ← toScript (.function (.host f)) with
  | .object id =>
    let this ← toScript this
    let args ← Act.mapAll toScript args
    toHost r (← intoHost r (r.call id this args))
  | v => wrongType v "function"

/-- Does something on the host for the script, and brings back what the script is answered. -/
def broughtBack (r : Reentry) (x : HostAct Value) : HostAct Value := do
  toHost r (← intoHost r (intoScript do toScript (← x)))

end Bridge

/-! ### What is brought back -/

/-- An answer that can be brought back through the script: a value that crosses, or a failure that
is not one of the engine. Tags have to be exact as numbers. -/
inductive Returns : Outcome Error Value × World → Prop where
  | value {v : Value} {w : World} (h : Crosses w v) : Returns (.value v, w)
  | failure {e : Error} {w : World} (notEngine : ∀ fault, e ≠ .engine fault)
    (few : w.engine.nextTag ≤ 2 ^ 53) : Returns (.failure e, w)
  | exhausted (w : World) : Returns (.exhausted, w)

/-- Two calls end alike: with agreeing values or with the very same error. -/
inductive Outcome.Agrees : Outcome Error Value → Outcome Error Value → Prop where
  | value {v v' : Value} (h : v.Agrees v') : Agrees (.value v) (.value v')
  | failure (e : Error) : Agrees (.failure e) (.failure e)
  | exhausted : Agrees .exhausted .exhausted

theorem Outcome.Agrees.trans {a b c : Outcome Error Value} (h : a.Agrees b) (h' : b.Agrees c) :
    a.Agrees c := by
  cases h with
  | value h =>
    cases h' with
    | value h' => exact .value (h.trans h')
  | failure e => exact h'
  | exhausted => exact h'

/-- Agreement of values that may be missing. -/
def Value.AgreesAt : Option Value → Option Value → Prop := Option.Rel Value.Agrees

namespace Value.AgreesAt

variable {a b c : Option Value}

theorem refl (a : Option Value) : AgreesAt a a := by
  cases a with
  | none => exact .none
  | some v => exact .some (.refl v)

theorem trans (h : AgreesAt a b) (h' : AgreesAt b c) : AgreesAt a c := by
  cases h with
  | none => exact h'
  | some h =>
    cases h' with
    | some h' => exact .some (h.trans h')

end Value.AgreesAt

/-- Host containers hold agreeing values. -/
structure Heap.Agrees (h h' : Heap) : Prop where
  sequences : ∀ s (i : Nat), Value.AgreesAt (h.sequence s)[i]? (h'.sequence s)[i]?
  plains : ∀ p key, Value.AgreesAt ((h.plain p).get? key) ((h'.plain p).get? key)
  functions : h'.functions = h.functions

namespace Heap.Agrees

variable {h h₁ h₂ : Heap}

theorem refl (h : Heap) : h.Agrees h := ⟨fun _ _ => .refl _, fun _ _ => .refl _, rfl⟩

theorem trans (a : h.Agrees h₁) (b : h₁.Agrees h₂) : h.Agrees h₂ where
  sequences s i := (a.sequences s i).trans (b.sequences s i)
  plains p key := (a.plains p key).trans (b.plains p key)
  functions := b.functions.trans a.functions

end Heap.Agrees

/-- Two calls answer alike and leave the same on the host: containers with agreeing values, the log
and the exit code. -/
structure Alike (a b : Outcome Error Value × World) : Prop where
  outcome : a.1.Agrees b.1
  heap : a.2.heap.Agrees b.2.heap
  log : b.2.log = a.2.log
  exitCode : b.2.exitCode = a.2.exitCode

theorem Alike.trans {a b c : Outcome Error Value × World} (h : Alike a b) (h' : Alike b c) :
    Alike a c :=
  ⟨h.outcome.trans h'.outcome, h.heap.trans h'.heap, h'.log.trans h.log,
    h'.exitCode.trans h.exitCode⟩

/-- What was brought back agrees with what was answered, and nothing changed on the host. -/
structure BroughtBack (a b : Outcome Error Value × World) : Prop where
  outcome : a.1.Agrees b.1
  side : ScriptSide a.2 b.2

theorem BroughtBack.alike {a b : Outcome Error Value × World} (h : BroughtBack a b) :
    Alike a b := by
  obtain ⟨engine, world⟩ := h.side.world
  refine ⟨h.outcome, ?_, by rw [world], by rw [world]⟩
  rw [world]
  exact .refl _

namespace Bridge

variable {r : Reentry} {w w₁ : World}

theorem broughtBack_value {x : HostAct Value} {v : Value} (answers : x w = (.value v, w₁))
    (reachable : Reachable w₁) (h : Crosses w₁ v) :
    BroughtBack (.value v, w₁) (broughtBack r x w) := by
  obtain ⟨u, w₂, crosses, crossed, sent⟩ := toScript_of_crosses h
  obtain ⟨v', w₃, returns, crossed', agrees⟩ :=
    toHost_of_sent r (reachable.of_run crosses) sent
  have throughScript : intoScript (do toScript (← x)) w = (.value u, w₂) := by
    refine Act.recover_of_value ?_ _
    rw [Act.bind_of_value answers, crosses]
  have arrives : intoHost r _ w = (.value u, w₂) := Act.recover_of_value throughScript _
  have result : broughtBack r x w = (.value v', w₃) := by
    rw [broughtBack, Act.bind_of_value arrives, returns]
  rw [result]
  exact ⟨.value agrees, crossed.toScriptSide.trans crossed'.toScriptSide⟩

/-- The error is thrown into the script and taken out again. -/
theorem broughtBack_failure {x : HostAct Value} {e : Error} (fails : x w = (.failure e, w₁))
    (reachable : Reachable w₁) (notEngine : ∀ fault, e ≠ .engine fault)
    (few : w₁.engine.nextTag ≤ 2 ^ 53) :
    BroughtBack (.failure e, w₁) (broughtBack r x w) := by
  have throws : intoScript (do toScript (← x)) w =
      (.failure (.object ⟨w₁.engine.objects.size⟩), w₁.raised e) := by
    rw [intoScript, Act.recover_of_failure (Act.bind_of_failure fails _),
      throwIntoScript_eq notEngine]
  have tagged := (reachable.of_run (throwIntoScript_eq (α := Unit) notEngine w₁)).tagged
  have arrives := intoHost_of_carries (r := r) throws (w₁.carries_raised e) tagged few
  have result : broughtBack r x w = (.failure e, (w₁.raised e).recovered w₁.engine.nextTag) := by
    rw [broughtBack, Act.bind_of_failure arrives]
  rw [result]
  exact ⟨.failure e, scriptSide_recovered w₁ e⟩

theorem broughtBack_of_returns (r : Reentry) {x : HostAct Value} (reachable : Reachable w)
    (h : Returns (x w)) : BroughtBack (x w) (broughtBack r x w) := by
  have ends := reachable.run x
  rcases run : x w with ⟨v | e | _, w₁⟩
  all_goals rw [run] at h ends
  · cases h with
    | value h => exact broughtBack_value run ends h
  · cases h with
    | failure notEngine few => exact broughtBack_failure run ends notEngine few
  · have result : broughtBack r x w = (.exhausted, w₁) := by
      simp only [broughtBack, intoHost, intoScript, Act.run_bind, Act.recover, run]
    rw [result]
    exact ⟨.exhausted, .refl w₁⟩

/-! ### The body -/

variable {f : HostFunctionId}

/-- The object of a host function runs the function on what came of `this` and the arguments. -/
theorem callObject_of_stands {id : ObjectId} {u : ScriptValue} {us : List ScriptValue}
    {this : Value} {args : List Value} (stands : Stands w id (.function f))
    (returns : Act.mapAll (toHost r) (u :: us) w = (.value (this :: args), w₁)) :
    Script.callObject r id u us w = intoScript (do toScript (← r.runHost f this args)) w₁ := by
  obtain ⟨o, found, kind⟩ := stands.function
  obtain ⟨w', receiver, arguments⟩ := Act.of_mapAll_cons returns
  rw [Script.callObject_hostFunction found kind, invokeFromScript]
  refine Act.recover_congr_run ?_ _
  rw [Act.bind_of_value receiver, Act.bind_of_value arguments]

/-- Through its stand-in a host function runs once, in a world that changed on the script's side
only, on values that agree with those given. -/
theorem invokeThroughScript_runs {r r' : Reentry}
    (below : ∀ id this args, r.call id this args = Script.callObject r' id this args)
    (reachable : Reachable w) {this : Value} {args : List Value}
    (crosses : ∀ v ∈ this :: args, Crosses w v) :
    ∃ this' args' w₁, Crossed w w₁ ∧ this.Agrees this' ∧ List.Forall₂ Value.Agrees args args' ∧
      ((∀ v ∈ this :: args, v.isExact) → this' = this ∧ args' = args ∧
        ((∀ v ∈ Handle.value (.function f) :: this :: args, Settled w v) → w₁ = w)) ∧
      invokeThroughScript r f this args w = broughtBack r (r'.runHost f this' args') w₁ := by
  -- the function, the receiver and the arguments cross one after another
  obtain ⟨us, w', sends, crossed, sent⟩ :=
    mapAll_toScript (List.forall_mem_cons.2 ⟨.handle (.function f), crosses⟩)
  obtain _ | ⟨sentFunction, sents⟩ := sent
  obtain ⟨id, rfl, registered⟩ := sentFunction.registered
  have reachable' : Reachable w' := reachable.of_reaches crossed.reaches
  obtain ⟨passed, w₁, returns, crossed', agree⟩ := mapAll_toHost r' reachable' sents
  obtain _ | ⟨agrees, agree⟩ := agree
  refine ⟨_, _, w₁, crossed.trans crossed', agrees, agree, fun exact' => ?_, ?_⟩
  · have same := mapAll_toHost_of_exact r' reachable'.coherent sents exact'
    rw [returns] at same
    cases same
    refine ⟨rfl, rfl, fun settled => ?_⟩
    obtain ⟨_, stays⟩ := mapAll_toScript_of_settled settled
    rw [sends] at stays
    cases stays
    rfl
  · obtain _ | ⟨sentThis, sentArgs⟩ := sents
    have runs := callObject_of_stands (reachable'.stands registered) returns
    obtain ⟨w₂, sendsFunction, sends⟩ := Act.of_mapAll_cons sends
    obtain ⟨w₃, sendsThis, sendsArgs⟩ := Act.of_mapAll_cons sends
    have sendsFunction' : toScript (.function (.host f)) w = (.value (.object id), w₂) :=
      sendsFunction
    rw [invokeThroughScript, Act.bind_of_value sendsFunction']
    simp only
    rw [Act.bind_of_value sendsThis, Act.bind_of_value sendsArgs, broughtBack]
    refine Act.bind_congr_run (Act.recover_congr_run ?_ _) _
    rw [below]
    exact runs

end Bridge

/-! ### Counting arguments -/

namespace Host

variable {r : Reentry} {w : World} {f : HostFunctionId} {fn : HostFunction} {this : Value}
  {args : List Value} {e : Error}

theorem checkArity_ne_engine {passed : Nat} (out : checkArity fn passed = .error e)
    (fault : EngineFault) : e ≠ .engine fault := by
  unfold checkArity at out
  split at out
  · cases out
    exact nofun
  · split at out
    · split at out
      · cases out
        exact nofun
      · cases out
    · cases out

/-- A call with too few or too many arguments does not come to the body. -/
theorem runFunction_of_arity (found : w.heap.function? f = some fn)
    (out : checkArity fn args.length = .error e) :
    runFunction r f this args w = (.failure e, w) := by
  rw [runFunction, Act.read_bind, found]
  simp only
  rw [out]
  rfl

end Host

/-! ### Direct calls and calls through the script -/

end ScriptBridge
