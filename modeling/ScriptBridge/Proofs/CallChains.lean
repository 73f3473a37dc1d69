import ScriptBridge.Proofs.Recovery

/-!
The calls of the program as links of a chain: the host calls scripts through references and through
the methods of a sequence, the script calls host functions and methods. An error that is caught
nowhere reaches the outermost caller as it was raised.
-/

namespace ScriptBridge

variable {r : Reentry} {w w₁ w₂ w₃ : World} {e : Error} {v : ScriptValue} {tag : Nat}

/-! ### The host calls -/

namespace HostRaises

theorem invoke {ref : ScriptRef} {name : String} {this : Value} {args : List Value}
    {receiver : ScriptValue} {passed : List ScriptValue} (live : ref.runtime = w.runtime)
    (hReceiver : Bridge.toScript this w = (.value receiver, w₁))
    (hArgs : Act.mapAll Bridge.toScript args w₁ = (.value passed, w₂))
    (h : ScriptRaises (r.call ref.object receiver passed) w₂ v tag e w₃) :
    HostRaises (Bridge.invoke r (.script ref name) this args) w e (w₃.recovered tag) :=
  .next (Bridge.restore_of_live live) (.next hReceiver (.next hArgs (.first (.script h))))

theorem runFunction {id : HostFunctionId} {f : HostFunction} {this : Value} {args : List Value}
    (found : w.heap.function? id = some f) (counted : Host.checkArity f args.length = .ok ())
    (h : HostRaises (Host.runBody r f this args) w e w₁) :
    HostRaises (Host.runFunction r id this args) w e w₁ := by
  have looked : (Act.read (·.heap.function? id) : HostAct _) w = (.value (some f), w) := by
    rw [← found]
    rfl
  have passes : Act.ofExcept (Host.checkArity f args.length) w = (.value (), w) := by
    rw [counted]
    rfl
  exact .next looked (.next passes h)

section

variable {α β : Type} {at? : Nat → HostAct (Option α)} {step : β → Nat → α → HostAct (β × Bool)}
  {state : β} {index left : Nat}

/-- A walk along a sequence that comes to an element where the callback fails. -/
theorem walkFrom {x : α} (more : 0 < left) (here : at? index w = (.value (some x), w₁))
    (h : HostRaises (step state index x) w₁ e w₂) :
    HostRaises (Sequence.walkFrom at? step state index left) w e w₂ := by
  obtain ⟨left, rfl⟩ := Nat.exists_eq_add_of_lt more
  rw [Nat.zero_add]
  exact .next here (.first h)

/-- A walk along a sequence that fails after the callback was done with an element. -/
theorem walkFrom_next {x : α} {next : β} (more : 0 < left)
    (here : at? index w = (.value (some x), w₁))
    (done : step state index x w₁ = (.value (next, true), w₂))
    (h : HostRaises (Sequence.walkFrom at? step next (index + 1) (left - 1)) w₂ e w₃) :
    HostRaises (Sequence.walkFrom at? step state index left) w e w₃ := by
  obtain ⟨left, rfl⟩ := Nat.exists_eq_add_of_lt more
  rw [Nat.zero_add] at h ⊢
  exact .next here (.next done h)

end

end HostRaises

/-! ### The script calls -/

namespace ScriptRaises

theorem invokeFromScript {f : HostFunctionId} {this : ScriptValue} {args : List ScriptValue}
    {receiver : Value} {passed : List Value}
    (hReceiver : Bridge.toHost r this w = (.value receiver, w₁))
    (hArgs : Act.mapAll (Bridge.toHost r) args w₁ = (.value passed, w₂))
    (h : HostRaises (r.runHost f receiver passed) w₂ e w₃)
    (notEngine : ∀ fault, e ≠ .engine fault) :
    ScriptRaises (Bridge.invokeFromScript r f this args) w (.object ⟨w₃.engine.objects.size⟩)
      w₃.engine.nextTag e (w₃.raised e) :=
  .host (.next hReceiver (.next hArgs (.first h))) notEngine

theorem callSequenceMethod {s : SequenceId} {method : SequenceMethod} {args : List ScriptValue}
    {passed : List Value} (hArgs : Act.mapAll (Bridge.toHost r) args w = (.value passed, w₁))
    (h : HostRaises (Sequence.call r s method passed) w₁ e w₂)
    (notEngine : ∀ fault, e ≠ .engine fault) :
    ScriptRaises (Script.callSequenceMethod r s method args) w (.object ⟨w₂.engine.objects.size⟩)
      w₂.engine.nextTag e (w₂.raised e) :=
  .host (.next hArgs (.first h)) notEngine

theorem callValue {id : ObjectId} {this : ScriptValue} {args : List ScriptValue}
    (callable : Script.callable? (.object id) w = (.value (some id), w))
    (h : ScriptRaises (r.call id this args) w v tag e w₁) :
    ScriptRaises (Script.callValue r (.object id) this args) w v tag e w₁ :=
  .next callable h

end ScriptRaises

/-! ### Recovery -/

/-- A host method calls a script function twice, which calls a host function that is well and then
one whose own callback fails. -/
def nestedCalls : HostExpr :=
  .callMethod
    (.sequence [.function "well" (.exactly 0) .null,
      .function "outer" (.exactly 0) (.callMethod (.sequence [.null]) "map"
        [.function "inner" (.atLeast 0) (.fail .host "boom")])]) "forEach"
    [.script (.expression (.function "each" (.callFunction (.argument 0) [])))]

theorem nestedCalls_raises : ∃ w', HostRaises (Host.eval Session.top .top nestedCalls)
    (World.entered {}) (.host "inner" "boom") w' ∧ w'.engine.nextTag ≤ 2 ^ 53 := by
  unfold nestedCalls
  apply Exists.intro
  constructor
  · -- the operands of `forEach`, its checks, and its elements
    apply HostRaises.next rfl
    apply HostRaises.next rfl
    apply HostRaises.next rfl
    apply HostRaises.first
    apply HostRaises.first
    apply HostRaises.next rfl
    apply HostRaises.next rfl
    apply HostRaises.first
    apply HostRaises.walkFrom_next (by decide) rfl rfl
    apply HostRaises.walkFrom (by decide) rfl
    apply HostRaises.first
    apply HostRaises.first
    apply HostRaises.invoke rfl rfl rfl
    -- the script function calls its argument
    apply ScriptRaises.next rfl
    apply ScriptRaises.next rfl
    apply ScriptRaises.next rfl
    apply ScriptRaises.callValue rfl
    apply ScriptRaises.next rfl
    apply ScriptRaises.invokeFromScript rfl rfl
    · -- the outer host function calls `map`, which calls the inner one
      apply HostRaises.runFunction rfl rfl
      apply HostRaises.next rfl
      apply HostRaises.next rfl
      apply HostRaises.next rfl
      apply HostRaises.first
      apply HostRaises.first
      apply HostRaises.next rfl
      apply HostRaises.next rfl
      apply HostRaises.first
      apply HostRaises.walkFrom (by decide) rfl
      apply HostRaises.first
      apply HostRaises.runFunction rfl rfl
      apply HostRaises.raised
    · intro fault
      exact nofun
  · decide

namespace Bridge

variable {r : Reentry} {w : World} {e first : Error}

/-- The error object of a tag that is not exact as a number gives back the error of the tag it is
rounded to. -/
theorem intoHost_of_rounded (notEngine : ∀ fault, e ≠ .engine fault) {tag : Nat}
    (rounded : (Double.ofNat w.engine.nextTag).toWord 64 = tag) (t : w.engine.Tagged)
    (kept : (tag, first) ∈ w.engine.stash) :
    (intoHost r (intoScript (Act.fail e : HostAct Unit)) w).1 = .failure first := by
  have throws : intoScript (Act.fail e : HostAct Unit) w =
      (.failure (.object ⟨w.engine.objects.size⟩), w.raised e) := throwIntoScript_eq notEngine w
  obtain ⟨id, o, same, ordinary, tagged⟩ := (w.carries_raised e).object
  have read := Script.get_of_own (r := r) ordinary tagged
  have taken : (Act.takeError tag : HostAct _) (w.raised e) =
      (.value (some first), (w.raised e).recovered tag) :=
    takeError_of_kept (t.raise e _) (List.mem_cons_of_mem _ kept)
  have stashed : stashedError? r id (w.raised e) =
      (.value (some first), (w.raised e).recovered tag) := by
    unfold stashedError?
    rw [Act.bind_of_value (Act.attempt_of_value read)]
    simp only
    rw [rounded, taken]
  unfold intoHost
  rw [Act.recover_of_failure throws, same]
  rw [Act.bind_of_value (Act.bind_of_value stashed _)]
  rfl

end Bridge

/-- Any number of host errors can be thrown within one entry. -/
theorem exists_nextTag (e : Error) (n : Nat) :
    ∃ w, Reachable w ∧ 0 < w.engine.depth ∧ w.engine.nextTag = n + 1 ∧
      (0 < n → (n, e) ∈ w.engine.stash) := by
  induction n with
  | zero => exact ⟨World.entered {}, Reachable.initial.entered, Nat.one_pos, rfl, nofun⟩
  | succ n ih =>
    obtain ⟨w, reachable, inside, tags, _⟩ := ih
    refine ⟨w.raised e, ?_, inside, congrArg (· + 1) tags, fun _ => ?_⟩
    · exact reachable.run (Act.raise e (Bridge.errorObject e.scriptName e.message e.stack) rfl :
        HostAct ObjectId)
    · rw [← tags]
      exact List.mem_cons_self

end ScriptBridge
