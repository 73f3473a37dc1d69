import ScriptBridge.Proofs.Effects
import ScriptBridge.Proofs.Sorting
import ScriptBridge.Sequence.Method

/-!
Methods that call back. While a method of a sequence runs its callback or reads its options it does
nothing else to the world; what it writes itself comes last and cannot fail. So a method that fails
leaves the world that its callbacks and option reads left.
-/

namespace ScriptBridge

/-- From one world to another by actions of one kind that all gave values. -/
inductive Ran (C : HostAct Value → Prop) : World → World → Prop where
  | refl (w : World) : Ran C w w
  | step {x : HostAct Value} {v : Value} {w w₁ w₂ : World} (h : C x) (here : x w = (.value v, w₁))
      (rest : Ran C w₁ w₂) : Ran C w w₂

/-- How a failure comes about that leaves nothing behind: after some actions of one kind, by a check
that does nothing or by another such action. -/
def FailsAfter (C : HostAct Value → Prop) (e : Error) (w w' : World) : Prop :=
  ∃ w₁, Ran C w w₁ ∧ (w' = w₁ ∨ ∃ x, C x ∧ x w₁ = (.failure e, w'))

namespace Ran

variable {C : HostAct Value → Prop}

theorem trans {a b c : World} (h : Ran C a b) (h' : Ran C b c) : Ran C a c := by
  induction h with
  | refl => exact h'
  | step hx here _ ih => exact .step hx here (ih h')

theorem failsAfter {e : Error} {a b c : World} (h : Ran C a b) (h' : FailsAfter C e b c) :
    FailsAfter C e a c := by
  obtain ⟨d, run, last⟩ := h'
  exact ⟨d, h.trans run, last⟩

/-- Actions that do nothing to the world do nothing one after another. -/
theorem eq_of_idle (idle : ∀ x, C x → ∀ w, (x w).2 = w) {w w' : World} (h : Ran C w w') :
    w' = w := by
  induction h with
  | refl => rfl
  | @step x v w w₁ _ hx here _ ih =>
    have same := idle x hx w
    rw [here] at same
    exact ih.trans same

end Ran

theorem FailsAfter.eq_of_idle {C : HostAct Value → Prop} (idle : ∀ x, C x → ∀ w, (x w).2 = w)
    {e : Error} {w w' : World} (h : FailsAfter C e w w') : w' = w := by
  obtain ⟨w₁, run, rfl | ⟨x, hx, last⟩⟩ := h
  · exact run.eq_of_idle idle
  · have same := idle x hx w₁
    rw [last] at same
    exact same.trans (run.eq_of_idle idle)

/-! ### Actions that only call back -/

namespace Act

variable {α β : Type} {C : HostAct Value → Prop}

/-- A failure leaves what the actions of one kind left that ran before it. -/
def FailsClean (C : HostAct Value → Prop) (x : HostAct α) : Prop :=
  ∀ w e w', x w = (.failure e, w') → FailsAfter C e w w'

/-- All that an action does is done by actions of one kind. -/
structure OnlyCalls (C : HostAct Value → Prop) (x : HostAct α) : Prop where
  value : ∀ w a w', x w = (.value a, w') → Ran C w w'
  failure : x.FailsClean C

namespace OnlyCalls

theorem pure (a : α) : OnlyCalls C (Pure.pure a) where
  value w _ _ h := by
    cases h
    exact .refl w
  failure _ _ _ h := by cases h

theorem read (f : World → α) : OnlyCalls C (Act.read f) where
  value w _ _ h := by
    cases h
    exact .refl w
  failure _ _ _ h := by cases h

theorem fail (e : Error) : OnlyCalls C (Act.fail e : HostAct α) where
  value _ _ _ h := by cases h
  failure w _ _ h := by
    cases h
    exact ⟨w, .refl w, .inl rfl⟩

theorem ofExcept (x : Except Error α) : OnlyCalls C (Act.ofExcept x) := by
  cases x with
  | ok a => exact .pure a
  | error e => exact .fail e

theorem call {x : HostAct Value} (h : C x) : OnlyCalls C x where
  value _ _ w' here := .step h here (.refl w')
  failure w _ _ here := ⟨w, .refl w, .inr ⟨x, h, here⟩⟩

end OnlyCalls

theorem FailsClean.bind {x : HostAct α} {f : α → HostAct β} (hx : OnlyCalls C x)
    (hf : ∀ a, (f a).FailsClean C) : (x >>= f).FailsClean C := by
  intro w e w' h
  cases of_bind_failure h with
  | inl h => exact hx.failure w e w' h
  | inr h =>
    obtain ⟨a, w₁, here, rest⟩ := h
    exact (hx.value w a w₁ here).failsAfter (hf a w₁ e w' rest)

namespace OnlyCalls

theorem bind {x : HostAct α} {f : α → HostAct β} (hx : OnlyCalls C x)
    (hf : ∀ a, OnlyCalls C (f a)) : OnlyCalls C (x >>= f) where
  value w b w' h := by
    obtain ⟨a, w₁, here, rest⟩ := of_bind_value h
    exact (hx.value w a w₁ here).trans ((hf a).value w₁ b w' rest)
  failure := .bind hx fun a => (hf a).failure

theorem ite {p : Prop} [Decidable p] {x y : HostAct α} (hx : OnlyCalls C x) (hy : OnlyCalls C y) :
    OnlyCalls C (if p then x else y) := by
  split
  · exact hx
  · exact hy

end OnlyCalls

theorem FailsClean.of_value {x : HostAct α} (h : ∀ w, ∃ a w', x w = (.value a, w')) :
    x.FailsClean C := by
  intro w e w' fails
  obtain ⟨a, w₁, gives⟩ := h w
  rw [gives] at fails
  cases fails

theorem FailsClean.thenPure {x : HostAct α} (hx : x.FailsClean C) (f : α → β) :
    (x >>= fun a => Pure.pure (f a)).FailsClean C := by
  intro w e w' h
  cases of_bind_failure h with
  | inl h => exact hx w e w' h
  | inr h =>
    obtain ⟨a, w₁, _, rest⟩ := h
    cases rest

theorem FailsClean.setElements (s : SequenceId) (items : List Value) :
    (Act.setElements s items).FailsClean C :=
  .of_value fun _ => ⟨(), _, rfl⟩

theorem FailsClean.fresh (items : List Value) : (Sequence.fresh items).FailsClean C :=
  .of_value fun _ => ⟨_, _, rfl⟩

/-! ### Actions that only call back and give something -/

/-- All that an action does is done by actions of one kind, of which one is to blame if it does not
give a value; the values it gives have some property. -/
structure Makes (C : HostAct Value → Prop) (P : α → Prop) (x : HostAct α) : Prop where
  value : ∀ w a w', x w = (.value a, w') → P a ∧ Ran C w w'
  failure : ∀ w e w', x w = (.failure e, w') →
    ∃ w₁ call, Ran C w w₁ ∧ C call ∧ call w₁ = (.failure e, w')
  exhausted : ∀ w w', x w = (.exhausted, w') →
    ∃ w₁ call, Ran C w w₁ ∧ C call ∧ call w₁ = (.exhausted, w')

namespace Makes

variable {P : α → Prop} {Q : β → Prop}

theorem pure {a : α} (h : P a) : Makes C P (Pure.pure a) where
  value w _ _ here := by
    cases here
    exact ⟨h, .refl w⟩
  failure _ _ _ here := by cases here
  exhausted _ _ here := by cases here

theorem read {f : World → α} (h : ∀ w, P (f w)) : Makes C P (Act.read f) where
  value w _ _ here := by
    cases here
    exact ⟨h w, .refl w⟩
  failure _ _ _ here := by cases here
  exhausted _ _ here := by cases here

theorem call {x : HostAct Value} (h : C x) : Makes C (fun _ => True) x where
  value _ _ w' here := ⟨trivial, .step h here (.refl w')⟩
  failure w _ _ here := ⟨w, x, .refl w, h, here⟩
  exhausted w _ here := ⟨w, x, .refl w, h, here⟩

theorem bind {x : HostAct α} {f : α → HostAct β} (hx : Makes C P x)
    (hf : ∀ a, P a → Makes C Q (f a)) : Makes C Q (x >>= f) where
  value w b w' h := by
    obtain ⟨a, w₁, here, rest⟩ := of_bind_value h
    obtain ⟨holds, ran⟩ := hx.value w a w₁ here
    obtain ⟨holds', ran'⟩ := (hf a holds).value w₁ b w' rest
    exact ⟨holds', ran.trans ran'⟩
  failure w e w' h := by
    cases of_bind_failure h with
    | inl here => exact hx.failure w e w' here
    | inr h =>
      obtain ⟨a, w₁, here, rest⟩ := h
      obtain ⟨holds, ran⟩ := hx.value w a w₁ here
      obtain ⟨w₂, call, ran', made, fails⟩ := (hf a holds).failure w₁ e w' rest
      exact ⟨w₂, call, ran.trans ran', made, fails⟩
  exhausted w w' h := by
    cases of_bind_exhausted h with
    | inl here => exact hx.exhausted w w' here
    | inr h =>
      obtain ⟨a, w₁, here, rest⟩ := h
      obtain ⟨holds, ran⟩ := hx.value w a w₁ here
      obtain ⟨w₂, call, ran', made, stuck⟩ := (hf a holds).exhausted w₁ w' rest
      exact ⟨w₂, call, ran.trans ran', made, stuck⟩

theorem onlyCalls {x : HostAct α} (h : Makes C P x) : OnlyCalls C x where
  value w a w' here := (h.value w a w' here).2
  failure w e w' here := by
    obtain ⟨w₁, call, ran, made, fails⟩ := h.failure w e w' here
    exact ⟨w₁, ran, .inr ⟨call, made, fails⟩⟩

end Makes

def making (C : HostAct Value → Prop) : Postcondition HostAct where
  holds P x := Makes C P x
  pure := Makes.pure
  bind := Makes.bind

end Act

/-! ### Walks -/

namespace Sequence

open Act

variable {α β : Type} {C : HostAct Value → Prop} {at? : Nat → HostAct (Option α)}

theorem onlyCalls_walkFrom (hat : ∀ i, OnlyCalls C (at? i))
    {step : β → Nat → α → HostAct (β × Bool)} (hs : ∀ b i x, OnlyCalls C (step b i x))
    (state : β) (index left : Nat) : OnlyCalls C (walkFrom at? step state index left) := by
  induction left generalizing state index with
  | zero => exact .pure _
  | succ left ih =>
    refine .bind (hat index) fun x => ?_
    cases x with
    | none => exact .pure _
    | some x => exact .bind (hs _ _ _) fun _ => .ite (ih _ _) (.pure _)

theorem onlyCalls_findFrom (hat : ∀ i, OnlyCalls C (at? i)) {visit : α → Nat → HostAct Bool}
    (hv : ∀ x i, OnlyCalls C (visit x i)) (default : α) (index left : Nat) :
    OnlyCalls C (findFrom at? default visit index left) := by
  induction left generalizing index with
  | zero => exact .pure _
  | succ left ih =>
    exact .bind (hat index) fun _ => .bind (hv _ _) fun _ => .ite (.pure _) (ih _)

theorem onlyCalls_foldOver (hat : ∀ i, OnlyCalls C (at? i)) {visit : β → α → Nat → HostAct β}
    (hv : ∀ b x i, OnlyCalls C (visit b x i)) (acc : β) (positions : List Nat) :
    OnlyCalls C (foldOver at? visit acc positions) := by
  induction positions generalizing acc with
  | nil => exact .pure _
  | cons i rest ih =>
    refine .bind (hat i) fun x => ?_
    cases x with
    | none => exact ih _
    | some x => exact .bind (hv _ _ _) fun _ => ih _

theorem onlyCalls_fold (hat : ∀ i, OnlyCalls C (at? i)) {visit : α → α → Nat → HostAct α}
    (hv : ∀ b x i, OnlyCalls C (visit b x i)) (start : Option α) (positions : List Nat) :
    OnlyCalls C (fold at? visit start positions) := by
  unfold fold
  split
  · exact .bind (onlyCalls_foldOver hat hv _ _) fun _ => .pure _
  · split
    · exact .pure _
    · refine .bind (hat _) fun x => ?_
      cases x with
      | none => exact .pure _
      | some x => exact .bind (onlyCalls_foldOver hat hv _ _) fun _ => .pure _

/-! ### Methods -/

/-- The methods that call a function they are given. -/
def callsBack : SequenceMethod → Bool
  | .sort | .forEach | .map | .filter | .some | .every | .find | .findIndex | .flatMap | .reduce
  | .reduceRight => true
  | _ => false

/-- The methods that write the sequence they are called on. -/
def changes : SequenceMethod → Bool
  | .push | .pop | .shift | .unshift | .splice | .fill | .copyWithin | .reverse | .sort => true
  | _ => false

/-- The methods that make a sequence of their own. -/
def copies : SequenceMethod → Bool
  | .slice | .concat | .splice | .filter | .map | .flat | .flatMap => true
  | _ => false

/-- What a method may do besides its own work: call the function it was given, or read formatting
options. -/
inductive CallsBack (r : Reentry) (method : SequenceMethod) (args : List Value) :
    HostAct Value → Prop where
  | callback (f : Callback) (this : Value) (passed : List Value) (takes : callsBack method)
      (given : args.head? = some (.function f)) :
    CallsBack r method args (Bridge.invoke r f this passed)
  | option (key : String) (localized : method = .toLocaleString) :
    CallsBack r method args (Bridge.property r (arg args 1) key)

section Arguments

variable {method : SequenceMethod} {args : List Value}

theorem head_of_callbackArg {f : Callback} (h : callbackArg method args = .ok f) :
    args.head? = some (.function f) := by
  unfold callbackArg at h
  split at h
  · cases h
  · cases h
    rfl
  · cases h

theorem head_of_iterationArgs {f : Callback} {this : Value}
    (h : iterationArgs method args = .ok (f, this)) : args.head? = some (.function f) := by
  unfold iterationArgs at h
  cases hf : callbackArg method args with
  | error e =>
    rw [hf] at h
    cases h
  | ok g =>
    rw [hf] at h
    simp only [Bind.bind, Except.bind] at h
    split at h
    · cases h
    · cases h
      exact head_of_callbackArg hf

theorem head_of_comparatorArg {f : Callback} (h : comparatorArg args = .ok (some f)) :
    args.head? = some (.function f) := by
  unfold comparatorArg at h
  split at h
  · cases h
  · cases h
  · cases h
    rfl
  · cases h

end Arguments

/-- What follows on a check of the arguments only has to be looked at where they pass. -/
theorem failsClean_of_check {x : Except Error α} {f : α → HostAct β}
    (h : ∀ a, x = .ok a → (f a).FailsClean C) : (Act.ofExcept x >>= f).FailsClean C := by
  cases x with
  | error e => exact (OnlyCalls.fail e).failure
  | ok a => exact h a rfl

theorem onlyCalls_of_check {x : Except Error α} {f : α → HostAct β}
    (h : ∀ a, x = .ok a → OnlyCalls C (f a)) : OnlyCalls C (Act.ofExcept x >>= f) := by
  cases x with
  | error e => exact .fail e
  | ok a => exact h a rfl

section Methods

variable {r : Reentry} {s : SequenceId} {method : SequenceMethod} {args : List Value} {f : Callback}

theorem onlyCalls_slot (i : Nat) : OnlyCalls C (slot? s i) := .bind (.read _) fun _ => .pure _

theorem onlyCalls_invoke (takes : callsBack method) (given : args.head? = some (.function f))
    (this : Value) (passed : List Value) :
    OnlyCalls (CallsBack r method args) (Bridge.invoke r f this passed) :=
  .call (.callback f this passed takes given)

theorem onlyCalls_visitTruthy (takes : callsBack method)
    (given : args.head? = some (.function f)) (this x : Value) (i : Nat) :
    OnlyCalls (CallsBack r method args) (visitTruthy r s f this x i) :=
  .bind (onlyCalls_invoke takes given _ _) fun _ => .pure _

theorem onlyCalls_visitList (takes : callsBack method)
    (given : args.head? = some (.function f)) (this x : Value) (i : Nat) :
    OnlyCalls (CallsBack r method args) (visitList r s f this x i) := by
  refine .bind (onlyCalls_invoke takes given _ _) fun v => ?_
  split
  · exact .read _
  · exact .pure _

theorem failsClean_check_of_iterationArgs {β : Type} {rest : Callback × Value → HostAct β}
    (h : ∀ f this, args.head? = some (.function f) →
      (rest (f, this)).FailsClean (CallsBack r method args)) :
    (Act.ofExcept (iterationArgs method args) >>= rest).FailsClean (CallsBack r method args) :=
  failsClean_of_check fun _ passed => h _ _ (head_of_iterationArgs passed)

theorem onlyCalls_check_of_iterationArgs {β : Type} {rest : Callback × Value → HostAct β}
    (h : ∀ f this, args.head? = some (.function f) →
      OnlyCalls (CallsBack r method args) (rest (f, this))) :
    OnlyCalls (CallsBack r method args) (Act.ofExcept (iterationArgs method args) >>= rest) :=
  onlyCalls_of_check fun _ passed => h _ _ (head_of_iterationArgs passed)

theorem onlyCalls_reduceOver (takes : callsBack method) (positions : Nat → List Nat) :
    OnlyCalls (CallsBack r method args) (reduceOver r s method args positions) := by
  refine onlyCalls_of_check fun f passed => .bind (.read _) fun items => ?_
  refine .bind (onlyCalls_fold onlyCalls_slot (fun _ _ _ => ?_) _ _) fun v => ?_
  · exact onlyCalls_invoke takes (head_of_callbackArg passed) _ _
  · split
    · exact .pure _
    · exact .fail _

/-- A comparator is called for elements of the list, neither of them undefined. -/
theorem arranged_makes {comparator : Option Callback} {items : List Value}
    (calls : ∀ f, comparator = some f → ∀ a ∈ items, ∀ b ∈ items, a.isUndefined = false →
      b.isUndefined = false → C (Bridge.invoke r f .undefined [a, b])) :
    (arranged r comparator items).Makes C (Arranges items) := by
  cases comparator with
  | none => exact .read fun w => sortByText_arranges _ items
  | some f =>
    refine sortDefined_arranges (L := Act.making C) fun a ma b mb da db => ?_
    have compared := Makes.call (calls f rfl a ma b mb da db)
    refine .bind (P := fun _ => True) ?_ fun _ _ => .pure trivial
    exact .bind compared fun _ _ => .read fun _ => trivial

theorem onlyCalls_arranged {comparator : Option Callback}
    (given : ∀ f, comparator = some f → args.head? = some (.function f)) (items : List Value) :
    OnlyCalls (CallsBack r .sort args) (arranged r comparator items) := by
  have makes : (arranged r comparator items).Makes (CallsBack r .sort args) (Arranges items) :=
    arranged_makes fun f here _ _ _ _ _ _ => .callback f _ _ rfl (given f here)
  exact makes.onlyCalls

theorem failsClean_sortInPlace {comparator : Option Callback}
    (given : ∀ f, comparator = some f → args.head? = some (.function f)) :
    (sortInPlace r s comparator).FailsClean (CallsBack r .sort args) :=
  .bind (.read _) fun _ => .bind (onlyCalls_arranged given _) fun _ => .bind (.read _) fun _ =>
    .setElements _ _

theorem onlyCalls_localeText (locale : Value) :
    OnlyCalls (CallsBack r .toLocaleString args) (localeText r s locale (arg args 1)) := by
  have readsOption {α : Type} (key : String) (read : Heap → Value → α) :
      OnlyCalls (CallsBack r .toLocaleString args) (option r (arg args 1) key read) := by
    refine .bind (.call (.option key rfl)) fun v => ?_
    split
    · exact .pure _
    · exact .read _
  refine .bind (.read _) fun _ => .bind ?_ fun options => ?_
  · refine .ite (.pure _) ?_
    exact .bind (readsOption _ _) fun _ => .bind (readsOption _ _) fun _ =>
      .bind (readsOption _ _) fun _ => .bind (readsOption _ _) fun _ =>
      .bind (readsOption _ _) fun _ => .bind (readsOption _ _) fun _ => .pure _
  · split
    · exact .fail _
    · exact .read _

/-- Methods that neither write nor make a sequence do nothing but call back. -/
theorem onlyCalls_callValue (r : Reentry) (s : SequenceId) {method : SequenceMethod}
    (args : List Value) (keeps : changes method = false) (makes : copies method = false) :
    OnlyCalls (CallsBack r method args) (callValue r s method args) := by
  unfold callValue
  cases method with
  | join => exact .bind (.read _) fun _ => .read _
  | toString => exact .read _
  | toLocaleString => exact .bind (onlyCalls_localeText _) fun _ => .pure _
  | indexOf | lastIndexOf => exact .bind (.read _) fun _ => .bind (.read _) fun _ => .pure _
  | includes =>
    simp only
    split
    · exact .fail _
    · exact .bind (.read _) fun _ => .bind (.read _) fun _ => .pure _
  | forEach =>
    refine onlyCalls_check_of_iterationArgs fun f this given => .bind (.read _) fun _ => ?_
    refine .bind (onlyCalls_walkFrom onlyCalls_slot (fun _ _ _ => ?_) _ _ _) fun _ => .pure _
    exact .bind (.bind (onlyCalls_invoke rfl given _ _) fun _ => .pure _) fun _ => .pure _
  | some | every =>
    refine onlyCalls_check_of_iterationArgs fun f this given => .bind (.read _) fun _ => ?_
    refine .bind (onlyCalls_walkFrom onlyCalls_slot (fun _ _ _ => ?_) _ _ _) fun _ => .pure _
    exact .bind (onlyCalls_visitTruthy rfl given _ _ _) fun _ => .pure _
  | find | findIndex =>
    refine onlyCalls_check_of_iterationArgs fun f this given => .bind (.read _) fun _ => ?_
    refine .bind (onlyCalls_findFrom onlyCalls_slot (fun _ _ => ?_) _ _ _) fun _ => .pure _
    exact onlyCalls_visitTruthy rfl given _ _ _
  | reduce => exact onlyCalls_reduceOver rfl _
  | reduceRight => exact onlyCalls_reduceOver rfl _
  | entries | keys | values | valueOf => exact .pure _
  | push | pop | shift | unshift | fill | copyWithin | reverse | sort | splice => cases keeps
  | slice | concat | filter | map | flat | flatMap => cases makes

theorem failsClean_callValue (r : Reentry) (s : SequenceId) (method : SequenceMethod)
    (args : List Value) : (callValue r s method args).FailsClean (CallsBack r method args) := by
  -- whatever a method writes it writes last, and writing does not fail
  unfold callValue
  cases method with
  | push | pop | shift | unshift =>
    exact .bind (.read _) fun _ => .thenPure (.setElements _ _) _
  | concat => exact .bind (.read _) fun _ => .bind (.read _) fun _ => .fresh _
  | slice =>
    exact .bind (.read _) fun _ => .bind (.read _) fun _ => .bind (.read _) fun _ => .fresh _
  | splice =>
    refine .bind (.read _) fun start => ?_
    cases start with
    | none => exact .fresh _
    | some start =>
      exact .bind (.read _) fun _ => .bind (.read _) fun _ => .of_value fun _ => ⟨_, _, rfl⟩
  | fill =>
    exact .bind (.read _) fun _ => .bind (.read _) fun _ => .bind (.read _) fun _ =>
      .thenPure (.setElements _ _) _
  | copyWithin =>
    exact .bind (.read _) fun _ => .bind (.read _) fun _ => .bind (.read _) fun _ =>
      .bind (.read _) fun _ => .thenPure (.setElements _ _) _
  | reverse => exact .bind (.read _) fun _ => .thenPure (.setElements _ _) _
  | sort =>
    refine failsClean_of_check fun comparator passed => .thenPure (failsClean_sortInPlace ?_) _
    rintro f rfl
    exact head_of_comparatorArg passed
  | map =>
    refine failsClean_check_of_iterationArgs fun f this given => .bind (.read _) fun _ => ?_
    refine .bind (onlyCalls_walkFrom onlyCalls_slot (fun _ _ _ => ?_) _ _ _) fun _ => .fresh _
    exact .bind (onlyCalls_invoke rfl given _ _) fun _ => .pure _
  | filter =>
    refine failsClean_check_of_iterationArgs fun f this given => .bind (.read _) fun _ => ?_
    refine .bind (onlyCalls_walkFrom onlyCalls_slot (fun _ _ _ => ?_) _ _ _) fun _ => .fresh _
    exact .bind (onlyCalls_visitTruthy rfl given _ _ _) fun _ => .pure _
  | flat =>
    refine .bind (.bind (.read _) fun _ => ?_) fun _ => .bind (.read _) fun _ => .fresh _
    split
    · exact .pure _
    · exact .pure _
  | flatMap =>
    refine failsClean_check_of_iterationArgs fun f this given => .bind (.read _) fun _ => ?_
    refine .bind (onlyCalls_walkFrom onlyCalls_slot (fun _ _ _ => ?_) _ _ _) fun _ => .fresh _
    exact .bind (onlyCalls_visitList rfl given _ _ _) fun _ => .pure _
  | _ => exact (onlyCalls_callValue r s args rfl rfl).failure

end Methods

end Sequence

end ScriptBridge
