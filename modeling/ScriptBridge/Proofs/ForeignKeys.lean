import ScriptBridge.Proofs.Answers
import ScriptBridge.Proofs.Conversions

/-!
Keys that name neither slot nor length of a sequence. What a script does to its stand-in under such
a key goes to the hidden target and its prototypes. No sequence changes, unless a function that is
called changes it.
-/

namespace ScriptBridge

/-- A key of a stand-in for a sequence that is left to its target. -/
structure PropertyKey.Foreign (key : PropertyKey) : Prop where
  noIndex : ∀ n, key ≠ .index n
  noLength : key ≠ .length

/-- Between two worlds the host sequences stayed as they were; others may be added. -/
def SequencesKept (w w' : World) : Prop :=
  ∀ i items, w.heap.sequences.get? i = some items → w'.heap.sequences.get? i = some items

theorem SequencesKept.of_heap_eq {w w' : World} (h : w'.heap = w.heap) : SequencesKept w w' := by
  intro i items found
  rw [h]
  exact found

/-- An object has a function to read a key through. -/
def HasGetter (w : World) (key : PropertyKey) (f : ObjectId) : Prop :=
  ∃ i o setter e c, w.engine.objects.get? i = some o ∧
    o.properties.get? key = some (.accessor (some f) setter e c)

instance {r : Reentry} : (Effect.besides r SequencesKept).Quiet := .besides .of_heap_eq

instance : AllowsCrossing SequencesKept where
  scriptSide kept := .of_heap_eq kept.heap
  newSequence w items := (w.heap.kept_pushSequence items).sequences

namespace Script

open Act

variable {r : Reentry} {key : PropertyKey} {id : ObjectId} {E : Effect}

/-! ### Ordinary objects -/

theorem assignOwn_within [E.Quiet] (foreign : key.Foreign) (o : Object) (v : ScriptValue) :
    (assignOwn r id o key v).Within E := by
  unfold assignOwn
  split
  · rw [if_neg foreign.noLength]
    split <;> exact .editObject _ _ _
  · split <;> exact .editObject _ _ _

theorem deleteOwn_within [E.Quiet] : (deleteOwn id key).Within E := by
  refine .bind (.read _) fun o => ?_
  split
  · exact .pure _
  split
  · exact .pure _
  · exact .ite (.bind (.editObject _ _ _) fun _ => .pure _) (.pure _)

theorem defineOwn_within [E.Quiet] (d : Definition) : (defineOwn id key d).Within E := by
  refine .bind (.read _) fun o => ?_
  split
  · exact .pure _
  · exact .ite (.pure _) (.bind (.editObject _ _ _) fun _ => .pure _)

/-! ### Stand-ins -/

theorem ownProperty?_within [E.Gentle] (id : ObjectId) (key : PropertyKey) :
    (ownProperty? id key).Within E := by
  have crosses (v : Value) : (Bridge.intoScript (Bridge.toScript v)).Within E :=
    Bridge.intoScript_within (Bridge.toScript_within v)
  refine .bind (.read _) fun o => ?_
  split
  · exact .pure _
  split
  · refine .bind (.read _) fun items => ?_
    split
    · split
      · exact .pure _
      · exact .bind (crosses _) fun _ => .pure _
    · refine .bind (.read _) fun own => ?_
      simp only
      split
      · exact .ite (.pure _) (.pure _)
      · exact .pure _
  · refine .bind (.read _) fun entries => ?_
    split
    · exact .bind (crosses _) fun _ => .pure _
    · exact .bind (.read _) fun _ => .pure _
  · exact .pure _

theorem hasFrom_within (key : PropertyKey) (steps : Nat) (id : Option ObjectId) :
    (hasFrom key steps id).Within E := by
  induction steps generalizing id with
  | zero =>
    cases id with
    | none => exact .pure _
    | some id => exact .giveUp
  | succ steps ih =>
    cases id with
    | none => exact .pure _
    | some id =>
      refine .bind (.read _) fun o => ?_
      split
      · exact .pure _
      split
      · split
        · exact .bind (.read _) fun _ => .pure _
        · exact ih _
      · exact .bind (.read _) fun _ => .ite (.pure _) (ih _)
      · exact .ite (.pure _) (ih _)

theorem has_within (id : ObjectId) (key : PropertyKey) : (has id key).Within E :=
  .bind (.read _) fun _ => hasFrom_within _ _ _

/-- Reading calls at most a getter, and that comes last. -/
theorem getFrom_foreign (foreign : key.Foreign) (receiver : ScriptValue) (steps : Nat)
    (id : Option ObjectId) (w : World) :
    (getFrom r receiver key steps id w).2.heap = w.heap ∨
      ∃ f, HasGetter w key f ∧ getFrom r receiver key steps id w = r.call f receiver [] w := by
  induction steps generalizing id with
  | zero => cases id <;> exact .inl rfl
  | succ steps ih =>
    cases id with
    | none => exact .inl rfl
    | some id =>
      cases found : w.engine.objects.get? id.index with
      | none =>
        rw [getFrom, object?, read_bind, found]
        exact .inl rfl
      | some o =>
        obtain ⟨s, target, methods, kind⟩ | ⟨p, target, kind⟩ | noTarget := o.kind.proxy_cases
        · cases named : methodOfKey? key with
          | some method =>
            rw [getFrom_method found kind named]
            exact .inl (boundMethod_within (E := .hostKept) _ _ w)
          | none =>
            rw [getFrom_sequence found kind foreign.noIndex foreign.noLength named]
            exact ih _
        · cases entry : (plainKey? key).bind (w.heap.plain p).get? with
          | some v =>
            rw [getFrom_entry found kind entry]
            exact .inl (Bridge.intoScript_within (E := .hostKept) (Bridge.toScript_within v) w)
          | none =>
            rw [getFrom_plain found kind entry]
            exact ih _
        · rw [getFrom_properties found noTarget]
          split
          · exact .inl rfl
          · rename_i setter e c accessor
            exact .inr ⟨_, ⟨_, o, setter, e, c, found, accessor⟩, rfl⟩
          · exact .inl rfl
          · exact ih _

theorem assignHosted?_within (foreign : key.Foreign) (o : Object) (v : ScriptValue) :
    (assignHosted? r o key v).Within (.besides r SequencesKept) := by
  unfold assignHosted?
  split
  · rw [if_neg foreign.noLength]
    split
    · exact absurd rfl (foreign.noIndex _)
    · exact .pure _
  · split
    · refine Bridge.intoScript_within (.bind ?_ fun v => .bind ?_ fun _ => .pure _)
      · exact Bridge.toHost_within v
      · exact fun w => .single fun _ _ found => found
    · exact .pure _
  · exact .pure _

theorem setFrom_within (foreign : key.Foreign) (receiver : ObjectId) (v : ScriptValue)
    (steps : Nat) (id : Option ObjectId) :
    (setFrom r receiver key v steps id).Within (.besides r SequencesKept) := by
  -- the end of the prototypes, and an object on them that has the key, both store at the receiver
  have stores (receiver : ObjectId) {rest : Option Object → ScriptAct (Option Refusal)}
      (found : ∀ o, rest (some o) = assignOwn r receiver o key v >>= fun _ => Pure.pure none)
      (missing : rest none = Pure.pure none) :
      (Act.object? receiver >>= rest).Within (.besides r SequencesKept) := by
    refine .bind (.read _) fun o => ?_
    cases o with
    | none =>
      rw [missing]
      exact .pure _
    | some o =>
      rw [found]
      exact .bind (assignOwn_within foreign _ _) fun _ => .pure _
  induction steps generalizing receiver id with
  | zero =>
    cases id with
    | none => exact stores receiver (fun _ => rfl) rfl
    | some id => exact .giveUp
  | succ steps ih =>
    cases id with
    | none => exact stores receiver (fun _ => rfl) rfl
    | some id =>
      refine .bind (.read _) fun o => ?_
      split
      · exact .pure _
      split
      -- a stand-in on the way passes the write on to its target, with one step less
      case h_1 | h_2 =>
        refine .bind (assignHosted?_within foreign _ v) fun target => ?_
        split
        · exact .pure _
        · refine .bind (ih _ _) fun refusal => ?_
          split <;> exact .pure _
      case h_3 =>
        split
        · exact stores receiver (fun _ => rfl) rfl
        · exact .pure _
        · exact .bind (.call _ _ _) fun _ => .pure _
        · exact .pure _
        · exact ih _ _

theorem set_within (foreign : key.Foreign) (id : ObjectId) (v : ScriptValue) :
    (set r id key v).Within (.besides r SequencesKept) := by
  refine .bind (.read _) fun bound => .bind (setFrom_within foreign _ _ _ _) fun refusal => ?_
  split
  · exact .pure _
  · exact throwNamed_within _ _ _ _
  · exact throwType_within _
  · exact throwType_within _

end Script

end ScriptBridge
