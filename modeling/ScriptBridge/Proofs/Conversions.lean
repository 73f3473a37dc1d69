import ScriptBridge.Proofs.Effects

/-!
What conversions do to host containers: nothing but what the script functions they call do.
-/

namespace ScriptBridge

open Act

variable {α : Type} {r : Reentry} {E : Effect} {K : World → World → Prop}

/-! ### Into the script -/

namespace Bridge

theorem standIn_within [E.Gentle] (handle : Handle) : (standIn handle).Within E := by
  refine .bind (.read _) fun found => ?_
  split
  · exact .pure _
  · refine .bind ?_ fun _ => .pure _
    cases handle with
    | sequence s => exact .bind (.newObject _ _) fun _ => .expose _ _ _ _
    | plain p => exact .bind (.newObject _ _) fun _ => .expose _ _ _ _
    | function f => exact .bind (.read _) fun _ => .expose _ _ _ _

theorem restore_within (what : String) (ref : ScriptRef) :
    (restore what ref).Within E :=
  .bind (.read _) fun _ => .ite (.pure _) (.bind (.read _) fun _ => .ite (.fail _) (.fail _))

theorem toScript_within [E.Gentle] (v : Value) : (toScript v).Within E := by
  cases v with
  | undefined | null | bool | number | string => exact .pure _
  | sequence | plain => exact standIn_within _
  | function f =>
    cases f with
    | host id => exact standIn_within _
    | script ref name => exact .bind (restore_within _ ref) fun _ => .pure _
  | date | error => exact .bind (.newObject _ _) fun _ => .pure _
  | object ref => exact .bind (restore_within _ ref) fun _ => .pure _

end Bridge

namespace Act

theorem throwNew_within [E.Gentle] (className message : String) :
    (throwNew className message : ScriptAct α).Within E :=
  .bind (.newObject _ rfl) fun _ => .fail _

theorem throwType_within [E.Gentle] (message : String) :
    (throwType message : ScriptAct α).Within E :=
  throwNew_within _ _

theorem throwNamed_within [E.Gentle] (className before : String) (name : Utf16) (after : String) :
    (throwNamed className before name after : ScriptAct α).Within E :=
  .bind (.newObject _ rfl) fun _ => .fail _

end Act

namespace Bridge

theorem throwIntoScript_within [E.Gentle] (e : Error) :
    (throwIntoScript e : ScriptAct α).Within E := by
  cases e with
  | engine fault => exact throwType_within _
  | argument | conversion | logic | host | script | read =>
    exact .bind (.raise _ _ _) fun _ => .fail _

theorem intoScript_within [E.Gentle] {x : HostAct α} (hx : x.Within E) : (intoScript x).Within E :=
  .recover hx throwIntoScript_within

end Bridge

variable [AllowsCrossing K]

/-! ### Reading properties -/

namespace Script

theorem boundMethod_within [E.Gentle] (proxy : ObjectId) (method : SequenceMethod) :
    (boundMethod proxy method).Within E := by
  refine .bind (.read _) fun o => ?_
  split
  · split
    · exact .pure _
    · exact .bind (.addMethod _ _ _ _ _) fun _ => .pure _
  · exact .pure _

theorem getFrom_within (receiver : ScriptValue) (key : PropertyKey) (steps : Nat)
    (id : Option ObjectId) : (getFrom r receiver key steps id).Within (.besides r K) := by
  induction steps generalizing id with
  | zero =>
    cases id with
    | none => exact .pure _
    | some id => exact .giveUp
  | succ steps ih =>
    cases id with
    | none => exact .pure _
    | some id =>
      refine .bind (.read _) fun o => ?_
      split
      · exact .pure _
      split
      · -- a stand-in for a sequence
        split
        · exact .bind (.read _) fun _ => .pure _
        split
        · exact .bind (.read _) fun _ => Bridge.intoScript_within (Bridge.toScript_within _)
        · exact boundMethod_within _ _
        · exact ih _
      · -- a stand-in for a plain object
        refine .bind (.read _) fun entries => ?_
        split
        · exact Bridge.intoScript_within (Bridge.toScript_within _)
        · exact ih _
      · split
        · exact .pure _
        · exact .call _ _ _
        · exact .pure _
        · exact ih _

theorem get_within (id : ObjectId) (key : PropertyKey) : (get r id key).Within (.besides r K) :=
  .bind (.read _) fun _ => getFrom_within _ _ _ _

theorem prototypeOf_within {ε : Type} (id : ObjectId) :
    (prototypeOf id : Act ε (Option ObjectId)).Within E := by
  refine .bind (.read _) fun o => ?_
  split
  · exact .pure _
  split
  · exact .bind (.read _) fun _ => .pure _
  · exact .bind (.read _) fun _ => .pure _
  · exact .pure _

theorem inheritsWithin_within {ε : Type} (prototype : ObjectId) (steps : Nat) (id : ObjectId) :
    (inheritsWithin prototype steps id : Act ε Bool).Within E := by
  induction steps generalizing id with
  | zero => exact .pure _
  | succ steps ih =>
    refine .bind (prototypeOf_within id) fun p => ?_
    split
    · exact .pure _
    · exact .ite (.pure _) (ih _)

theorem inherits_within {ε : Type} (id prototype : ObjectId) :
    (inherits id prototype : Act ε Bool).Within E :=
  .bind (.read _) fun _ => inheritsWithin_within _ _ _

end Script

/-! ### Into the host -/

namespace Bridge

theorem engineTypeName_within {ε : Type} (v : ScriptValue) :
    (engineTypeName v : Act ε String).Within E := by
  cases v with
  | object id => exact .bind (.read _) fun _ => .pure _
  | _ => exact .pure _

theorem wrongType_within (v : ScriptValue) (expected : String) :
    (wrongType v expected : HostAct α).Within E :=
  .bind (engineTypeName_within v) fun _ => .fail _

theorem optionalText_within (v : ScriptValue) : (optionalText v).Within E := by
  cases v with
  | undefined | null => exact .pure _
  | string t =>
    unfold optionalText
    simp only
    split
    · exact .pure _
    · exact .fail _
  | _ => exact wrongType_within _ _

theorem textOrNone_within (id : ObjectId) (key : String) :
    (textOrNone r id key).Within (.besides r K) := by
  refine .bind (.attempt (Script.get_within id _)) fun v => ?_
  cases v with
  | ok v => exact .recover (optionalText_within v) fun _ => .pure _
  | error e => exact .pure _

theorem errorOfThrown_within (thrown : ScriptValue) :
    (errorOfThrown r thrown).Within (.besides r K) := by
  cases thrown with
  | object id =>
    refine .bind (.bind (.attempt (Script.get_within id _)) fun v => ?_) fun e => ?_
    · split
      · exact .takeError _
      · exact .pure _
    · cases e with
      | some e => exact .pure _
      | none =>
        exact .bind (textOrNone_within id _) fun _ => .bind (textOrNone_within id _) fun _ =>
          .bind (textOrNone_within id _) fun _ => .pure _
  | _ => exact .pure _

theorem intoHost_within {x : ScriptAct α} (hx : x.Within (.besides r K)) :
    (intoHost r x).Within (.besides r K) :=
  .recover hx fun thrown => .bind (errorOfThrown_within thrown) fun _ => .fail _

theorem hold_within [E.Gentle] (id : ObjectId) : (hold id).Within E :=
  .bind (.identify id) fun _ => .bind .root fun _ => .bind (.read _) fun _ => .pure _

theorem readText_within (id : ObjectId) (key : String) :
    (readText r id key).Within (.besides r K) :=
  .bind (intoHost_within (Script.get_within id _)) fun v => optionalText_within v

theorem objectToHost_within (id : ObjectId) (o : Object) :
    (objectToHost r id o).Within (.besides r K) := by
  refine .bind (Script.inherits_within id _) fun isDate => .ite ?_ ?_
  · split
    · exact .ofExcept _
    · exact intoHost_within (throwType_within _)
  · refine .bind (Script.inherits_within id _) fun isError => .ite ?_ ?_
    · exact .bind (readText_within id _) fun _ => .bind (readText_within id _) fun _ =>
        .bind (readText_within id _) fun _ => .pure _
    · exact .bind (hold_within id) fun _ => .pure _

theorem copyElements_within {convert : ScriptValue → HostAct Value}
    (hc : ∀ v, (convert v).Within (.besides r K)) (id : ObjectId) :
    (copyElements r convert id).Within (.besides r K) := by
  refine .bind (intoHost_within (Script.get_within id _)) fun length =>
    .bind (.read _) fun limit => ?_
  split
  · exact .fail _
  · refine .bind (.mapAll (fun i => ?_) _) fun _ => .bind (.newSequence _) fun _ => .pure _
    exact .bind (intoHost_within (Script.get_within id _)) fun v => hc v

theorem valueToHost_within {copyArray : ObjectId → HostAct Value}
    (hc : ∀ id, (copyArray id).Within (.besides r K)) (v : ScriptValue) :
    (valueToHost r copyArray v).Within (.besides r K) := by
  unfold valueToHost
  split
  · exact .pure _
  · exact .pure _
  · exact .pure _
  · exact .pure _
  · -- a text
    split
    · exact .pure _
    · exact .fail _
  · exact .fail _
  · exact .fail _
  · -- an object
    rename_i id
    refine .bind (.read _) fun handle => ?_
    split
    · exact .pure _
    · refine .bind (.read _) fun o => ?_
      split
      · exact .pure _
      split
      · exact .bind (hold_within id) fun _ => .bind (textOrNone_within id _) fun _ => .pure _
      · exact hc id
      · exact objectToHost_within id _

theorem toHostWithin_within (depth : Nat) (v : ScriptValue) :
    (toHostWithin r depth v).Within (.besides r K) := by
  induction depth generalizing v with
  | zero => exact valueToHost_within (fun _ => .fail _) v
  | succ depth ih => exact valueToHost_within (copyElements_within ih) v

theorem toHost_within (v : ScriptValue) : (toHost r v).Within (.besides r K) :=
  toHostWithin_within _ _

end Bridge

end ScriptBridge
