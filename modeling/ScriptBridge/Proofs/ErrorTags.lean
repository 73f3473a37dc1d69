import ScriptBridge.Proofs.CallChains
import ScriptBridge.Proofs.Effects

/-!
Host errors are not mistaken for one another. A tag is given out once in the life of a runtime, so
the error object of a host error never finds another one under its tag, however long a script keeps
it and whenever it is thrown again; and an error that was taken out is not found a second time.
-/

namespace ScriptBridge

/-! ### Tags over time -/

/-- Errors kept at the end were kept at the start, or have tags that were given out since. -/
structure Engine.KeepsTags (e e' : Engine) : Prop where
  nextTag : e.nextTag ≤ e'.nextTag
  newer : ∀ p ∈ e'.stash, p ∈ e.stash ∨ e.nextTag ≤ p.1

namespace Engine

theorem KeepsTags.of_subset {e e' : Engine} (nextTag : e'.nextTag = e.nextTag)
    (stash : e'.stash ⊆ e.stash) : e.KeepsTags e' :=
  ⟨Nat.le_of_eq nextTag.symm, fun _ mem => .inl (stash mem)⟩

theorem KeepsTags.refl (e : Engine) : e.KeepsTags e := .of_subset rfl (List.Subset.refl _)

theorem KeepsTags.trans {e e₁ e₂ : Engine} (h : e.KeepsTags e₁) (h' : e₁.KeepsTags e₂) :
    e.KeepsTags e₂ := by
  refine ⟨Nat.le_trans h.nextTag h'.nextTag, fun p mem => ?_⟩
  cases h'.newer p mem with
  | inl before => exact h.newer p before
  | inr newer => exact .inr (Nat.le_trans h.nextTag newer)

theorem KeepsTags.raise (e : Engine) (error : Error) (o : Object) :
    e.KeepsTags (e.raise error o) := by
  refine ⟨Nat.le_succ _, fun p mem => ?_⟩
  cases List.mem_cons.1 mem with
  | inl new =>
    subst new
    exact .inr (Nat.le_refl _)
  | inr old => exact .inl old

theorem KeepsTags.left (e : Engine) : e.KeepsTags e.left := by
  refine .of_subset rfl fun p mem => ?_
  unfold Engine.left at mem
  by_cases outermost : e.depth - 1 = 0
  · simp [outermost] at mem
  · simpa [outermost] using mem

end Engine

theorem EngineStep.keepsTags {e e' : Engine} (s : EngineStep e e') : e.KeepsTags e' := by
  cases s with
  | raised error o _ => exact .raise e error o
  | recovered tag => exact .of_subset rfl (List.filter_subset_self _)
  | objectAdded | objectChanged | symbolMade | jobQueued | jobTaken | exposed | methodAdded | held
  | rooted | dropped =>
    exact .of_subset rfl (List.Subset.refl _)

theorem Engine.throughout_keepsTags : Engine.Throughout Engine.KeepsTags where
  refl := .refl
  trans := .trans
  step := EngineStep.keepsTags
  entered _ := .of_subset rfl (List.Subset.refl _)
  left := .left

/-- What was taken out is gone for good, since its tag is not given out again. -/
theorem takeError_after {ε ε' : Type} {w w₁ w₂ : World} {tag : Nat} {e : Error}
    (t : w.engine.Tagged) (taken : (Act.takeError tag : Act ε _) w = (.value (some e), w₁))
    (run : Reaches w₁ w₂) (live : w₂.runtime = w₁.runtime) :
    (Act.takeError tag : Act ε' _) w₂ = (.value none, w₂) := by
  obtain ⟨kept, rfl⟩ := Act.of_takeError taken
  have given : tag < w.engine.nextTag := t.below _ kept
  have keeps := run.lift_engine Engine.throughout_keepsTags live
  refine Act.takeError_of_absent fun p mem same => ?_
  subst same
  cases keeps.newer p mem with
  | inl kept => simp [Engine.forget] at kept
  | inr newer => exact absurd newer (Nat.not_le_of_lt given)

/-! ### Error objects over time -/

/-- An object was made for a host error when that was thrown into the script, at this or an earlier
moment of the live runtime. -/
structure MadeFor (w : World) (id : ObjectId) (e : Error) : Prop where
  notEngine : ∀ fault, e ≠ .engine fault
  thrown : ∃ w₀ w₁, Reachable w₀ ∧
    (Bridge.throwIntoScript e : ScriptAct Unit) w₀ = (.failure (.object id), w₁) ∧
    Reaches w₁ w ∧ w.runtime = w₁.runtime

/-- An object bears a tag under which nothing but a certain error is found. -/
structure Bears (w : World) (id : ObjectId) (tag : Nat) (e : Error) : Prop where
  object : ∃ o, Ordinary w id o ∧
    o.properties.get? Bridge.tagKey = some (.fixed (.number (.ofNat tag)))
  given : tag < w.engine.nextTag
  only : ∀ p ∈ w.engine.stash, p.1 = tag → p.2 = e

namespace Bears

variable {w w' : World} {id : ObjectId} {tag : Nat} {e : Error}

theorem raised (t : w.engine.Tagged) (e : Error) :
    Bears (w.raised e) ⟨w.engine.objects.size⟩ w.engine.nextTag e := by
  obtain ⟨_, o, same, ordinary, tagged⟩ := (w.carries_raised e).object
  cases same
  refine ⟨⟨o, ordinary, tagged⟩, Nat.lt_succ_self _, fun p mem same => ?_⟩
  cases List.mem_cons.1 mem with
  | inl new => rw [new]
  | inr old => exact absurd same (Nat.ne_of_lt (t.below p old))

theorem of_reaches (h : Bears w id tag e) (run : Reaches w w') (live : w'.runtime = w.runtime) :
    Bears w' id tag e := by
  obtain ⟨o, ordinary, tagged⟩ := h.object
  obtain ⟨o', found, later⟩ := (run.later live).objects id.index o ordinary.found
  have keeps := run.lift_engine Engine.throughout_keepsTags live
  refine ⟨⟨o', ⟨found, later.standsFor.trans ordinary.standsFor⟩, later.fixed _ _ tagged rfl⟩,
    Nat.lt_of_lt_of_le h.given keeps.nextTag, fun p mem same => ?_⟩
  cases keeps.newer p mem with
  | inl before => exact h.only p before same
  | inr newer => exact absurd (same ▸ newer) (Nat.not_le_of_lt h.given)

/-- An object bears one tag. -/
theorem tag_eq {tag' : Nat} {e' : Error} (h : Bears w id tag e) (h' : Bears w id tag' e')
    (few : w.engine.nextTag ≤ 2 ^ 53) : tag = tag' := by
  obtain ⟨o, ordinary, tagged⟩ := h.object
  obtain ⟨o', ordinary', tagged'⟩ := h'.object
  obtain rfl := ordinary.unique ordinary'
  have numbers : Double.ofNat tag = Double.ofNat tag' := by
    simpa [Property.fixed] using tagged.symm.trans tagged'
  have given := h.given
  have given' := h'.given
  exact Double.ofNat_inj (by omega) (by omega) numbers

end Bears

theorem MadeFor.bears {w : World} {id : ObjectId} {e : Error} (h : MadeFor w id e) :
    ∃ tag, Bears w id tag e := by
  obtain ⟨w₀, w₁, reachable, throws, run, live⟩ := h.thrown
  rw [Bridge.throwIntoScript_eq h.notEngine] at throws
  cases throws
  exact ⟨_, (Bears.raised reachable.tagged e).of_reaches run live⟩

/-! ### Arrival -/

namespace Bridge

variable {r : Reentry} {α : Type} {w w₁ : World} {id : ObjectId} {tag : Nat} {e : Error}

/-- Name, message and stack of an error object as the host reads them: a name or message that is no
text counts as missing, and an empty stack as none. -/
def readException (r : Reentry) (id : ObjectId) : HostAct ScriptException := do
  let name ← textOrNone r id "name"
  let message ← textOrNone r id "message"
  let stack ← textOrNone r id "stack"
  return { name := name.getD "Error", message := message.getD "",
           stack := stack.filter (!·.isEmpty) }

theorem infallible_textOrNone (r : Reentry) (id : ObjectId) (key : String) :
    (textOrNone r id key).Infallible := by
  refine .bind (.attempt _) fun v => ?_
  split
  · exact .recover _ fun _ => .pure _
  · exact .pure _

theorem infallible_readException (r : Reentry) (id : ObjectId) :
    (readException r id).Infallible :=
  .bind (infallible_textOrNone r id _) fun _ => .bind (infallible_textOrNone r id _) fun _ =>
    .bind (infallible_textOrNone r id _) fun _ => .pure _

/-- An object that is not made for an error that is still kept arrives with what is read off it. -/
theorem errorOfThrown_of_unstashed (none : stashedError? r id w = (.value none, w)) :
    errorOfThrown r (.object id) w =
      (do return .script (nameCallee (← readException r id)) : HostAct Error) w := by
  rw [errorOfThrown, Act.bind_of_value none]
  simp only [readException, bind_assoc, pure_bind]

theorem stashedError?_of_bears (h : Bears w id tag e) (few : w.engine.nextTag ≤ 2 ^ 53)
    (absent : (tag, e) ∉ w.engine.stash) : stashedError? r id w = (.value none, w) := by
  obtain ⟨o, ordinary, tagged⟩ := h.object
  have given := h.given
  have read := Script.get_of_own (r := r) ordinary tagged
  rw [stashedError?, Act.bind_of_value (Act.attempt_of_value read)]
  simp only
  rw [Double.toWord_ofNat (by omega) (by omega)]
  refine Act.takeError_of_absent fun p mem same => absent ?_
  subst same
  rwa [← h.only p mem rfl]

/-- An error object that arrives uncaught finds its own error, or none. -/
theorem intoHost_of_bears {z : ScriptAct α} (fails : z w₁ = (.failure (.object id), w))
    (h : Bears w id tag e) (t : w.engine.Tagged) (few : w.engine.nextTag ≤ 2 ^ 53)
    (ends : ∀ w', readException r id w ≠ (.exhausted, w')) :
    (tag, e) ∈ w.engine.stash ∧ intoHost r z w₁ = (.failure e, w.recovered tag) ∨
      (tag, e) ∉ w.engine.stash ∧ ∃ read w', readException r id w = (.value read, w') ∧
        intoHost r z w₁ = (.failure (.script (nameCallee read)), w') := by
  by_cases kept : (tag, e) ∈ w.engine.stash
  · obtain ⟨o, ordinary, tagged⟩ := h.object
    have given := h.given
    exact .inl ⟨kept, intoHost_of_carries fails ⟨⟨id, o, rfl, ordinary, tagged⟩, kept⟩ t (by omega)⟩
  · refine .inr ⟨kept, ?_⟩
    have arrives := errorOfThrown_of_unstashed (stashedError?_of_bears (r := r) h few kept)
    rcases reading : readException r id w with ⟨read | failure | _, w'⟩
    · refine ⟨read, w', rfl, ?_⟩
      rw [Act.bind_of_value reading] at arrives
      rw [intoHost, Act.recover_of_failure fails, Act.bind_of_value arrives]
      rfl
    · exact absurd reading (infallible_readException r id w failure w')
    · exact absurd reading (ends w')

end Bridge

end ScriptBridge
