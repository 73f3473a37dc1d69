import ScriptBridge.Proofs.Reading
import Mathlib.Data.List.Perm.Subperm

/-!
Reading data along prototypes. A property that is data, wherever it is found, is read without
running any code, and a chain of prototypes that comes to an end does so within as many steps as
there are objects.
-/

namespace ScriptBridge

/-- There are only so many different numbers below a bound. -/
theorem length_le_of_nodup {l : List Nat} {n : Nat} (nodup : l.Nodup) (bounded : ∀ i ∈ l, i < n) :
    l.length ≤ n := by
  have inside : l ⊆ List.range n := fun i mem => List.mem_range.2 (bounded i mem)
  have short := (nodup.subperm inside).length_le
  rwa [List.length_range] at short

/-- What a key is found to be from an object on along its prototypes, if all that is asked holds it
as data or lacks it. -/
inductive Finds (w : World) (key : PropertyKey) : Option ObjectId → ScriptValue → Prop where
  | nothing : Finds w key none .undefined
  | own {id : ObjectId} {o : Object} {v : ScriptValue} {a b c : Bool} (h : Ordinary w id o)
    (here : o.properties.get? key = some (.data v a b c)) : Finds w key (some id) v
  | inherited {id : ObjectId} {o : Object} {v : ScriptValue} (h : Ordinary w id o)
    (lacks : o.properties.get? key = none) (above : Finds w key o.prototype v) :
    Finds w key (some id) v

/-- The text a value stands for where a text may be missing: null and undefined are none, and only
well-formed texts are texts. -/
def ScriptValue.optionalText? : ScriptValue → Option (Option String)
  | .undefined | .null => some none
  | .string t => t.toString?.map some
  | _ => none

theorem Bridge.optionalText_eq (v : ScriptValue) (w : World) :
    (∃ text, v.optionalText? = some text ∧ optionalText v w = (.value text, w)) ∨
      (v.optionalText? = none ∧ ∃ e, optionalText v w = (.failure e, w)) := by
  cases v with
  | undefined | null => exact .inl ⟨none, rfl, rfl⟩
  | string t =>
    unfold optionalText ScriptValue.optionalText?
    simp only
    cases t.toString? with
    | some s => exact .inl ⟨some s, rfl, rfl⟩
    | none => exact .inr ⟨rfl, _, rfl⟩
  | _ => exact .inr ⟨rfl, _, rfl⟩

/-- Objects that are asked one after another, none of them twice. From each of them on it takes as
many steps as there are left of them to find the value. -/
structure Chain (r : Reentry) (w : World) (key : PropertyKey) (receiver v : ScriptValue)
    (asked : List ObjectId) : Prop where
  nodup : asked.Nodup
  inside : ∀ id ∈ asked, id.index < w.engine.objects.size
  reads : ∀ id rest, id :: rest <:+ asked → ∀ steps, rest.length < steps →
    Script.getFrom r receiver key steps (some id) w = (.value v, w)

namespace Chain

variable {r : Reentry} {w : World} {key : PropertyKey} {receiver v : ScriptValue}
  {asked later : List ObjectId} {id : ObjectId}

theorem nil : Chain r w key receiver v [] where
  nodup := List.nodup_nil
  inside := nofun
  reads _ _ suffix := by cases List.suffix_nil.1 suffix

theorem of_suffix (chain : Chain r w key receiver v asked) (suffix : later <:+ asked) :
    Chain r w key receiver v later where
  nodup := chain.nodup.sublist suffix.sublist
  inside id mem := chain.inside id (suffix.subset mem)
  reads id rest here := chain.reads id rest (here.trans suffix)

theorem cons (chain : Chain r w key receiver v asked) (apart : id ∉ asked)
    (inside : id.index < w.engine.objects.size) (reads : ∀ steps, asked.length ≤ steps →
      Script.getFrom r receiver key (steps + 1) (some id) w = (.value v, w)) :
    Chain r w key receiver v (id :: asked) where
  nodup := List.nodup_cons.2 ⟨apart, chain.nodup⟩
  inside := List.forall_mem_cons.2 ⟨inside, chain.inside⟩
  reads x rest suffix steps enough := by
    cases List.suffix_cons_iff.1 suffix with
    | inl same =>
      obtain ⟨rfl, rfl⟩ := List.cons.inj same
      obtain ⟨n, rfl⟩ := Nat.exists_eq_add_of_lt enough
      exact reads _ (Nat.le_add_right _ _)
    | inr shorter => exact chain.reads x rest shorter steps enough

theorem getFrom_eq (chain : Chain r w key receiver v asked) {start : Option ObjectId}
    (finds : Finds w key start v) (first : asked.head? = start) {steps : Nat}
    (enough : asked.length ≤ steps) :
    Script.getFrom r receiver key steps start w = (.value v, w) := by
  cases start with
  | none =>
    cases finds
    cases steps <;> rfl
  | some id =>
    obtain ⟨rest, rfl⟩ := List.head?_eq_some_iff.1 first
    exact chain.reads id rest (List.suffix_refl _) steps enough

theorem length_le (chain : Chain r w key receiver v asked) :
    asked.length ≤ w.engine.objects.size := by
  have apart : (asked.map ObjectId.index).Nodup :=
    chain.nodup.map fun a b same => by cases a; cases b; cases same; rfl
  rw [← asked.length_map (f := ObjectId.index)]
  refine length_le_of_nodup apart fun i mem => ?_
  obtain ⟨id, asks, rfl⟩ := List.mem_map.1 mem
  exact chain.inside id asks

end Chain

namespace Finds

variable {r : Reentry} {w w' : World} {key : PropertyKey} {id : ObjectId} {start : Option ObjectId}
  {v v' : ScriptValue}

/-- Objects that stay as they are answer as before. -/
theorem of_objects (h : Finds w key start v)
    (kept : ∀ id o, Ordinary w id o → Ordinary w' id o) : Finds w' key start v := by
  induction h with
  | nothing => exact .nothing
  | own h here => exact .own (kept _ _ h) here
  | inherited h lacks _ ih => exact .inherited (kept _ _ h) lacks ih

theorem unique (h : Finds w key start v) (h' : Finds w key start v') : v = v' := by
  induction h with
  | nothing =>
    cases h'
    rfl
  | own h here =>
    cases h' with
    | own h' here' =>
      obtain rfl := h.unique h'
      rw [here] at here'
      cases here'
      rfl
    | inherited h' lacks =>
      obtain rfl := h.unique h'
      rw [here] at lacks
      cases lacks
  | inherited h lacks _ ih =>
    cases h' with
    | own h' here =>
      obtain rfl := h.unique h'
      rw [here] at lacks
      cases lacks
    | inherited h' _ above =>
      obtain rfl := h.unique h'
      exact ih above

/-- What is found from some object on is found from the first of a chain of objects on. -/
theorem chain (h : Finds w key start v) (receiver : ScriptValue) :
    ∃ asked, asked.head? = start ∧ Chain r w key receiver v asked := by
  induction h with
  | nothing => exact ⟨[], rfl, .nil⟩
  | @own id o v a b c h here =>
    refine ⟨[id], rfl, Chain.nil.cons List.not_mem_nil h.lt_size fun steps _ => ?_⟩
    exact Script.getFrom_of_own h here receiver steps
  | @inherited id o v h lacks above ih =>
    obtain ⟨asked, first, chain⟩ := ih
    by_cases again : id ∈ asked
    · -- the chain would come back to the object, so that what is after it there is enough
      obtain ⟨before, rest, rfl⟩ := List.append_of_mem again
      exact ⟨id :: rest, rfl, chain.of_suffix ⟨before, rfl⟩⟩
    · refine ⟨id :: asked, rfl, chain.cons again h.lt_size fun steps enough => ?_⟩
      rw [Script.getFrom_of_ordinary h, lacks]
      exact chain.getFrom_eq above first enough

/-- As many steps as there are objects find what there is. -/
theorem getFrom_eq (h : Finds w key start v) (receiver : ScriptValue) {steps : Nat}
    (enough : w.engine.objects.size ≤ steps) :
    Script.getFrom r receiver key steps start w = (.value v, w) := by
  obtain ⟨asked, first, chain⟩ := h.chain (r := r) receiver
  exact chain.getFrom_eq h first (Nat.le_trans chain.length_le enough)

theorem get_eq (h : Finds w key (some id) v) : Script.get r id key w = (.value v, w) :=
  h.getFrom_eq _ (Nat.le_succ _)

/-- A text that is data is read as it is, and anything else counts as missing. -/
theorem textOrNone_eq {name : String} (h : Finds w (.ofString name) (some id) v) :
    ∃ text, Bridge.textOrNone r id name w = (.value text, w) := by
  rw [Bridge.textOrNone, Act.bind_of_value (Act.attempt_of_value h.get_eq)]
  obtain ⟨text, _, reads⟩ | ⟨_, e, reads⟩ := Bridge.optionalText_eq v w
  · exact ⟨text, Act.recover_of_value reads _⟩
  · exact ⟨none, Act.recover_of_failure reads _⟩

theorem readText_eq {name : String} (h : Finds w (.ofString name) (some id) v) :
    Bridge.readText r id name w = Bridge.optionalText v w :=
  Act.bind_of_value (Act.recover_of_value h.get_eq _) _

end Finds

end ScriptBridge
