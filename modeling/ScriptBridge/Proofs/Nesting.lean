import ScriptBridge.Proofs.DataReads
import Mathlib.Logic.Relation

/-!
How deep host values nest. A way through containers that does not come back to any of them is
shorter than the bound of the heap, so a value in which nothing contains itself can be taken apart
by induction on what it holds, and the bound is enough levels for that.
-/

namespace ScriptBridge

open Relation (ReflTransGen TransGen)

namespace Heap

/-- What lies directly in a container. -/
def children (h : Heap) : Value → List Value
  | .sequence s => h.sequence s
  | .plain p => (h.plain p).toList.map Prod.snd
  | _ => []

def Holds (h : Heap) (container v : Value) : Prop := v ∈ h.children container

/-- Each container that holds something has a number of its own. -/
def rank (h : Heap) : Handle → Nat
  | .sequence s => s.index
  | .plain p => h.sequences.size + p.index
  | .function _ => 0

variable {h : Heap} {handle handle' : Handle} {v v' : Value}

theorem Holds.sequence_made {s : SequenceId} (holds : h.Holds (.sequence s) v) :
    s.index < h.sequences.size := by
  cases found : h.sequences.get? s.index with
  | some items => exact Arena.lt_size_of_get? found
  | none =>
    have empty : h.children (.sequence s) = [] := by
      rw [children, sequence, found]
      rfl
    rw [Holds, empty] at holds
    cases holds

theorem Holds.plain_made {p : PlainId} (holds : h.Holds (.plain p) v) :
    p.index < h.plains.size := by
  cases found : h.plains.get? p.index with
  | some entries => exact Arena.lt_size_of_get? found
  | none =>
    have empty : h.children (.plain p) = [] := by
      rw [children, plain, found]
      rfl
    rw [Holds, empty] at holds
    cases holds

theorem Holds.rank_lt (holds : h.Holds handle.value v) :
    h.rank handle < h.sequences.size + h.plains.size := by
  cases handle with
  | sequence s =>
    have := holds.sequence_made
    rw [rank]
    omega
  | plain p =>
    have := holds.plain_made
    rw [rank]
    omega
  | function f => cases holds

theorem Holds.eq_of_rank_eq (holds : h.Holds handle.value v) (holds' : h.Holds handle'.value v')
    (same : h.rank handle = h.rank handle') : handle = handle' := by
  cases handle with
  | function f => cases holds
  | sequence s =>
    have made := holds.sequence_made
    cases handle' with
    | function f => cases holds'
    | sequence t =>
      cases s
      cases t
      cases same
      rfl
    | plain p =>
      simp only [rank] at same
      omega
  | plain p =>
    cases handle' with
    | function f => cases holds'
    | sequence t =>
      have made := holds'.sequence_made
      simp only [rank] at same
      omega
    | plain q =>
      cases p
      cases q
      simp only [rank, Nat.add_left_cancel_iff] at same
      rw [same]

end Heap

/-- Containers around a value, none of them twice. -/
structure Around (h : Heap) (v : Value) (path : List Handle) : Prop where
  apart : path.Nodup
  above : ∀ handle ∈ path, TransGen h.Holds handle.value v

namespace Around

variable {h : Heap} {v : Value} {path : List Handle} {handle : Handle}

theorem nil (h : Heap) (v : Value) : Around h v [] := ⟨List.nodup_nil, nofun⟩

theorem length_lt (a : Around h v path) : path.length < h.depthBound := by
  have full (handle : Handle) (mem : handle ∈ path) : ∃ v, h.Holds handle.value v := by
    obtain ⟨next, holds, _⟩ := TransGen.head'_iff.1 (a.above handle mem)
    exact ⟨next, holds⟩
  have ranks : (path.map h.rank).Nodup := by
    refine a.apart.map_on fun handle mem handle' mem' same => ?_
    obtain ⟨v, holds⟩ := full handle mem
    obtain ⟨v', holds'⟩ := full handle' mem'
    exact holds.eq_of_rank_eq holds' same
  refine Nat.lt_succ_of_le ?_
  rw [← path.length_map (f := h.rank)]
  refine length_le_of_nodup ranks fun n mem => ?_
  obtain ⟨handle, inside, rfl⟩ := List.mem_map.1 mem
  obtain ⟨v, holds⟩ := full handle inside
  exact holds.rank_lt

theorem not_mem (a : Around h handle.value path)
    (acyclic : ¬TransGen h.Holds handle.value handle.value) : handle ∉ path :=
  fun mem => acyclic (a.above handle mem)

/-- One container further in. -/
theorem next (handle : Handle) (a : Around h handle.value path)
    (acyclic : ¬TransGen h.Holds handle.value handle.value) (holds : h.Holds handle.value v) :
    Around h v (handle :: path) := by
  refine ⟨List.nodup_cons.2 ⟨a.not_mem acyclic, a.apart⟩, fun outer mem => ?_⟩
  cases List.mem_cons.1 mem with
  | inl same =>
    rw [same]
    exact .single holds
  | inr mem => exact (a.above outer mem).tail holds

end Around

namespace Heap

variable {h : Heap} {v inner : Value} {level n : Nat}

theorem sequence_of_get? {s : SequenceId} {items : List Value}
    (found : h.sequences.get? s.index = some items) : h.sequence s = items := by
  rw [sequence, found, Option.getD_some]

theorem plain_of_get? {p : PlainId} {entries : Entries String Value}
    (found : h.plains.get? p.index = some entries) : h.plain p = entries := by
  rw [plain, found, Option.getD_some]

theorem holds_sequence_iff {s : SequenceId} {items : List Value}
    (found : h.sequences.get? s.index = some items) : h.Holds (.sequence s) v ↔ v ∈ items := by
  rw [Holds, children, sequence_of_get? found]

theorem holds_plain_iff {p : PlainId} {entries : Entries String Value}
    (found : h.plains.get? p.index = some entries) :
    h.Holds (.plain p) v ↔ ∃ key, entries.get? key = some v := by
  simp only [Holds, children, plain_of_get? found, List.mem_map, Prod.exists,
    exists_eq_right, Entries.get?_eq_some_iff]

theorem Holds.exists_handle (holds : h.Holds v inner) : ∃ handle : Handle, v = handle.value := by
  cases v with
  | sequence s => exact ⟨.sequence s, rfl⟩
  | plain p => exact ⟨.plain p, rfl⟩
  | _ => cases holds

/-! ### Values in which nothing contains itself -/

/-- The ways from a value into what it holds all end. -/
def Grounded (h : Heap) (v : Value) : Prop := Acc (fun inner outer => h.Holds outer inner) v

theorem Grounded.child (grounded : h.Grounded v) (holds : h.Holds v inner) : h.Grounded inner :=
  grounded.inv holds

theorem Grounded.acyclic (grounded : h.Grounded v) : ¬TransGen h.Holds v v := by
  induction grounded with
  | intro v _ ih =>
    intro cycle
    -- around a cycle through the value there is one through what it holds
    obtain ⟨inner, holds, back⟩ := TransGen.head'_iff.1 cycle
    exact ih inner holds (TransGen.tail' back holds)

theorem grounded_of_acyclic
    (acyclic : ∀ inner, ReflTransGen h.Holds v inner → ¬TransGen h.Holds inner inner) :
    h.Grounded v := by
  -- by induction on how many containers there can still be below those around the value
  have below (n : Nat) : ∀ {v path}, Around h v path → h.depthBound ≤ path.length + n →
      (∀ inner, ReflTransGen h.Holds v inner → ¬TransGen h.Holds inner inner) → h.Grounded v := by
    induction n with
    | zero =>
      intro v path around enough
      exact absurd around.length_lt (Nat.not_lt_of_le enough)
    | succ n ih =>
      intro v path around enough acyclic
      refine .intro v fun inner holds => ?_
      obtain ⟨handle, rfl⟩ := holds.exists_handle
      refine ih (around.next handle (acyclic _ .refl) holds) ?_ fun deeper way =>
        acyclic deeper (.head holds way)
      rw [List.length_cons]
      omega
  exact below h.depthBound (.nil h v) (Nat.le_add_left _ _) acyclic

/-! ### Levels -/

/-- As many levels as a value can nest, given what is around it. -/
def Enough (h : Heap) (v : Value) (level : Nat) : Prop :=
  ∃ path, Around h v path ∧ h.depthBound ≤ path.length + level

theorem enough_depthBound (h : Heap) (v : Value) : h.Enough v h.depthBound :=
  ⟨[], .nil h v, Nat.le_add_left _ _⟩

theorem Enough.exists_succ (enough : h.Enough v level) : ∃ n, level = n + 1 := by
  obtain ⟨path, around, bound⟩ := enough
  have fits := around.length_lt
  exact ⟨_, (Nat.succ_pred_eq_of_pos (by omega)).symm⟩

theorem Enough.inside (enough : h.Enough v (n + 1)) (grounded : h.Grounded v)
    (holds : h.Holds v inner) : h.Enough inner n := by
  obtain ⟨path, around, bound⟩ := enough
  obtain ⟨handle, rfl⟩ := holds.exists_handle
  refine ⟨handle :: path, around.next handle grounded.acyclic holds, ?_⟩
  rw [List.length_cons]
  omega

end Heap

end ScriptBridge
