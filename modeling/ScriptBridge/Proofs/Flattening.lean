import ScriptBridge.Proofs.FlatDepths
import ScriptBridge.Proofs.Ranges

/-!
Flattening. Sequences may share others and contain themselves, and flattening ends on all of them;
where none of those nested in one contains itself, it opens exactly the levels its depth stands for.
-/

namespace ScriptBridge

theorem Value.sequence_or_plain (v : Value) :
    (∃ t, v = .sequence t) ∨ ∀ t, v ≠ .sequence t := by
  rw [← not_exists]
  exact Classical.em _

namespace Heap

open Number (flatDepth)

/-! ### Nested sequences -/

variable {h : Heap} {s t u : SequenceId}

theorem Nested.trans (outer : h.Nested s t) (inner : h.Nested t u) : h.Nested s u := by
  induction outer with
  | self => exact inner
  | inside mem _ ih => exact .inside mem (ih inner)

/-- A sequence is an element of itself, or of one that is nested in it at some level. -/
def ContainsItself (h : Heap) (s : SequenceId) : Prop :=
  ∃ t, .sequence t ∈ h.sequence s ∧ h.Nested t s

/-- The sequences nested in one are there, and neither it nor any of them contains itself. -/
structure WellNested (h : Heap) (s : SequenceId) : Prop where
  made : ∀ t, h.Nested s t → t.index < h.sequences.size
  acyclic : ∀ t, h.Nested s t → ¬h.ContainsItself t

theorem WellNested.of_nested (well : h.WellNested s) (nested : h.Nested s t) : h.WellNested t :=
  ⟨fun u inner => well.made u (nested.trans inner),
    fun u inner => well.acyclic u (nested.trans inner)⟩

theorem WellNested.of_mem (well : h.WellNested s) (mem : .sequence t ∈ h.sequence s) :
    h.WellNested t :=
  well.of_nested (.inside mem (.self t))

/-! ### Opening levels -/

/-- The elements with every sequence among them opened, `n` levels down. -/
def spliced (h : Heap) : Nat → List Value → List Value
  | 0, items => items
  | n + 1, items =>
    items.flatMap fun item =>
      match item with
      | .sequence t => h.spliced n (h.sequence t)
      | item => [item]

/-- All that is not a sequence, from left to right, in the elements and in the sequences nested in
them. -/
inductive Leaves (h : Heap) : List Value → List Value → Prop where
  | nil : Leaves h [] []
  | leaf {v : Value} {items leaves : List Value} (plain : ∀ t, v ≠ .sequence t)
    (rest : Leaves h items leaves) : Leaves h (v :: items) (v :: leaves)
  | opened {t : SequenceId} {items inner leaves : List Value}
    (inside : Leaves h (h.sequence t) inner) (rest : Leaves h items leaves) :
    Leaves h (.sequence t :: items) (inner ++ leaves)

variable {items leaves leaves' : List Value} {n : Nat}

theorem Leaves.not_mem (h' : h.Leaves items leaves) (t : SequenceId) :
    .sequence t ∉ leaves := by
  induction h' with
  | nil => exact List.not_mem_nil
  | leaf plain _ ih =>
    rw [List.mem_cons, not_or]
    exact ⟨(plain t).symm, ih⟩
  | opened _ _ inside rest =>
    rw [List.mem_append, not_or]
    exact ⟨inside, rest⟩

theorem Leaves.append (left : h.Leaves items leaves) {items' : List Value}
    (right : h.Leaves items' leaves') : h.Leaves (items ++ items') (leaves ++ leaves') := by
  induction left with
  | nil => exact right
  | leaf plain _ ih => exact .leaf plain ih
  | opened inside _ _ ih =>
    rw [List.append_assoc]
    exact .opened inside ih

theorem Leaves.unique (h₁ : h.Leaves items leaves) (h₂ : h.Leaves items leaves') :
    leaves = leaves' := by
  induction h₁ generalizing leaves' with
  | nil =>
    cases h₂
    rfl
  | leaf plain _ ih =>
    cases h₂ with
    | leaf _ rest => rw [ih rest]
    | opened => exact absurd rfl (plain _)
  | opened _ _ inside after =>
    cases h₂ with
    | leaf plain => exact absurd rfl (plain _)
    | opened inner rest => rw [inside inner, after rest]

theorem leaves_flatMap {f : Value → List Value} (each : ∀ v ∈ items, h.Leaves [v] (f v)) :
    h.Leaves items (items.flatMap f) := by
  induction items with
  | nil => exact .nil
  | cons v rest ih =>
    exact (each v List.mem_cons_self).append (ih fun u mem => each u (List.mem_cons_of_mem v mem))

theorem spliced_append (n : Nat) (xs ys : List Value) :
    h.spliced n (xs ++ ys) = h.spliced n xs ++ h.spliced n ys := by
  cases n with
  | zero => rfl
  | succ n => exact List.flatMap_append

theorem spliced_flatMap (n : Nat) (items : List Value) (f : Value → List Value) :
    h.spliced n (items.flatMap f) = items.flatMap fun v => h.spliced n (f v) := by
  induction items with
  | nil => cases n <;> rfl
  | cons v rest ih => rw [List.flatMap_cons, spliced_append, ih, List.flatMap_cons]

theorem spliced_leaf (n : Nat) {v : Value} (plain : ∀ t, v ≠ .sequence t) :
    h.spliced n [v] = [v] := by
  cases n with
  | zero => rfl
  | succ n =>
    cases v with
    | sequence t => exact absurd rfl (plain t)
    | _ => rfl

theorem spliced_sequence (n : Nat) (t : SequenceId) :
    h.spliced (n + 1) [.sequence t] = h.spliced n (h.sequence t) :=
  List.flatMap_singleton ..

theorem spliced_eq_flatMap (n : Nat) (items : List Value) :
    h.spliced n items = items.flatMap fun v => h.spliced n [v] := by
  rw [← spliced_flatMap, List.flatMap_singleton']

/-- Levels opened one after another are those opened at once. -/
theorem spliced_add (a b : Nat) (items : List Value) :
    h.spliced b (h.spliced a items) = h.spliced (a + b) items := by
  induction a generalizing items with
  | zero => rw [Nat.zero_add, spliced]
  | succ a ih =>
    rw [spliced_eq_flatMap (a + 1), spliced_flatMap, spliced_eq_flatMap (a + 1 + b),
      Nat.add_right_comm]
    congr 1
    funext v
    obtain ⟨t, rfl⟩ | plain := v.sequence_or_plain
    · rw [spliced_sequence, spliced_sequence, ih]
    · rw [spliced_leaf _ plain, spliced_leaf _ plain, spliced_leaf _ plain]

/-! ### What flattening opens -/

/-- The sequences nested in some elements are all available, and none of them contains itself. -/
def Opens (h : Heap) (available : List SequenceId) (items : List Value) : Prop :=
  ∀ t, .sequence t ∈ items → h.WellNested t ∧ ∀ u, h.Nested t u → u ∈ available

section Flattening

variable {available : List SequenceId} {depth : Double}

theorem Opens.mem (opens : h.Opens available items) (mem : .sequence t ∈ items) : t ∈ available :=
  (opens t mem).2 t (.self t)

/-- What is nested in a sequence is not the sequence, so it is available still when that is open. -/
theorem Opens.next (opens : h.Opens available items) (mem : .sequence t ∈ items) :
    h.Opens (available.erase t) (h.sequence t) := by
  intro u inside
  obtain ⟨well, all⟩ := opens t mem
  refine ⟨well.of_mem inside, fun v nested => ?_⟩
  have other : v ≠ t := by
    rintro rfl
    exact well.acyclic v (.self v) ⟨u, inside, nested⟩
  exact (List.mem_erase_of_ne other).2 (all v (.inside inside nested))

theorem flattenAvailable_leaf {v : Value} (plain : ∀ t, v ≠ .sequence t) :
    h.flattenAvailable available depth [v] = [v] := by
  rw [flattenAvailable]
  cases v with
  | sequence t => exact absurd rfl (plain t)
  | _ => rfl

theorem flattenAvailable_sequence (mem : t ∈ available) :
    h.flattenAvailable available depth [.sequence t] =
      if (Double.ofNat 1).le depth then
        h.flattenAvailable (available.erase t) (depth.sub (.ofNat 1)) (h.sequence t)
      else [.sequence t] := by
  rw [flattenAvailable, List.flatMap_singleton]
  exact dif_pos mem

theorem flattenAvailable_eq_flatMap (h : Heap) (available : List SequenceId) (depth : Double)
    (items : List Value) : h.flattenAvailable available depth items =
      items.flatMap fun v => h.flattenAvailable available depth [v] := by
  rw [flattenAvailable]
  congr 1
  funext v
  rw [flattenAvailable, List.flatMap_singleton]

/-- A depth of less than one opens nothing. -/
theorem flattenAvailable_of_not_le (low : ¬(Double.ofNat 1).le depth) :
    h.flattenAvailable available depth items = items := by
  rw [flattenAvailable_eq_flatMap]
  refine (List.flatMap_congr fun v _ => ?_).trans (List.flatMap_singleton' items)
  rw [flattenAvailable, List.flatMap_singleton]
  split
  · rw [if_neg low, dite_eq_ite, ite_self]
  · rfl

/-- A depth of one opens the sequences among the elements, whatever is in them. -/
theorem flattenAvailable_once {available : List SequenceId}
    (there : ∀ t, .sequence t ∈ items → t ∈ available) :
    h.flattenAvailable available (flatDepth (some (.ofNat 1))) items = h.spread items := by
  obtain ⟨some, next⟩ : Number.CountsDown 2 (flatDepth (some (.ofNat 1))) 1 :=
    Number.countsDown_flatDepth_ofNat (.inl (by decide))
  obtain ⟨more, -⟩ := next Nat.one_ne_zero
  rw [flattenAvailable_eq_flatMap]
  refine List.flatMap_congr fun v here => ?_
  obtain ⟨t, rfl⟩ | plain := v.sequence_or_plain
  · rw [flattenAvailable_sequence (there t here), if_pos (some.2 Nat.one_ne_zero)]
    exact flattenAvailable_of_not_le (mt more.1 (not_not.2 rfl))
  · rw [flattenAvailable_leaf plain]
    cases v with
    | sequence t => exact absurd rfl (plain t)
    | _ => rfl

/-- A depth that counts down as long as there are sequences to open opens that many levels. -/
theorem flattenAvailable_eq {available : List SequenceId} {depth : Double} {items : List Value}
    {n : Nat} (counts : Number.CountsDown available.length depth n)
    (opens : h.Opens available items) :
    h.flattenAvailable available depth items = h.spliced n items := by
  rw [flattenAvailable_eq_flatMap, spliced_eq_flatMap]
  refine List.flatMap_congr fun v here => ?_
  obtain ⟨t, rfl⟩ | plain := v.sequence_or_plain
  · have mem := opens.mem here
    rw [flattenAvailable_sequence mem]
    rw [← Nat.sub_add_cancel (List.length_pos_of_mem mem)] at counts
    obtain ⟨some, next⟩ := counts
    cases n with
    | zero => rw [if_neg (mt some.1 (not_not.2 rfl)), spliced]
    | succ n =>
      have left := next (Nat.succ_ne_zero n)
      rw [← List.length_erase_of_mem mem] at left
      rw [if_pos (some.2 (Nat.succ_ne_zero n)), spliced_sequence]
      exact flattenAvailable_eq left (opens.next here)
  · rw [flattenAvailable_leaf plain, spliced_leaf n plain]
termination_by available.length
decreasing_by exact length_erase_lt mem

/-- An infinite depth opens all there is. -/
theorem leaves_flattenAvailable {available : List SequenceId} {items : List Value}
    (opens : h.Opens available items) :
    h.Leaves items (h.flattenAvailable available (.infinity false) items) := by
  rw [flattenAvailable_eq_flatMap]
  refine leaves_flatMap fun v here => ?_
  obtain ⟨t, rfl⟩ | plain := v.sequence_or_plain
  · have mem := opens.mem here
    have always : (Double.ofNat 1).le (.infinity false) :=
      Number.one_le_of_atLeast (k := 0) (.inl rfl)
    rw [flattenAvailable_sequence mem, if_pos always, Number.infinity_sub_one,
      ← List.append_nil (h.flattenAvailable _ _ _)]
    exact .opened (leaves_flattenAvailable (opens.next here)) .nil
  · rw [flattenAvailable_leaf plain]
    exact .leaf plain .nil
termination_by available.length
decreasing_by exact length_erase_lt mem

variable {w : World}

theorem mem_allSequences : s ∈ h.allSequences ↔ s.index < h.sequences.size := by
  rw [allSequences, List.mem_map]
  constructor
  · rintro ⟨i, there, rfl⟩
    exact List.mem_range.1 there
  · intro made
    exact ⟨s.index, List.mem_range.2 made, rfl⟩

theorem length_available (made : s.index < h.sequences.size) :
    (h.allSequences.erase s).length = h.sequences.size - 1 := by
  rw [List.length_erase_of_mem (mem_allSequences.2 made), allSequences, List.length_map,
    List.length_range]

theorem WellNested.opens (well : h.WellNested s) :
    h.Opens (h.allSequences.erase s) (h.sequence s) := by
  have all : h.Opens h.allSequences [.sequence s] := by
    intro t mem
    cases List.mem_singleton.1 mem
    exact ⟨well, fun u nested => mem_allSequences.2 (well.made u nested)⟩
  exact all.next (List.mem_singleton.2 rfl)

theorem WellNested.flatten_eq (well : h.WellNested s)
    (counts : Number.CountsDown (h.sequences.size - 1) depth n) :
    h.flatten s depth = h.spliced n (h.sequence s) := by
  rw [← length_available (well.made s (.self s))] at counts
  exact flattenAvailable_eq counts well.opens

theorem WellNested.leaves_flatten (well : h.WellNested s) :
    h.Leaves (h.sequence s) (h.flatten s (.infinity false)) :=
  leaves_flattenAvailable well.opens

/-! ### Flattening what was flattened -/

theorem size_pushSequence (h : Heap) (out : List Value) :
    (h.pushSequence out).sequences.size = h.sequences.size + 1 :=
  Arena.size_push _ _

theorem nested_pushSequence_iff {out : List Value} (well : h.WellNested t) :
    (h.pushSequence out).Nested t u ↔ h.Nested t u := by
  constructor
  · intro nested
    induction nested with
    | self => exact .self _
    | inside mem _ ih =>
      rw [sequence_pushSequence_of_lt (well.made _ (.self _))] at mem
      exact .inside mem (ih (well.of_mem mem))
  · intro nested
    induction nested with
    | self => exact .self _
    | inside mem _ ih =>
      refine .inside ?_ (ih (well.of_mem mem))
      rwa [sequence_pushSequence_of_lt (well.made _ (.self _))]

theorem WellNested.pushSequence {out : List Value} (well : h.WellNested t) :
    (h.pushSequence out).WellNested t where
  made u nested := by
    have there := well.made u ((nested_pushSequence_iff well).1 nested)
    exact Nat.lt_of_lt_of_eq (Nat.lt_succ_of_lt there) (size_pushSequence h out).symm
  acyclic u nested := by
    rw [nested_pushSequence_iff well] at nested
    rintro ⟨v, mem, back⟩
    have inner := well.of_nested nested
    rw [sequence_pushSequence_of_lt (inner.made u (.self u))] at mem
    exact well.acyclic u nested ⟨v, mem, (nested_pushSequence_iff (inner.of_mem mem)).1 back⟩

/-- A new sequence contains nothing that was made after it, and so not itself. -/
theorem wellNested_nextSequence {out : List Value}
    (each : ∀ t, .sequence t ∈ out → h.WellNested t) :
    (h.pushSequence out).WellNested h.nextSequence := by
  have inside {t} (mem : .sequence t ∈ (h.pushSequence out).sequence h.nextSequence) :
      h.WellNested t := by
    rw [sequence_pushSequence_next] at mem
    exact each t mem
  constructor
  · intro u nested
    cases nested with
    | self => exact Nat.lt_of_lt_of_eq (Nat.lt_succ_self _) (size_pushSequence h out).symm
    | inside mem rest => exact (inside mem).pushSequence.made u rest
  · intro u nested
    cases nested with
    | self =>
      rintro ⟨t, mem, back⟩
      have well := inside mem
      have older := well.made _ ((nested_pushSequence_iff well).1 back)
      exact Nat.lt_irrefl _ older
    | inside mem rest => exact (inside mem).pushSequence.acyclic u rest

theorem spliced_pushSequence {out : List Value} (n : Nat)
    (each : ∀ t, .sequence t ∈ items → h.WellNested t) :
    (h.pushSequence out).spliced n items = h.spliced n items := by
  induction n generalizing items with
  | zero => rfl
  | succ n ih =>
    refine List.flatMap_congr fun v here => ?_
    obtain ⟨t, rfl⟩ | plain := v.sequence_or_plain
    · have well := each t here
      simp only
      rw [sequence_pushSequence_of_lt (well.made t (.self t))]
      exact ih fun u inside => well.of_mem inside
    · cases v with
      | sequence t => exact absurd rfl (plain t)
      | _ => rfl

/-- A new sequence is none of its elements, so each of them is opened, even one inside itself. -/
theorem flatten_nextSequence_once {out : List Value}
    (made : ∀ t, .sequence t ∈ out → t.index < h.sequences.size) :
    (h.pushSequence out).flatten h.nextSequence (flatDepth (some (.ofNat 1))) =
      (h.pushSequence out).spread out := by
  rw [flatten, sequence_pushSequence_next]
  refine flattenAvailable_once fun t mem => ?_
  have older := made t mem
  have other : t ≠ h.nextSequence := fun same => Nat.ne_of_lt older (congrArg SequenceId.index same)
  rw [List.mem_erase_of_ne other, mem_allSequences, size_pushSequence]
  exact Nat.lt_succ_of_lt older

/-- Flattened again, a flattened sequence is one flattened by both depths together. -/
theorem WellNested.flatten_flatten (well : h.WellNested s) {a b : Nat}
    (small : a + b ≤ 2 ^ 53 ∨ h.sequences.size ≤ 2 ^ 53) :
    (h.pushSequence (h.flatten s (flatDepth (some (.ofNat a))))).flatten h.nextSequence
        (flatDepth (some (.ofNat b))) =
      h.flatten s (flatDepth (some (.ofNat (a + b)))) := by
  have parts (t) (mem : .sequence t ∈ h.flatten s (flatDepth (some (.ofNat a)))) :
      h.WellNested t := by
    obtain ⟨u, nested, mem⟩ := nested_of_mem_flatten mem
    exact (well.of_nested nested).of_mem mem
  have first : h.flatten s (flatDepth (some (.ofNat a))) = h.spliced a (h.sequence s) :=
    well.flatten_eq (Number.countsDown_flatDepth_ofNat (small.imp (by omega) (by omega)))
  have both : h.flatten s (flatDepth (some (.ofNat (a + b)))) =
      h.spliced (a + b) (h.sequence s) :=
    well.flatten_eq (Number.countsDown_flatDepth_ofNat (small.imp_right (by omega)))
  rw [(wellNested_nextSequence parts).flatten_eq (Number.countsDown_flatDepth_ofNat (n := b) ?_),
    sequence_pushSequence_next, spliced_pushSequence b parts, first, spliced_add, both]
  rw [size_pushSequence, Nat.add_sub_cancel]
  exact small.imp_left (by omega)

end Flattening

end Heap

namespace Sequence

open Number (levels flatDepth)

variable {r : Reentry} {s : SequenceId} {args : List Value} {w : World}

/-- What flattening a sequence so many levels makes of its elements. -/
structure Flattened (h : Heap) (s : SequenceId) (depth : ℕ∞) (elements : List Value) : Prop where
  copied : depth = 0 → elements = h.sequence s
  opened : h.WellNested s → ∀ n : ℕ, depth = n → n ≤ 2 ^ 53 ∨ h.sequences.size ≤ 2 ^ 53 →
    elements = h.spliced n (h.sequence s)
  leaves : h.WellNested s → depth = ⊤ →
    h.Leaves (h.sequence s) elements ∧ ∀ t, .sequence t ∉ elements

theorem flattened_flatten (h : Heap) (s : SequenceId) (x : Option Double) :
    Flattened h s (levels x) (h.flatten s (flatDepth x)) where
  copied none := by
    obtain ⟨some, -⟩ : Number.CountsDown 1 (flatDepth x) 0 :=
      Number.countsDown_of_levels none (.inr (by decide))
    exact Heap.flattenAvailable_of_not_le (mt some.1 (not_not.2 rfl))
  opened well _ counted small :=
    well.flatten_eq (Number.countsDown_of_levels counted (small.imp_right (by omega)))
  leaves well all := by
    rw [Number.flatDepth_of_levels_eq_top all]
    exact ⟨well.leaves_flatten, well.leaves_flatten.not_mem⟩

theorem depthArg_eq (args : List Value) (w : World) :
    depthArg args w = (.value (flatDepth (boundOf w args 0)), w) := by
  have bound : boundArg args 0 w = (.value (boundOf w args 0), w) := rfl
  rw [depthArg, Act.run_bind, bound]
  cases boundOf w args 0 <;> rfl

theorem callValue_flat (r : Reentry) (s : SequenceId) (args : List Value) (w : World) :
    callValue r s .flat args w = (.value (.sequence w.heap.nextSequence), { w with
      heap := w.heap.pushSequence (w.heap.flatten s (flatDepth (boundOf w args 0))) }) := by
  change (depthArg args >>= fun depth => Act.read (·.heap.flatten s depth) >>= fresh) w = _
  rw [Act.run_bind, depthArg_eq]
  rfl

theorem call_flat (r : Reentry) (s : SequenceId) (args : List Value) (w : World) :
    call r s .flat args w = (.value (.value (.sequence w.heap.nextSequence)), { w with
      heap := w.heap.pushSequence (w.heap.flatten s (flatDepth (boundOf w args 0))) }) := by
  change (callValue r s .flat args >>= fun v => pure (Answer.value v)) w = _
  rw [Act.run_bind, callValue_flat]
  rfl

theorem boundOf_ofNat (w : World) (n : Nat) : boundOf w [.ofNat n] 0 = some (.ofNat n) := rfl

/-- Flattening ends on all sequences, and makes a new one. Where no sequence nested in it contains
itself, each level of the depth opens one level of sequences, where they stand. Depths add up, and
the infinite one leaves no sequence. (Beyond 2^53 a depth is not taken from one by one, which only a
chain of more than 2^53 sequences could show.) -/
theorem flat_splices_nested (r : Reentry) (s : SequenceId) (w : World) :
    (∀ args, ∃ elements, AnswersNew elements w (call r s .flat args w) ∧
      Flattened w.heap s (levels (boundOf w args 0)) elements) ∧
    (w.heap.WellNested s → ∀ a b : ℕ, a + b ≤ 2 ^ 53 ∨ w.heap.sequences.size ≤ 2 ^ 53 →
      ∃ part w₁ elements, call r s .flat [.ofNat a] w = (.value (.value (.sequence part)), w₁) ∧
        AnswersNew elements w₁ (call r part .flat [.ofNat b] w₁) ∧
        AnswersNew elements w (call r s .flat [.ofNat (a + b)] w)) := by
  constructor
  · intro args
    rw [call_flat]
    exact ⟨_, answersNew_pushSequence _ w, flattened_flatten w.heap s (boundOf w args 0)⟩
  · intro well a b small
    rw [call_flat, call_flat]
    refine ⟨_, _, _, rfl, ?_, answersNew_pushSequence _ w⟩
    rw [call_flat, boundOf_ofNat, boundOf_ofNat, boundOf_ofNat, ← well.flatten_flatten small]
    exact answersNew_pushSequence _ _

/-- Three sequences, one of them shared by the two others, opened one level and all the way. -/
theorem flat_splices_nested_shared :
    let h : Heap := Heap.pushSequence
      (Heap.pushSequence (Heap.pushSequence {} [.null]) [.sequence ⟨0⟩, .bool true])
      [.sequence ⟨1⟩, .sequence ⟨0⟩]
    let w : World := { heap := h }
    h.WellNested ⟨2⟩ ∧
      AnswersNew [.sequence ⟨0⟩, .bool true, .null] w (call .cutting ⟨2⟩ .flat [] w) ∧
      AnswersNew [.null, .bool true, .null] w
        (call .cutting ⟨2⟩ .flat [.number (.infinity false)] w) ∧
      ∃ part w₁ elements,
        call .cutting ⟨2⟩ .flat [.ofNat 1] w = (.value (.value (.sequence part)), w₁) ∧
        AnswersNew elements w₁ (call .cutting part .flat [.ofNat 1] w₁) ∧
        AnswersNew elements w (call .cutting ⟨2⟩ .flat [.ofNat 2] w) := by
  intro h w
  have first : (Heap.pushSequence {} [.null]).WellNested ⟨0⟩ :=
    Heap.wellNested_nextSequence fun t mem => by cases List.mem_singleton.1 mem
  have second : (Heap.pushSequence (Heap.pushSequence {} [.null])
      [.sequence ⟨0⟩, .bool true]).WellNested ⟨1⟩ :=
    Heap.wellNested_nextSequence fun t mem => by
      simp only [List.mem_cons, Value.sequence.injEq, reduceCtorEq, List.not_mem_nil, or_false]
        at mem
      rwa [mem]
  have well : h.WellNested ⟨2⟩ := Heap.wellNested_nextSequence fun t mem => by
    simp only [List.mem_cons, Value.sequence.injEq, List.not_mem_nil, or_false] at mem
    obtain rfl | rfl := mem
    · exact second
    · exact first.pushSequence
  obtain ⟨all, sums⟩ := flat_splices_nested .cutting ⟨2⟩ w
  refine ⟨well, ?_, ?_, sums well 1 1 (.inl (by decide))⟩
  · obtain ⟨elements, answers, made⟩ := all []
    cases made.opened well 1 rfl (.inl (by decide))
    exact answers
  · obtain ⟨elements, answers, made⟩ := all [.number (.infinity false)]
    obtain ⟨leaves, -⟩ := made.leaves well rfl
    have null : h.Leaves (h.sequence ⟨0⟩) [.null] := .leaf (fun _ => Value.noConfusion) .nil
    have inner : h.Leaves (h.sequence ⟨1⟩) [.null, .bool true] :=
      .opened null (.leaf (fun _ => Value.noConfusion) .nil)
    rw [leaves.unique (.opened inner (.opened null .nil))] at answers
    exact answers

end Sequence

end ScriptBridge
