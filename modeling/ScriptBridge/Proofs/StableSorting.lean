import Mathlib
import ScriptBridge.Proofs.Sorting
import ScriptBridge.Value.Text

/-!
Stability of sorting. Under a comparison whose sign orders the elements, a sorted list is in order
and elements that compare as equal stand as they stood; only one list is so. Any other comparison,
with effects of its own or without sense, still ends the sort after a bounded number of questions.
-/

namespace ScriptBridge

/-- The side of zero a number is on, not-a-number being on neither. -/
def Double.sign (d : Double) : Ordering :=
  if d.lt (.zero false) then .lt else if (Double.zero false).lt d then .gt else .eq

theorem Double.zero_lt (d : Double) : (Double.zero false).lt d = (d.sign == .gt) := by
  rcases d with _ | ⟨_ | _⟩ | ⟨_ | _, units, fits⟩ <;>
    simp only [sign, lt, zero, signed] <;> grind

/-! ### Computations that fail or change a state -/

namespace Postcondition

theorem mono {m : Type → Type} [Monad m] [LawfulMonad m] (L : Postcondition m) {α : Type}
    {P Q : α → Prop} {x : m α} (imp : ∀ a, P a → Q a) (hx : L.holds P x) : L.holds Q x := by
  rw [← bind_pure x]
  exact L.bind hx fun a ha => L.pure (imp a ha)

/-- What holds of a result, if there is one, from whatever state it was computed. -/
def ofState {ε σ : Type} : Postcondition (EStateM ε σ) where
  holds P x := ∀ s a s', x.run s = .ok a s' → P a
  pure h := by
    rintro s a s' ⟨⟩
    exact h
  bind := by
    intro α β P Q x f hx hf s b s' run
    rw [EStateM.run_bind] at run
    cases first : x.run s with
    | ok a mid =>
      rw [first] at run
      exact hf a (hx s a mid first) mid b s' run
    | error e mid =>
      rw [first] at run
      exact nomatch run

end Postcondition

namespace Sequence

open scoped List

/-! ### Orders -/

section Orders

variable {α β : Type} {S : α → Prop} {order : α → α → Ordering}

/-- A comparison that puts the elements with a property in one row, some perhaps side by side. -/
structure TotalPreorder (S : α → Prop) (order : α → α → Ordering) : Prop where
  swap : ∀ {a b}, S a → S b → order b a = (order a b).swap
  trans : ∀ {a b c}, S a → S b → S c → order a b ≠ .gt → order b c ≠ .gt → order a c ≠ .gt

theorem TotalPreorder.of_key [Ord β] [Std.TransOrd β] (key : α → β) :
    TotalPreorder S fun a b => compare (key a) (key b) where
  swap _ _ := Std.OrientedOrd.eq_swap
  trans _ _ _ := Std.TransCmp.le_trans

namespace TotalPreorder

variable (pre : TotalPreorder S order) {a b c : α}

include pre

theorem le_of_gt (inA : S a) (inB : S b) (behind : order a b = .gt) : order b a ≠ .gt := by
  simp [pre.swap inA inB, behind]

theorem le_of_eq (inA : S a) (inB : S b) (same : order a b = .eq) : order b a ≠ .gt := by
  simp [pre.swap inA inB, same]

theorem self (inA : S a) : order a a = .eq := by
  have turned := pre.swap inA inA
  cases here : order a a <;> simp_all

/-- The head of a list in order does not belong behind any of it. -/
theorem head_le {rest : List α} (inA : S a)
    (ordered : (a :: rest).Pairwise fun a b => order a b ≠ .gt) (mem : b ∈ a :: rest) :
    order a b ≠ .gt := by
  rcases List.mem_cons.1 mem with rfl | later
  · simp [pre.self inA]
  · exact List.rel_of_pairwise_cons ordered later

end TotalPreorder

/-! ### Stable arrangements -/

/-- The same elements in order, those that compare as equal standing as they stood. -/
structure SortedStably (S : α → Prop) (order : α → α → Ordering) (items sorted : List α) :
    Prop where
  perm : sorted.Perm items
  ordered : sorted.Pairwise fun a b => order a b ≠ .gt
  stable : ∀ a, S a → sorted.filter (order a · == .eq) = items.filter (order a · == .eq)

namespace SortedStably

variable {items sorted sorted' left right rest : List α} {l r : α}

/-- Sorting what sorted parts make up, one after the other, sorts what the parts were made of. -/
theorem of_parts {parts parts' : List α} (part : SortedStably S order items parts)
    (part' : SortedStably S order right parts')
    (whole : SortedStably S order (parts ++ parts') sorted) :
    SortedStably S order (items ++ right) sorted where
  perm := whole.perm.trans (part.perm.append part'.perm)
  ordered := whole.ordered
  stable a inA := by
    rw [whole.stable a inA, List.filter_append, List.filter_append, part.stable a inA,
      part'.stable a inA]

theorem of_length_le_one (short : items.length ≤ 1) : SortedStably S order items items where
  perm := .rfl
  ordered := by
    match items, short with
    | [], _ => exact .nil
    | [x], _ => exact List.pairwise_singleton _ x
  stable _ _ := rfl

/-- The head of the left run goes first where the head of the right one does not belong before
it. -/
theorem cons_left (pre : TotalPreorder S order) (inLeft : ∀ x ∈ l :: left, S x)
    (inRight : ∀ x ∈ r :: right, S x)
    (orderedLeft : (l :: left).Pairwise fun a b => order a b ≠ .gt)
    (orderedRight : (r :: right).Pairwise fun a b => order a b ≠ .gt) (follows : order l r ≠ .gt)
    (sorted : SortedStably S order (left ++ r :: right) rest) :
    SortedStably S order (l :: left ++ r :: right) (l :: rest) where
  perm := sorted.perm.cons l
  ordered := by
    refine List.pairwise_cons.2 ⟨fun x mem => ?_, sorted.ordered⟩
    have inL := inLeft l List.mem_cons_self
    have inR := inRight r List.mem_cons_self
    rcases List.mem_append.1 (sorted.perm.mem_iff.1 mem) with mem | mem
    · exact List.rel_of_pairwise_cons orderedLeft mem
    · rcases List.mem_cons.1 mem with rfl | later
      · exact follows
      · exact pre.trans inL inR (inRight x mem) follows
          (List.rel_of_pairwise_cons orderedRight later)
  stable a inA := by
    simp only [List.cons_append, List.filter_cons, sorted.stable a inA]

/-- The head of the right run goes first where it belongs before the head of the left one: nothing
of the left run compares as equal to it. -/
theorem cons_right (pre : TotalPreorder S order) (inLeft : ∀ x ∈ l :: left, S x)
    (inRight : ∀ x ∈ r :: right, S x)
    (orderedLeft : (l :: left).Pairwise fun a b => order a b ≠ .gt)
    (orderedRight : (r :: right).Pairwise fun a b => order a b ≠ .gt) (behind : order l r = .gt)
    (sorted : SortedStably S order (l :: left ++ right) rest) :
    SortedStably S order (l :: left ++ r :: right) (r :: rest) := by
  have inL := inLeft l List.mem_cons_self
  have inR := inRight r List.mem_cons_self
  have follows : ∀ x ∈ l :: left, order l x ≠ .gt := fun x => pre.head_le inL orderedLeft
  constructor
  · calc r :: rest
      _ ~ r :: (l :: left ++ right) := sorted.perm.cons r
      _ ~ l :: left ++ r :: right := List.perm_middle.symm
  · refine List.pairwise_cons.2 ⟨fun x mem => ?_, sorted.ordered⟩
    rcases List.mem_append.1 (sorted.perm.mem_iff.1 mem) with mem | mem
    · exact pre.trans inR inL (inLeft x mem) (pre.le_of_gt inL inR behind) (follows x mem)
    · exact List.rel_of_pairwise_cons orderedRight mem
  · intro a inA
    rw [List.filter_cons, sorted.stable a inA]
    rw [List.filter_append, List.filter_append, List.filter_cons (x := r)]
    split
    case isFalse other => rfl
    case isTrue same =>
      have none : (l :: left).filter (order a · == .eq) = [] := by
        refine List.filter_eq_nil_iff.2 fun x mem alike => ?_
        have inX := inLeft x mem
        have toA := pre.le_of_eq inA inX (by simpa using alike)
        have toR : order a r ≠ .gt := by simp_all
        exact pre.trans inL inX inR (follows x mem) (pre.trans inX inA inR toA toR) behind
      rw [none, List.nil_append, List.nil_append]

/-- What is sorted under a name that can be undone is sorted. -/
theorem of_map {β : Type} {S' : β → Prop} {order' : β → β → Ordering} {name : α → β} {named : β → α}
    (undone : ∀ a, named (name a) = a) (inside : ∀ a, S a → S' (name a))
    (renamed : SortedStably S' order' (items.map name) (sorted.map name)) :
    SortedStably S (fun a b => order' (name a) (name b)) items sorted where
  perm := by
    have back := renamed.perm.map named
    have same : named ∘ name = id := funext undone
    rwa [List.map_map, List.map_map, same, List.map_id, List.map_id] at back
  ordered := List.pairwise_map.1 renamed.ordered
  stable a inA := by
    have same := renamed.stable (name a) (inside a inA)
    rw [List.filter_map, List.filter_map] at same
    exact List.map_injective_iff.2 (Function.LeftInverse.injective undone) same

/-- Two lists in order are one list if they have the same elements, those that compare as equal in
the same order: their heads compare as equal, so one of them cannot come later in the other list. -/
theorem eq_of_ordered (pre : TotalPreorder S order) (inside : ∀ x ∈ sorted, S x)
    (perm : sorted.Perm sorted') (ordered : sorted.Pairwise fun a b => order a b ≠ .gt)
    (ordered' : sorted'.Pairwise fun a b => order a b ≠ .gt)
    (stable : ∀ a, S a → sorted.filter (order a · == .eq) = sorted'.filter (order a · == .eq)) :
    sorted = sorted' := by
  induction sorted generalizing sorted' with
  | nil => exact perm.nil_eq
  | cons x xs ih =>
    cases sorted' with
    | nil => exact perm.eq_nil
    | cons y ys =>
      have inX := inside x List.mem_cons_self
      have inY := inside y (perm.mem_iff.2 List.mem_cons_self)
      have same : order x y = .eq := by
        have upward := pre.head_le inX ordered (perm.mem_iff.2 List.mem_cons_self)
        have downward := pre.head_le inY ordered' (perm.mem_iff.1 List.mem_cons_self)
        rw [pre.swap inX inY] at downward
        cases here : order x y <;> simp_all
      have heads := stable x inX
      rw [List.filter_cons_of_pos (by simp [pre.self inX]),
        List.filter_cons_of_pos (by simp [same])] at heads
      obtain rfl : x = y := (List.cons.inj heads).1
      have tails : xs = ys := by
        refine ih (fun z mem => inside z (List.mem_cons_of_mem x mem)) perm.cons_inv
          ordered.of_cons ordered'.of_cons fun a inA => ?_
        have both := stable a inA
        rw [List.filter_cons, List.filter_cons] at both
        split at both
        · exact (List.cons.inj both).2
        · exact both
      rw [tails]

theorem unique (pre : TotalPreorder S order) (inside : ∀ x ∈ items, S x)
    (first : SortedStably S order items sorted) (second : SortedStably S order items sorted') :
    sorted = sorted' :=
  eq_of_ordered pre (fun x mem => inside x (first.perm.mem_iff.1 mem))
    (first.perm.trans second.perm.symm) first.ordered second.ordered fun a inA =>
      (first.stable a inA).trans (second.stable a inA).symm

end SortedStably

/-! ### Merge sort -/

section MergeSort

variable {m : Type → Type} [Monad m] {L : Postcondition m} {after : α → α → m Bool}

theorem merge_sortedStably (pre : TotalPreorder S order)
    (asks : ∀ x y, S x → S y → L.holds (· = (order x y == .gt)) (after x y)) {left right : List α}
    (inLeft : ∀ x ∈ left, S x) (inRight : ∀ x ∈ right, S x)
    (orderedLeft : left.Pairwise fun a b => order a b ≠ .gt)
    (orderedRight : right.Pairwise fun a b => order a b ≠ .gt) :
    L.holds (SortedStably S order (left ++ right)) (merge after left right) := by
  fun_induction merge after left right with
  | case1 right => exact L.pure ⟨.rfl, orderedRight, fun _ _ => rfl⟩
  | case2 left =>
    rw [List.append_nil]
    exact L.pure ⟨.rfl, orderedLeft, fun _ _ => rfl⟩
  | case3 l left r right ihRight ihLeft =>
    refine L.bind (asks l r (inLeft l List.mem_cons_self) (inRight r List.mem_cons_self)) ?_
    rintro _ rfl
    split
    case isTrue behind =>
      refine L.bind (ihRight inLeft (fun x mem => inRight x (List.mem_cons_of_mem r mem))
        orderedLeft orderedRight.of_cons) fun rest sorted => L.pure ?_
      exact sorted.cons_right pre inLeft inRight orderedLeft orderedRight (by simpa using behind)
    case isFalse follows =>
      refine L.bind (ihLeft (fun x mem => inLeft x (List.mem_cons_of_mem l mem)) inRight
        orderedLeft.of_cons orderedRight) fun rest sorted => L.pure ?_
      exact sorted.cons_left pre inLeft inRight orderedLeft orderedRight (by simpa using follows)

theorem mergeSort_sortedStably [LawfulMonad m] (pre : TotalPreorder S order)
    (asks : ∀ x y, S x → S y → L.holds (· = (order x y == .gt)) (after x y)) {xs : List α}
    (inside : ∀ x ∈ xs, S x) : L.holds (SortedStably S order xs) (mergeSort after xs) := by
  fun_induction mergeSort after xs with
  | case1 xs short => exact L.pure (.of_length_le_one short)
  | case2 xs _ ihLeft ihRight =>
    obtain ⟨inLeft, inRight⟩ := forall_mem_parts inside (xs.length / 2)
    refine L.bind (ihLeft inLeft) fun left sortedLeft => ?_
    refine L.bind (ihRight inRight) fun right sortedRight => ?_
    have merged := merge_sortedStably (L := L) pre asks
      (fun x mem => inLeft x (sortedLeft.perm.mem_iff.1 mem))
      (fun x mem => inRight x (sortedRight.perm.mem_iff.1 mem))
      sortedLeft.ordered sortedRight.ordered
    rw [← List.take_append_drop (xs.length / 2) xs]
    exact L.mono (fun _ => SortedStably.of_parts sortedLeft sortedRight) merged

end MergeSort

end Orders

/-! ### Counting comparisons -/

section Counting

variable {ε σ α β γ δ : Type} {compare : α → α → EStateM ε σ β} {S : α → Prop}

/-- A number of comparisons of elements with a property, one after the other. -/
inductive Compared (compare : α → α → EStateM ε σ β) (S : α → Prop) : Nat → σ → σ → Prop
  | none (s : σ) : Compared compare S 0 s s
  | next {a b : α} {answer : β} {n : Nat} {s s₁ s₂ : σ} (inA : S a) (inB : S b)
      (asked : (compare a b).run s = .ok answer s₁) (rest : Compared compare S n s₁ s₂) :
      Compared compare S (n + 1) s s₂

theorem Compared.append {n k : Nat} {s s₁ s₂ : σ} (first : Compared compare S n s s₁)
    (second : Compared compare S k s₁ s₂) : Compared compare S (n + k) s s₂ := by
  induction first with
  | none => rwa [Nat.zero_add]
  | @next _ _ _ n _ _ _ inA inB asked _ ih =>
    rw [Nat.add_right_comm]
    exact .next inA inB asked (ih second)

/-- What only compares ends with a result after so many comparisons, or with the failure of one. -/
def EndsWithin (compare : α → α → EStateM ε σ β) (S : α → Prop) (bound : Nat) (s : σ) :
    EStateM.Result ε σ γ → Prop
  | .ok _ s' => ∃ n ≤ bound, Compared compare S n s s'
  | .error e s' => ∃ n < bound, ∃ mid a b, Compared compare S n s mid ∧ S a ∧ S b ∧
      (compare a b).run mid = .error e s'

def ComparesWithin (compare : α → α → EStateM ε σ β) (S : α → Prop) (bound : Nat)
    (x : EStateM ε σ γ) : Prop :=
  ∀ s, EndsWithin compare S bound s (x.run s)

namespace ComparesWithin

variable {x : EStateM ε σ γ} {bound bound' : Nat}

theorem pure (c : γ) : ComparesWithin compare S bound (Pure.pure c) := fun s =>
  ⟨0, bound.zero_le, .none s⟩

theorem ask {a b : α} (inA : S a) (inB : S b) (f : β → γ) :
    ComparesWithin compare S 1 (do return f (← compare a b)) := by
  intro s
  rw [EStateM.run_bind]
  cases asked : (compare a b).run s with
  | ok answer s' => exact ⟨1, Nat.le_refl 1, .next inA inB asked (.none s')⟩
  | error e s' => exact ⟨0, Nat.zero_lt_one, s, a, b, .none s, inA, inB, asked⟩

theorem bind {P : γ → Prop} {f : γ → EStateM ε σ δ} (first : ComparesWithin compare S bound x)
    (result : Postcondition.ofState.holds P x)
    (second : ∀ c, P c → ComparesWithin compare S bound' (f c)) :
    ComparesWithin compare S (bound + bound') (x >>= f) := by
  intro s
  rw [EStateM.run_bind]
  have head := first s
  cases run : x.run s with
  | error e s' =>
    rw [run] at head
    obtain ⟨n, few, failed⟩ := head
    exact ⟨n, Nat.lt_add_right bound' few, failed⟩
  | ok c mid =>
    rw [run] at head
    obtain ⟨n, few, compared⟩ := head
    have tail := second c (result s c mid run) mid
    simp only
    cases run' : (f c).run mid with
    | ok d s' =>
      rw [run'] at tail
      obtain ⟨k, few', compared'⟩ := tail
      exact ⟨n + k, Nat.add_le_add few few', compared.append compared'⟩
    | error e s' =>
      rw [run'] at tail
      obtain ⟨k, few', late, a, b, compared', failed⟩ := tail
      exact ⟨n + k, Nat.add_lt_add_of_le_of_lt few few', late, a, b, compared.append compared',
        failed⟩

theorem map (f : γ → δ) (h : ComparesWithin compare S bound x) :
    ComparesWithin compare S bound (do return f (← x)) :=
  have done (c : γ) (_ : True) : ComparesWithin compare S 0 (Pure.pure (f c)) := .pure (f c)
  h.bind (fun _ _ _ _ => trivial) done

theorem mono (few : bound ≤ bound') (h : ComparesWithin compare S bound x) :
    ComparesWithin compare S bound' x := by
  intro s
  have ends := h s
  cases run : x.run s with
  | ok c s' =>
    rw [run] at ends
    obtain ⟨n, within, compared⟩ := ends
    exact ⟨n, within.trans few, compared⟩
  | error e s' =>
    rw [run] at ends
    obtain ⟨n, within, failed⟩ := ends
    exact ⟨n, within.trans_le few, failed⟩

end ComparesWithin

variable {after : α → α → EStateM ε σ Bool}

/-- Each comparison settles one element of the merged list. -/
theorem merge_compares (asks : ∀ a b, S a → S b → ComparesWithin compare S 1 (after a b))
    {left right : List α} (inLeft : ∀ x ∈ left, S x) (inRight : ∀ x ∈ right, S x) :
    ComparesWithin compare S (left.length + right.length) (merge after left right) := by
  fun_induction merge after left right with
  | case1 right => exact .pure right
  | case2 left => exact .pure left
  | case3 l left r right ihRight ihLeft =>
    have asked := asks l r (inLeft l List.mem_cons_self) (inRight r List.mem_cons_self)
    have step : ∀ behind : Bool, ComparesWithin compare S (left.length + right.length + 1)
        (if behind then do
          let rest ← merge after (l :: left) right
          return r :: rest
        else do
          let rest ← merge after left (r :: right)
          return l :: rest) := by
      intro behind
      split
      · have rest := ihRight inLeft fun x mem => inRight x (List.mem_cons_of_mem r mem)
        exact (rest.map (r :: ·)).mono (by simp only [List.length_cons]; omega)
      · have rest := ihLeft (fun x mem => inLeft x (List.mem_cons_of_mem l mem)) inRight
        exact (rest.map (l :: ·)).mono (by simp only [List.length_cons]; omega)
    have whole := asked.bind (P := fun _ => True) (fun _ _ _ _ => trivial) fun b _ => step b
    exact whole.mono (by simp only [List.length_cons]; omega)

/-- Halving a list of two elements or more takes one from the depth of the recursion. -/
theorem halves_comparisons {n : Nat} (two : 2 ≤ n) :
    n / 2 * Nat.clog 2 (n / 2) + ((n - n / 2) * Nat.clog 2 (n - n / 2) + n) ≤ n * Nat.clog 2 n := by
  have depth : Nat.clog 2 n = Nat.clog 2 (n - n / 2) + 1 := by
    rw [Nat.clog_of_two_le Nat.one_lt_two two]
    congr 2
    omega
  have less : Nat.clog 2 (n / 2) ≤ Nat.clog 2 (n - n / 2) := Nat.clog_mono_right 2 (by omega)
  calc n / 2 * Nat.clog 2 (n / 2) + ((n - n / 2) * Nat.clog 2 (n - n / 2) + n)
    _ ≤ n / 2 * Nat.clog 2 (n - n / 2) + ((n - n / 2) * Nat.clog 2 (n - n / 2) + n) :=
      Nat.add_le_add_right (Nat.mul_le_mul_left _ less) _
    _ = (n / 2 + (n - n / 2)) * Nat.clog 2 (n - n / 2) + n := by
      rw [Nat.add_mul, Nat.add_assoc]
    _ = n * Nat.clog 2 n := by
      rw [Nat.add_sub_cancel' (Nat.div_le_self n 2), depth, Nat.mul_add, Nat.mul_one]

theorem mergeSort_compares (asks : ∀ a b, S a → S b → ComparesWithin compare S 1 (after a b))
    {xs : List α} (inside : ∀ x ∈ xs, S x) :
    ComparesWithin compare S (xs.length * Nat.clog 2 xs.length) (mergeSort after xs) := by
  have settles : ∀ {ys : List α}, (∀ x ∈ ys, S x) →
      Postcondition.ofState.holds (·.Perm ys) (mergeSort after ys) := fun inYs =>
    mergeSort_perm (L := .ofState) (fun _ _ _ _ _ _ _ _ => trivial) inYs
  fun_induction mergeSort after xs with
  | case1 xs => exact .pure xs
  | case2 xs long ihLeft ihRight =>
    obtain ⟨inLeft, inRight⟩ := forall_mem_parts inside (xs.length / 2)
    have merged : ∀ left, left.Perm (xs.take (xs.length / 2)) →
        ∀ right, right.Perm (xs.drop (xs.length / 2)) →
        ComparesWithin compare S xs.length (merge after left right) := by
      intro left leftPerm right rightPerm
      have compared := merge_compares asks (fun x mem => inLeft x (leftPerm.mem_iff.1 mem))
        fun x mem => inRight x (rightPerm.mem_iff.1 mem)
      rwa [leftPerm.length_eq, rightPerm.length_eq, ← List.length_append,
        List.take_append_drop] at compared
    have whole := (ihLeft inLeft).bind (settles inLeft) fun left leftPerm =>
      (ihRight inRight).bind (settles inRight) (merged left leftPerm)
    refine whole.mono ?_
    rw [List.length_take_of_le (Nat.div_le_self _ 2), List.length_drop]
    exact halves_comparisons (by omega)

end Counting

/-! ### Sorting values -/

/-- The values of a list that a sort compares. -/
def Defined (items : List Value) (v : Value) : Prop := v ∈ items ∧ v.isUndefined = false

theorem defined_of_mem (items : List Value) :
    ∀ v ∈ items.filter (!·.isUndefined), Defined items v := by
  intro v mem
  simpa [Defined] using mem

/-- The values of a list in order, those that compare as equal standing as they stood, and after
them the undefined ones. -/
structure StablyArranges (order : Value → Value → Ordering) (items sorted : List Value) : Prop
    extends Arranges items sorted where
  defined : SortedStably (Defined items) order (items.filter (!·.isUndefined))
    (sorted.filter (!·.isUndefined))

theorem isUndefined_iff {v : Value} : v.isUndefined ↔ v = .undefined := by
  cases v <;> simp [Value.isUndefined]

/-- An arrangement is its defined values and then as many undefined ones as are missing. -/
theorem Arranges.eq_front_append {items sorted : List Value} (arranged : Arranges items sorted) :
    sorted = sorted.filter (!·.isUndefined) ++ List.replicate
      (sorted.length - (sorted.filter (!·.isUndefined)).length) .undefined := by
  have last := arranged.undefinedLast
  clear arranged
  induction sorted with
  | nil => rfl
  | cons v vs ih =>
    obtain ⟨first, rest⟩ := List.pairwise_cons.1 last
    cases here : v.isUndefined with
    | false =>
      rw [List.filter_cons_of_pos (by simp [here]), List.length_cons, List.length_cons,
        Nat.add_sub_add_right, List.cons_append, ← ih rest]
    | true =>
      have all : ∀ u ∈ v :: vs, u = .undefined := by
        intro u mem
        rcases List.mem_cons.1 mem with rfl | later
        · exact isUndefined_iff.1 here
        · exact isUndefined_iff.1 (first u later here)
      have none : (v :: vs).filter (!·.isUndefined) = [] :=
        List.filter_eq_nil_iff.2 fun u mem => by simp [all u mem, Value.isUndefined]
      rw [none, List.nil_append, List.length_nil, Nat.sub_zero]
      exact List.eq_replicate_iff.2 ⟨rfl, all⟩

theorem StablyArranges.of_front {order : Value → Value → Ordering} {items front : List Value}
    (sorted : SortedStably (Defined items) order (items.filter (!·.isUndefined)) front) :
    StablyArranges order items (front ++ items.filter (·.isUndefined)) where
  toArranges := .of_front sorted.perm
  defined := by
    have compared : front.filter (!·.isUndefined) = front := by
      refine List.filter_eq_self.2 fun v mem => ?_
      exact (List.mem_filter.1 (sorted.perm.mem_iff.1 mem)).2
    have rest : (items.filter (·.isUndefined)).filter (!·.isUndefined) = [] := by
      simp [List.filter_filter]
    rwa [List.filter_append, compared, rest, List.append_nil]

/-- Only one list is a stable arrangement: the defined values stand in front, and undefined values
are alike. -/
theorem StablyArranges.unique {order : Value → Value → Ordering} {items sorted sorted' : List Value}
    (pre : TotalPreorder (Defined items) order) (first : StablyArranges order items sorted)
    (second : StablyArranges order items sorted') : sorted = sorted' := by
  have front := first.defined.unique pre (defined_of_mem items) second.defined
  rw [first.eq_front_append, second.eq_front_append, front, first.perm.length_eq,
    second.perm.length_eq]

theorem sortDefined_stablyArranges {m : Type → Type} [Monad m] [LawfulMonad m]
    {L : Postcondition m} {items : List Value} {after : Value → Value → m Bool}
    {order : Value → Value → Ordering} (pre : TotalPreorder (Defined items) order)
    (asks : ∀ a b, Defined items a → Defined items b →
      L.holds (· = (order a b == .gt)) (after a b)) :
    L.holds (StablyArranges order items) (sortDefined after items) := by
  refine L.bind (mergeSort_sortedStably pre asks (defined_of_mem items)) fun front sorted => ?_
  exact L.pure (.of_front sorted)

/-- The order of the numbers' signs, for numbers that a comparison gives. -/
def SignOf {m : Type → Type} [Monad m] (L : Postcondition m) (compare : Value → Value → m Double)
    (items : List Value) (order : Value → Value → Ordering) : Prop :=
  ∀ a b, Defined items a → Defined items b → L.holds (·.sign = order a b) (compare a b)

theorem sortBy_stablyArranges {m : Type → Type} [Monad m] [LawfulMonad m] {L : Postcondition m}
    {items : List Value} {compare : Value → Value → m Double} {order : Value → Value → Ordering}
    (pre : TotalPreorder (Defined items) order) (sign : SignOf L compare items order) :
    L.holds (StablyArranges order items) (sortBy compare items) := by
  refine sortDefined_stablyArranges pre fun a b inA inB => ?_
  refine L.bind (sign a b inA inB) fun d side => L.pure ?_
  rw [Double.zero_lt, side]

theorem sortBy_compares {ε σ : Type} (compare : Value → Value → EStateM ε σ Double)
    (items : List Value) : ComparesWithin compare (Defined items)
      (items.length * Nat.clog 2 items.length) (sortBy compare items) := by
  have asks (a b : Value) (inA : Defined items a) (inB : Defined items b) :
      ComparesWithin compare (Defined items) 1
        (do return (Double.zero false).lt (← compare a b)) :=
    .ask inA inB _
  have compared := mergeSort_compares asks (defined_of_mem items)
  have fewer := List.length_filter_le (fun v : Value => !v.isUndefined) items
  refine (compared.map (· ++ items.filter (·.isUndefined))).mono ?_
  exact Nat.mul_le_mul fewer (Nat.clog_mono_right 2 fewer)

/-! ### Sorting by texts -/

theorem lt_eq_compare (a b : Utf16) : a.lt b = (compare a b == .lt) := by
  fun_induction Utf16.lt a b with
  | case1 a => cases a <;> rfl
  | case2 b bs => rfl
  | case3 a as b bs ih =>
    rw [List.compare_cons_cons, ih]
    have unit : compare a b = compareOfLessAndEq a b := rfl
    simp only [unit, compareOfLessAndEq]
    by_cases before : a < b
    · simp [before]
    · by_cases same : a = b <;> simp [before, same]

theorem sortByText_stablyArranges (key : Value → Utf16) (items : List Value) :
    StablyArranges (fun a b => compare (key a) (key b)) items (sortByText key items) := by
  let name : Value → Utf16 × Value := fun v => (key v, v)
  let order : Utf16 × Value → Utf16 × Value → Ordering := fun p q => compare p.1 q.1
  let keyed := (items.filter (!·.isUndefined)).map name
  let sorting : Id _ := mergeSort (fun p q => pure (q.1.lt p.1)) keyed
  have sorted : SortedStably (fun _ => True) order keyed sorting.run := by
    refine mergeSort_sortedStably (L := .ofPure) (.of_key Prod.fst) (fun p q _ _ => ?_)
      fun _ _ => trivial
    change q.1.lt p.1 = (compare p.1 q.1 == .gt)
    rw [lt_eq_compare, Std.OrientedOrd.eq_swap]
    cases compare p.1 q.1 <;> rfl
  have named : (sorting.run.map Prod.snd).map name = sorting.run := by
    rw [List.map_map]
    refine (List.map_congr_left fun p mem => ?_).trans (List.map_id _)
    obtain ⟨v, -, rfl⟩ := List.mem_map.1 (sorted.perm.mem_iff.1 mem)
    rfl
  rw [← named] at sorted
  have plain : SortedStably (Defined items) (fun a b => order (name a) (name b)) _ _ :=
    sorted.of_map (show ∀ v, (name v).2 = v from fun _ => rfl) fun _ _ => trivial
  exact .of_front plain

/-- The order of the texts that values have, by their code units. -/
def textOrder (h : Heap) (a b : Value) : Ordering :=
  compare (Utf16.ofChars (h.text a)) (Utf16.ofChars (h.text b))

/-- Whatever a comparison does, a sort ends after a bounded number of comparisons of defined values,
or at once where one fails; its result has the given values, the undefined ones last. If the sign of
the comparison orders the defined values, they are in order, equal ones as they stood. The sort by
texts is the sort by the order of their code units, and what any comparison of that sign gives. -/
theorem sorts_stably :
    (∀ {ε σ : Type} (compare : Value → Value → EStateM ε σ Double) (items : List Value) (s : σ),
      EndsWithin compare (Defined items) (items.length * Nat.clog 2 items.length) s
        ((sortBy compare items).run s) ∧
      ∀ sorted s', (sortBy compare items).run s = .ok sorted s' →
        Arranges items sorted ∧
        ∀ order, TotalPreorder (Defined items) order → SignOf .ofState compare items order →
          StablyArranges order items sorted) ∧
    ∀ (h : Heap) (items : List Value),
      let sorted := sortByText (fun v => Utf16.ofChars (h.text v)) items
      TotalPreorder (Defined items) (textOrder h) ∧ StablyArranges (textOrder h) items sorted ∧
      ∀ {ε σ : Type} (compare : Value → Value → EStateM ε σ Double),
        SignOf .ofState compare items (textOrder h) →
        ∀ s sorted' s', (sortBy compare items).run s = .ok sorted' s' → sorted' = sorted := by
  refine ⟨fun compare items s => ⟨sortBy_compares compare items s, fun sorted s' run => ⟨?_, ?_⟩⟩,
    fun h items => ?_⟩
  · exact sortDefined_arranges (L := .ofState) (fun _ _ _ _ _ _ _ _ _ _ => trivial) s sorted s' run
  · intro order pre sign
    exact sortBy_stablyArranges pre sign s sorted s' run
  · have pre : TotalPreorder (Defined items) (textOrder h) :=
      .of_key fun v => Utf16.ofChars (h.text v)
    have byText : StablyArranges (textOrder h) items _ := sortByText_stablyArranges _ items
    refine ⟨pre, byText, fun compare sign s sorted' s' run => ?_⟩
    have byCompare := sortBy_stablyArranges pre sign s sorted' s' run
    exact byCompare.unique pre byText

/-- A comparison that counts its uses and says that values are alike by not-a-number. -/
def counting (order : Value → Value → Ordering) (a b : Value) : EStateM Unit Nat Double := do
  modify (· + 1)
  return match order a b with
    | .lt => .infinity true
    | .eq => .nan
    | .gt => .infinity false

theorem signOf_counting (order : Value → Value → Ordering) (items : List Value) :
    SignOf .ofState (counting order) items order := by
  intro a b _ _ s d s' run
  injection run with result
  subst result
  cases order a b <;> rfl

def truthOrder (a b : Value) : Ordering := compare a.truthy.toNat b.truthy.toNat

theorem sorts_stably_counting :
    let alike : List Value := [.bool true, .undefined, .null, .bool false]
    let arranged : List Value := [.null, .bool false, .bool true, .undefined]
    let texts : List Value := [.string "\uFFFD", .string "😀"]
    (sortBy (counting truthOrder) alike).run 0 = .ok arranged 3 ∧
      StablyArranges truthOrder alike arranged ∧
      (sortBy (counting (textOrder {})) texts).run 0 = .ok [texts[1], texts[0]] 1 ∧
      sortByText (fun v => Utf16.ofChars (({} : Heap).text v)) texts = [texts[1], texts[0]] := by
  have run : (sortBy (counting truthOrder) [.bool true, .undefined, .null, .bool false]).run 0 =
      .ok [.null, .bool false, .bool true, .undefined] 3 := by cbv
  have behind : textOrder {} (.string "\uFFFD") (.string "😀") = .gt := by decide +kernel
  -- the texts themselves are not computed while the sort runs
  have turned : ∀ order : Value → Value → Ordering, order (.string "\uFFFD") (.string "😀") = .gt →
      (sortBy (counting order) [.string "\uFFFD", .string "😀"]).run 0 =
        .ok [.string "😀", .string "\uFFFD"] 1 := by
    intro order behind
    cbv
    rw [behind]
    rfl
  have run' := turned (textOrder {}) behind
  refine ⟨run, ?_, run', ?_⟩
  · exact ((sorts_stably.1 (counting truthOrder) _ 0).2 _ _ run).2 truthOrder (.of_key _)
      (signOf_counting _ _)
  · exact ((sorts_stably.2 {} _).2.2 _ (signOf_counting _ _) 0 _ _ run').symm

end Sequence

end ScriptBridge
