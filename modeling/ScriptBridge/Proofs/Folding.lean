import Mathlib.Data.List.Chain
import ScriptBridge.Proofs.CallbackMethods

/-!
Folding a sequence that the callback may change. Each position the sequence has at the start has its
turn, upward or downward; one where nothing is at its turn is skipped, since downward others may
still be there after it. What is handed on from turn to turn are the result so far and the world.
-/

namespace ScriptBridge

/-- Who folds a sequence: a callback, and from where it is called. -/
structure Folder where
  reentry : Reentry
  sequence : SequenceId
  callback : Callback

/-- The turn of a position, with the result so far and the world it begins in. -/
structure Turn where
  index : Nat
  result : Value
  before : World

namespace Folder

variable (k : Folder)

/-- What there is at a position at its turn. -/
def element? (t : Turn) : Option Value := (t.before.heap.sequence k.sequence)[t.index]?

def call (result x : Value) (i : Nat) : HostAct Value :=
  Bridge.invoke k.reentry k.callback .undefined [result, x, .ofNat i, .sequence k.sequence]

/-- What a turn comes to: what the callback makes of the result so far and the element, or the
result so far where there is none. -/
def after (t : Turn) : Outcome Error Value × World :=
  match k.element? t with
  | some x => k.call t.result x t.index t.before
  | none => (.value t.result, t.before)

/-- The turns of some positions; a call that fails is in the last one. -/
def turns : List Nat → Value → World → List Turn
  | [], _, _ => []
  | i :: rest, result, w =>
    ⟨i, result, w⟩ ::
      match k.after ⟨i, result, w⟩ with
      | (.value next, w') => turns rest next w'
      | _ => []

/-- The fold over some positions. -/
def fold (positions : List Nat) (seed : Value) : HostAct Value :=
  Sequence.foldOver (Sequence.slot? k.sequence)
    (Sequence.foldValue k.reentry k.sequence k.callback) seed positions

section

variable {k} {i : Nat} {rest : List Nat} {result next : Value} {w w' : World}

theorem turns_of_value (h : k.after ⟨i, result, w⟩ = (.value next, w')) :
    k.turns (i :: rest) result w = ⟨i, result, w⟩ :: k.turns rest next w' := by
  rw [turns, h]

theorem turns_of_stop (h : ∀ v, (k.after ⟨i, result, w⟩).1 ≠ .value v) :
    k.turns (i :: rest) result w = [⟨i, result, w⟩] := by
  rw [turns]
  split
  case h_1 gives => exact absurd (congrArg Prod.fst gives) (h _)
  case h_2 => rfl

/-- A fold goes on with what its first turn comes to. -/
theorem fold_cons (k : Folder) (i : Nat) (rest : List Nat) (result : Value) (w : World) :
    k.fold (i :: rest) result w =
      match k.after ⟨i, result, w⟩ with
      | (.value next, w') => k.fold rest next w'
      | stop => stop := by
  have here : Sequence.slot? k.sequence i w = (.value (k.element? ⟨i, result, w⟩), w) := rfl
  rw [fold, Sequence.foldOver, Act.bind_of_value here, after]
  cases k.element? ⟨i, result, w⟩ with
  | none => rfl
  | some x =>
    change (k.call result x i >>= fun next => k.fold rest next) w = _
    rw [Act.run_bind]
    dsimp only
    rcases k.call result x i w with ⟨_ | _ | _, w'⟩ <;> rfl

theorem fold_of_value (h : k.after ⟨i, result, w⟩ = (.value next, w')) :
    k.fold (i :: rest) result w = k.fold rest next w' := by
  rw [fold_cons, h]

theorem fold_of_stop (h : ∀ v, (k.after ⟨i, result, w⟩).1 ≠ .value v) :
    k.fold (i :: rest) result w = k.after ⟨i, result, w⟩ := by
  rw [fold_cons]
  split
  case h_1 gives => exact absurd (congrArg Prod.fst gives) (h _)
  case h_2 => rfl

end

end Folder

/-! ### Turns -/

/-- A fold over positions from a seed, by its turns and what it comes to. -/
structure Folding (k : Folder) (positions : List Nat) (seed : Value) (w : World)
    (turns : List Turn) (ran : Outcome Error Value × World) : Prop where
  /-- The positions have their turns in order, none twice and none left out. -/
  inOrder : turns.map (·.index) = positions.take turns.length
  first : ∀ t ∈ turns.head?, t.result = seed ∧ t.before = w
  /-- Every turn begins with the result and the world that the one before came to. -/
  linked : turns.IsChain fun t u => k.after t = (.value u.result, u.before)
  /-- What the last turn comes to is what the fold comes to. -/
  last : ran = (turns.getLast?.map k.after).getD (.value seed, w)
  /-- Only a call without a result ends a fold before all positions had their turns. -/
  complete : turns.length = positions.length ∨ ∀ v, ran.1 ≠ .value v

namespace Folding

variable {k : Folder} {i : Nat} {rest : List Nat} {seed next : Value} {w w' : World}
  {turns : List Turn} {ran : Outcome Error Value × World}

theorem nil (k : Folder) (seed : Value) (w : World) : Folding k [] seed w [] (.value seed, w) where
  inOrder := rfl
  first _ none := by cases none
  linked := .nil
  last := rfl
  complete := .inl rfl

theorem cons (gives : k.after ⟨i, seed, w⟩ = (.value next, w'))
    (folding : Folding k rest next w' turns ran) :
    Folding k (i :: rest) seed w (⟨i, seed, w⟩ :: turns) ran where
  inOrder := by
    rw [List.map_cons, folding.inOrder]
    rfl
  first t here := by
    cases here
    exact ⟨rfl, rfl⟩
  linked := by
    refine List.isChain_cons.2 ⟨fun t here => ?_, folding.linked⟩
    obtain ⟨result, before⟩ := folding.first t here
    rw [result, before]
    exact gives
  last := by
    rw [folding.last, List.getLast?_cons]
    cases turns.getLast? with
    | none => exact gives.symm
    | some t => rfl
  complete := folding.complete.imp_left (congrArg (· + 1))

theorem stop (stops : ∀ v, (k.after ⟨i, seed, w⟩).1 ≠ .value v) (rest : List Nat) :
    Folding k (i :: rest) seed w [⟨i, seed, w⟩] (k.after ⟨i, seed, w⟩) where
  inOrder := rfl
  first t here := by
    cases here
    exact ⟨rfl, rfl⟩
  linked := .singleton _
  last := rfl
  complete := .inr stops

end Folding

/-- What a turn comes to is a result or none. -/
theorem Folder.value_or_stop (k : Folder) (t : Turn) :
    (∃ next w', k.after t = (.value next, w')) ∨ ∀ v, (k.after t).1 ≠ .value v := by
  rcases k.after t with ⟨next | e | _, w'⟩
  · exact .inl ⟨next, w', rfl⟩
  · exact .inr fun _ gives => by cases gives
  · exact .inr fun _ gives => by cases gives

theorem Folder.folding (k : Folder) (positions : List Nat) (seed : Value) (w : World) :
    Folding k positions seed w (k.turns positions seed w) (k.fold positions seed w) := by
  induction positions generalizing seed w with
  | nil => exact .nil k seed w
  | cons i rest ih =>
    obtain ⟨next, w', gives⟩ | stops := k.value_or_stop ⟨i, seed, w⟩
    · rw [turns_of_value gives, fold_of_value gives]
      exact .cons gives (ih next w')
    · rw [turns_of_stop stops, fold_of_stop stops]
      exact .stop stops rest

/-! ### Both directions -/

namespace Folder

variable {k k' : Folder} {n : Nat} {items : List Value} {positions : List Nat} {seed : Value}
  {w : World}

/-- A turn changes neither of two sequences. -/
def Spares (k : Folder) (s t : SequenceId) (turn : Turn) : Prop :=
  (k.after turn).2.heap.sequence s = turn.before.heap.sequence s ∧
    (k.after turn).2.heap.sequence t = turn.before.heap.sequence t

/-- At the opposite position of the reversed sequence, another folder's callback is called to the
same effect. -/
def Mirrors (k k' : Folder) (n : Nat) (turn : Turn) : Prop :=
  ∀ x, k.element? turn = some x →
    k'.call turn.result x (n - 1 - turn.index) turn.before =
      k.call turn.result x turn.index turn.before

theorem after_mirrored {i : Nat} (inside : i < items.length)
    (here : w.heap.sequence k.sequence = items)
    (there : w.heap.sequence k'.sequence = items.reverse)
    (mirrors : Mirrors k k' items.length ⟨i, seed, w⟩) :
    k'.after ⟨items.length - 1 - i, seed, w⟩ = k.after ⟨i, seed, w⟩ := by
  have element : k.element? ⟨i, seed, w⟩ = some items[i] := by
    rw [element?, here, List.getElem?_eq_getElem inside]
  have opposite : k'.element? ⟨items.length - 1 - i, seed, w⟩ = some items[i] := by
    have back : items.length - 1 - (items.length - 1 - i) = i := by omega
    have turned : items.reverse[items.length - 1 - i]? = items[i]? := by
      rw [List.getElem?_reverse (by omega), back]
    rw [element?, there, turned, List.getElem?_eq_getElem inside]
  rw [after, after, element, opposite]
  exact mirrors _ element

/-- As long as no turn changes the sequence or its reverse, folding the one is folding the other
with the positions counted from the other end. -/
theorem fold_mirrored (inside : ∀ i ∈ positions, i < items.length)
    (here : w.heap.sequence k.sequence = items)
    (there : w.heap.sequence k'.sequence = items.reverse)
    (spares : ∀ turn ∈ k.turns positions seed w, k.Spares k.sequence k'.sequence turn)
    (mirrors : ∀ turn ∈ k.turns positions seed w, Mirrors k k' items.length turn) :
    k'.fold (positions.map (items.length - 1 - ·)) seed w = k.fold positions seed w := by
  induction positions generalizing seed w with
  | nil => rfl
  | cons i rest ih =>
    rw [turns, List.forall_mem_cons] at spares mirrors
    have same := after_mirrored (inside i List.mem_cons_self) here there mirrors.1
    rw [List.map_cons]
    obtain ⟨next, w', gives⟩ | stops := k.value_or_stop ⟨i, seed, w⟩
    · obtain ⟨⟨keepsHere, keepsThere⟩, spares⟩ := spares
      rw [gives] at keepsHere keepsThere spares mirrors
      rw [fold_of_value gives, fold_of_value (same.trans gives)]
      exact ih (fun j mem => inside j (List.mem_cons_of_mem i mem)) (keepsHere.trans here)
        (keepsThere.trans there) spares mirrors.2
    · rw [fold_of_stop stops, fold_of_stop (same ▸ stops), same]

end Folder

/-! ### Methods -/

namespace Sequence

variable {r : Reentry} {s : SequenceId} {method : SequenceMethod} {args : List Value} {f : Callback}
  {seed : Value} {w : World}

/-- The order in which a method folds the positions of a sequence of some length. -/
def foldOrder : SequenceMethod → Nat → List Nat
  | .reduceRight, length => (List.range length).reverse
  | _, length => List.range length

/-- What a call of a method answers with the result of a fold. -/
def answered (ran : Outcome Error Value × World) : Outcome Error Answer × World :=
  match ran with
  | (.value v, w) => (.value (.value v), w)
  | (.failure e, w) => (.failure e, w)
  | (.exhausted, w) => (.exhausted, w)

theorem answered_bind (x : HostAct Value) (w : World) :
    (x >>= fun v => pure (Answer.value v)) w = answered (x w) := by
  rw [Act.run_bind]
  rcases x w with ⟨_ | _ | _, w'⟩ <;> rfl

theorem call_of_folds (folds : method = .reduce ∨ method = .reduceRight) (w : World) :
    call r s method args w = answered (reduceOver r s method args (foldOrder method) w) := by
  obtain rfl | rfl := folds
  · exact answered_bind (reduceOver r s .reduce args List.range) w
  · exact answered_bind (reduceOver r s .reduceRight args fun n => (List.range n).reverse) w

/-- The start and the positions of a fold are known before its first turn. -/
theorem reduceOver_eq (given : args.head? = some (.function f)) (positions : Nat → List Nat)
    (w : World) :
    reduceOver r s method args positions w =
      (do
        match ← Sequence.fold (slot? s) (foldValue r s f) args[1]?
            (positions (w.heap.sequence s).length) with
        | some v => return v
        | none => Act.fail (.logic (.emptyFold method.name)) : HostAct Value) w := by
  obtain ⟨rest, rfl⟩ := List.head?_eq_some_iff.1 given
  rfl

theorem reduceOver_seeded (given : args.head? = some (.function f)) (seeded : args[1]? = some seed)
    (positions : Nat → List Nat) (w : World) :
    reduceOver r s method args positions w =
      Folder.fold ⟨r, s, f⟩ (positions (w.heap.sequence s).length) seed w := by
  rw [reduceOver_eq given, seeded, fold]
  simp only [map_eq_pure_bind, bind_assoc, pure_bind]
  rw [bind_pure]
  rfl

theorem reduceOver_unseeded (given : args.head? = some (.function f)) (unseeded : args[1]? = none)
    {positions : Nat → List Nat} {first : Nat} {rest : List Nat}
    (order : positions (w.heap.sequence s).length = first :: rest)
    (here : (w.heap.sequence s)[first]? = some seed) :
    reduceOver r s method args positions w = Folder.fold ⟨r, s, f⟩ rest seed w := by
  have slot : slot? s first w = (.value (some seed), w) := by
    rw [← here]
    rfl
  rw [reduceOver_eq given, unseeded, order, fold]
  simp only [bind_assoc]
  rw [Act.bind_of_value slot]
  simp only [map_eq_pure_bind, bind_assoc, pure_bind]
  rw [bind_pure]
  rfl

theorem reduceOver_empty (given : args.head? = some (.function f)) (unseeded : args[1]? = none)
    {positions : Nat → List Nat} (order : positions (w.heap.sequence s).length = []) :
    reduceOver r s method args positions w = (.failure (.logic (.emptyFold method.name)), w) := by
  rw [reduceOver_eq given, unseeded, order]
  rfl

theorem foldOrder_of_pos (method : SequenceMethod) {length : Nat} (pos : 0 < length) :
    ∃ first rest, foldOrder method length = first :: rest ∧ first < length := by
  have bounded : ∀ i ∈ foldOrder method length, i < length := by
    intro i mem
    unfold foldOrder at mem
    split at mem
    · exact List.mem_range.1 (List.mem_reverse.1 mem)
    · exact List.mem_range.1 mem
  have some : foldOrder method length ≠ [] := by
    unfold foldOrder
    split <;> simp [Nat.ne_of_gt pos]
  obtain ⟨first, rest, order⟩ := List.exists_cons_of_ne_nil some
  exact ⟨first, rest, order, bounded first (order ▸ List.mem_cons_self)⟩

theorem map_opposite (length : Nat) :
    (List.range length).reverse.map (length - 1 - ·) = List.range length := by
  refine List.ext_getElem (by simp) fun i inside inside' => ?_
  simp only [List.length_map, List.length_reverse, List.length_range] at inside
  simp only [List.getElem_map, List.getElem_reverse, List.getElem_range, List.length_range]
  omega

/-- A fold calls its callback on what is there at the turn of each position, whatever the callback
does, and its answer is the last result. It fails by itself only for want of a start. A callback
that changes no sequence makes the same of a sequence from its end as of the reversed one from its
beginning. -/
theorem reductions_fold_live_elements (r : Reentry) (s : SequenceId) (f : Callback) (w : World) :
    let k : Folder := ⟨r, s, f⟩
    let items := w.heap.sequence s
    (∀ method args, method = .reduce ∨ method = .reduceRight → args.head? = some (.function f) →
      (∀ seed, args[1]? = some seed → ∃ ran,
        Folding k (foldOrder method items.length) seed w
          (k.turns (foldOrder method items.length) seed w) ran ∧
        call r s method args w = answered ran) ∧
      (args[1]? = none → items = [] →
        call r s method args w = (.failure (.logic (.emptyFold method.name)), w)) ∧
      (args[1]? = none → items ≠ [] → ∃ first rest seed ran,
        foldOrder method items.length = first :: rest ∧ items[first]? = some seed ∧
        Folding k rest seed w (k.turns rest seed w) ran ∧
        call r s method args w = answered ran)) ∧
    ∀ t g seed, w.heap.sequence t = items.reverse →
      (∀ turn ∈ k.turns (foldOrder .reduceRight items.length) seed w,
        k.Spares s t turn ∧ k.Mirrors ⟨r, t, g⟩ items.length turn) →
      call r s .reduceRight [.function f, seed] w = call r t .reduce [.function g, seed] w := by
  intro k items
  constructor
  · intro method args folds given
    refine ⟨fun seed seeded => ?_, fun unseeded empty => ?_, fun unseeded some => ?_⟩
    · rw [call_of_folds folds, reduceOver_seeded given seeded]
      exact ⟨_, k.folding _ seed w, rfl⟩
    · have order : foldOrder method items.length = [] := by
        rw [empty]
        unfold foldOrder
        split <;> rfl
      rw [call_of_folds folds, reduceOver_empty given unseeded order]
      rfl
    · obtain ⟨first, rest, order, inside⟩ :=
        foldOrder_of_pos method (List.length_pos_of_ne_nil some)
      have here := List.getElem?_eq_getElem inside
      rw [call_of_folds folds, reduceOver_unseeded given unseeded order here]
      exact ⟨first, rest, _, _, order, here, k.folding rest _ w, rfl⟩
  · intro t g seed reversed turns
    have mirrored : (⟨r, t, g⟩ : Folder).fold
        ((foldOrder .reduceRight items.length).map (items.length - 1 - ·)) seed w =
          k.fold (foldOrder .reduceRight items.length) seed w :=
      Folder.fold_mirrored (fun i mem => List.mem_range.1 (List.mem_reverse.1 mem)) rfl reversed
        (fun turn mem => (turns turn mem).1) fun turn mem => (turns turn mem).2
    rw [foldOrder, map_opposite] at mirrored
    rw [call_of_folds (.inr rfl), call_of_folds (.inl rfl), reduceOver_seeded rfl rfl,
      reduceOver_seeded rfl rfl, reversed, List.length_reverse]
    exact congrArg answered mirrored.symm

end Sequence

/-- Host functions that make a sequence of their arguments. The second one takes them for those of
the opposite position of two, and of the first sequence there is. -/
def Reentry.listing : Reentry where
  call _ _ _ := Act.giveUp
  runHost id _ args := do
    let args := match id, args with
      | ⟨1⟩, [result, x, .number i, _] =>
        [result, x, .number ((Double.ofNat 1).sub i), .sequence ⟨0⟩]
      | _, args => args
    return .sequence (← Act.newSequence args)
  bound := 0

/-- From the end, the middle one of three elements is missing at its turn, and the first one is
there, once the first call has cut the sequence. And two elements are folded from both ends. -/
theorem reductions_fold_live_elements_cut :
    let f := Value.function (.host ⟨0⟩)
    let k : Folder := ⟨.cutting, ⟨0⟩, .host ⟨0⟩⟩
    let w : World := { heap := Heap.pushSequence {} [.null, .bool true, .bool false] }
    let h : Heap := Heap.pushSequence (Heap.pushSequence {} [.null, .bool true]) [.bool true, .null]
    let w₂ : World := { heap := h }
    (k.turns [2, 1, 0] .null w).map k.element? = [some (.bool false), none, some .null] ∧
      (∃ ran, Folding k [2, 1, 0] .null w (k.turns [2, 1, 0] .null w) ran ∧
        Sequence.call .cutting ⟨0⟩ .reduceRight [f, .null] w = Sequence.answered ran) ∧
      Sequence.call .listing ⟨0⟩ .reduceRight [f, .null] w₂ =
        Sequence.call .listing ⟨1⟩ .reduce [.function (.host ⟨1⟩), .null] w₂ := by
  intro f k w h w₂
  obtain ⟨folds, -⟩ := Sequence.reductions_fold_live_elements .cutting ⟨0⟩ (.host ⟨0⟩) w
  obtain ⟨-, mirrored⟩ := Sequence.reductions_fold_live_elements .listing ⟨0⟩ (.host ⟨0⟩) w₂
  refine ⟨rfl, (folds .reduceRight [f, .null] (.inr rfl) rfl).1 .null rfl, ?_⟩
  have zero : (Double.ofNat 1).sub (.ofNat 0) = .ofNat 1 := by decide +kernel
  have one : (Double.ofNat 1).sub (.ofNat 1) = .ofNat 0 := by decide +kernel
  have first : [.null, .bool true, .number ((Double.ofNat 1).sub (.ofNat 0)), .sequence ⟨0⟩] =
      [Value.null, .bool true, .ofNat 1, .sequence ⟨0⟩] := by
    rw [zero, Value.ofNat]
  have second : [.sequence ⟨2⟩, .null, .number ((Double.ofNat 1).sub (.ofNat 1)), .sequence ⟨0⟩] =
      [Value.sequence ⟨2⟩, .null, .ofNat 0, .sequence ⟨0⟩] := by
    rw [one, Value.ofNat]
  let record (w : World) (items : List Value) : Outcome Error Value × World :=
    (Act.newSequence items >>= fun id => pure (.sequence id) : HostAct Value) w
  refine mirrored ⟨1⟩ (.host ⟨1⟩) .null rfl ?_
  have turns : Folder.turns ⟨.listing, ⟨0⟩, .host ⟨0⟩⟩ [1, 0] .null w₂ =
      [⟨1, .null, w₂⟩, ⟨0, .sequence ⟨2⟩, { w₂ with
        heap := h.pushSequence [.null, .bool true, .ofNat 1, .sequence ⟨0⟩] }⟩] := rfl
  change ∀ turn ∈ Folder.turns ⟨.listing, ⟨0⟩, .host ⟨0⟩⟩ [1, 0] .null w₂, _
  rw [turns, List.forall_mem_cons, List.forall_mem_singleton]
  refine ⟨⟨⟨rfl, rfl⟩, fun x here => ?_⟩, ⟨rfl, rfl⟩, fun x here => ?_⟩
  · cases here
    exact congrArg (record _) first
  · cases here
    exact congrArg (record _) second

end ScriptBridge
