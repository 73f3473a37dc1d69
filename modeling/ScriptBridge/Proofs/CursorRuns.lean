import ScriptBridge.Proofs.Atomicity
import ScriptBridge.Proofs.HostCalls
import ScriptBridge.Proofs.MapView
import ScriptBridge.Script.Advance
import ScriptBridge.Session
import Mathlib.Logic.Function.Basic

/-!
Cursors over a live sequence. Whatever happens to the sequence between the advances of any number of
cursors, each cursor yields the slots in turn with what they hold when it gets there, until it finds
its slot missing; from then on it is at its end, even if the sequence grows again.
-/

namespace ScriptBridge

namespace Cursor

/-! ### One cursor -/

/-- A cursor at the start of a sequence. -/
def fresh (s : SequenceId) (kind : CursorKind) : Cursor := { sequence := s, kind }

variable {c : Cursor} {items : List Value}

theorem step_of_exhausted (h : c.exhausted = true) : c.step items = (none, c) := by
  rw [step, if_pos h]

theorem step_of_lt (h : c.exhausted = false) (inside : c.position < items.length) :
    c.step items = (some (c.kind.item c.position items[c.position]),
      { c with position := c.position + 1 }) := by
  rw [step, h, List.getElem?_eq_getElem inside]
  rfl

theorem step_of_le (h : c.exhausted = false) (past : items.length ≤ c.position) :
    c.step items = (none, { c with exhausted := true }) := by
  rw [step, h, List.getElem?_eq_none past]
  rfl

theorem step_keeps (c : Cursor) (items : List Value) :
    (c.step items).2.sequence = c.sequence ∧ (c.step items).2.kind = c.kind := by
  unfold step
  split
  · exact ⟨rfl, rfl⟩
  · split
    · exact ⟨rfl, rfl⟩
    · exact ⟨rfl, rfl⟩

/-- A cursor after it advanced over a sequence that held these elements in turn. -/
def after (c : Cursor) (seen : List (List Value)) : Cursor :=
  seen.foldl (fun c items => (c.step items).2) c

theorem after_cons (c : Cursor) (items : List Value) (seen : List (List Value)) :
    c.after (items :: seen) = (c.step items).2.after seen := rfl

theorem after_concat (c : Cursor) (seen : List (List Value)) (items : List Value) :
    c.after (seen ++ [items]) = ((c.after seen).step items).2 := by
  rw [after, List.foldl_append]
  rfl

theorem sequence_after (c : Cursor) (seen : List (List Value)) :
    (c.after seen).sequence = c.sequence := by
  induction seen generalizing c with
  | nil => rfl
  | cons items seen ih => exact (ih _).trans (c.step_keeps items).1

theorem after_of_exhausted (h : c.exhausted = true) (seen : List (List Value)) :
    c.after seen = c := by
  induction seen with
  | nil => rfl
  | cons items seen ih =>
    rw [after_cons, step_of_exhausted h]
    exact ih

/-- From a position on, every slot was there when its turn came. -/
def Supplied (position : Nat) (seen : List (List Value)) : Prop :=
  ∀ j (h : j < seen.length), position + j < seen[j].length

theorem supplied_cons {position : Nat} {seen : List (List Value)} :
    Supplied position (items :: seen) ↔
      position < items.length ∧ Supplied (position + 1) seen := by
  constructor
  · intro h
    refine ⟨h 0 (Nat.succ_pos _), fun j inside => ?_⟩
    have next := h (j + 1) (Nat.succ_lt_succ inside)
    rwa [List.getElem_cons_succ, ← Nat.add_assoc, Nat.add_right_comm] at next
  · rintro ⟨first, rest⟩ j inside
    cases j with
    | zero => exact first
    | succ j =>
      rw [List.getElem_cons_succ, ← Nat.add_assoc, Nat.add_right_comm]
      exact rest j (Nat.lt_of_succ_lt_succ inside)

theorem after_of_supplied {seen : List (List Value)} (h : c.exhausted = false)
    (supplied : Supplied c.position seen) :
    c.after seen = { c with position := c.position + seen.length } := by
  induction seen generalizing c with
  | nil => rfl
  | cons items seen ih =>
    obtain ⟨first, rest⟩ := supplied_cons.1 supplied
    have on := ih (c := { c with position := c.position + 1 }) h rest
    rw [after_cons, step_of_lt h first, on, List.length_cons, Nat.add_assoc, Nat.add_comm 1]

theorem exhausted_after {seen : List (List Value)} (missing : ¬Supplied c.position seen) :
    (c.after seen).exhausted = true := by
  induction seen generalizing c with
  | nil => exact absurd nofun missing
  | cons items seen ih =>
    cases ended : c.exhausted with
    | true => rw [after_of_exhausted ended, ended]
    | false =>
      rw [after_cons]
      by_cases first : c.position < items.length
      · rw [step_of_lt ended first]
        exact ih fun rest => missing (supplied_cons.2 ⟨first, rest⟩)
      · rw [step_of_le ended (Nat.le_of_not_lt first), after_of_exhausted rfl]

/-- What a cursor gives next: the slot whose number is that of the advances so far, if that and all
slots before were there in their turn. -/
theorem step_after (s : SequenceId) (kind : CursorKind) {seen : List (List Value)}
    (supplied : Supplied 0 seen) (inside : seen.length < items.length) :
    (((fresh s kind).after seen).step items).1 =
      some (kind.item seen.length items[seen.length]) := by
  have here := after_of_supplied (c := fresh s kind) rfl supplied
  rw [here]
  have position : (fresh s kind).position + seen.length = seen.length := Nat.zero_add _
  rw [position, step_of_lt rfl inside]
  rfl

theorem step_after_none (s : SequenceId) (kind : CursorKind) {seen : List (List Value)}
    (ended : ¬(Supplied 0 seen ∧ seen.length < items.length)) :
    (((fresh s kind).after seen).step items).1 = none := by
  by_cases supplied : Supplied 0 seen
  · have here := after_of_supplied (c := fresh s kind) rfl supplied
    have position : (fresh s kind).position + seen.length = seen.length := Nat.zero_add _
    have past : items.length ≤ seen.length :=
      Nat.le_of_not_lt fun inside => ended ⟨supplied, inside⟩
    rw [here, position, step_of_le rfl past]
  · rw [step_of_exhausted (exhausted_after supplied)]

end Cursor

/-! ### Interleavings -/

/-- An advance of a cursor, between two states of all there is. -/
structure Advance (σ ι ρ : Type) where
  cursor : ι
  before : σ
  answer : ρ
  after : σ

section

variable {σ ι ρ : Type}

/-- Advances of a family of cursors, and what else happens in between. -/
inductive Interleaving (Advances : ι → σ → ρ → σ → Prop) (Happens : σ → σ → Prop) :
    σ → List (Advance σ ι ρ) → σ → Prop where
  | nil (st : σ) : Interleaving Advances Happens st [] st
  | other {st st₁ st' : σ} {trace : List (Advance σ ι ρ)} (h : Happens st st₁)
    (rest : Interleaving Advances Happens st₁ trace st') :
    Interleaving Advances Happens st trace st'
  | advance {k : ι} {st st₁ st' : σ} {answer : ρ} {trace : List (Advance σ ι ρ)}
    (h : Advances k st answer st₁) (rest : Interleaving Advances Happens st₁ trace st') :
    Interleaving Advances Happens st (⟨k, st, answer, st₁⟩ :: trace) st'

variable [DecidableEq ι]

/-- What a sequence held at the advances of one cursor. -/
def seenBy (items : σ → List Value) (k : ι) (past : List (Advance σ ι ρ)) : List (List Value) :=
  (past.filter (·.cursor = k)).map (items ·.before)

/-- Where each advance moves its own cursor and nothing else moves one, every advance finds its
cursor moved by its earlier advances alone. -/
theorem Interleaving.cursor_eq {Advances : ι → σ → ρ → σ → Prop} {Happens : σ → σ → Prop}
    (items : σ → List Value) (In : (ι → Cursor) → σ → Prop)
    (keeps : ∀ {cursors st st'}, In cursors st → Happens st st' → In cursors st')
    (moves : ∀ {cursors k st answer st'}, In cursors st → Advances k st answer st' →
      In (Function.update cursors k ((cursors k).step (items st)).2) st')
    {cursors : ι → Cursor} {st st' : σ} {trace : List (Advance σ ι ρ)}
    (start : In cursors st) (run : Interleaving Advances Happens st trace st')
    {past rest : List (Advance σ ι ρ)} {a : Advance σ ι ρ} (here : trace = past ++ a :: rest) :
    In (fun k => (cursors k).after (seenBy items k past)) a.before ∧
      Advances a.cursor a.before a.answer a.after := by
  induction run generalizing cursors past with
  | nil => exact absurd here.symm (List.append_ne_nil_of_right_ne_nil _ (List.cons_ne_nil _ _))
  | other h _ ih => exact ih (keeps start h) here
  | @advance k st st₁ st' answer trace h _ ih =>
    cases past with
    | nil =>
      obtain ⟨rfl, _⟩ := List.cons.inj here
      exact ⟨start, h⟩
    | cons b past =>
      obtain ⟨rfl, later⟩ := List.cons.inj here
      obtain ⟨found, ran⟩ := ih (moves start h) later
      refine ⟨?_, ran⟩
      have same : (fun l => (Function.update cursors k ((cursors k).step (items st)).2 l).after
          (seenBy items l past)) =
          fun l => (cursors l).after (seenBy items l (⟨k, st, answer, st₁⟩ :: past)) := by
        funext l
        by_cases own : k = l
        · subst own
          simp [seenBy, Cursor.after_cons]
        · rw [Function.update_of_ne (Ne.symm own)]
          simp [seenBy, own]
      rwa [same] at found

end

/-! ### Cursors of the host -/

/-- What a slot yields at an advance, and the world after it: an entry is a new sequence of two. -/
inductive Yields (i : Nat) (v : Value) (w : World) : CursorKind → Value → World → Prop where
  | key : Yields i v w .keys (.ofNat i) w
  | value : Yields i v w .values v w
  | entry : Yields i v w .entries (.sequence w.heap.nextSequence)
    { w with heap := w.heap.pushSequence [.ofNat i, v] }

section

variable {w w₁ : World} {i : Nat} {v u : Value} {kind : CursorKind}

/-- The sequences there are stay as they are. -/
theorem Yields.sequence_eq (h : Yields i v w kind u w₁) {t : SequenceId}
    (made : t.index < w.heap.sequences.size) : w₁.heap.sequence t = w.heap.sequence t := by
  cases h with
  | key | value => rfl
  | entry => exact Heap.sequence_pushSequence_of_lt made _

theorem Yields.engine_eq (h : Yields i v w kind u w₁) :
    w₁.engine = w.engine ∧ w₁.runtime = w.runtime := by
  cases h with
  | key | value | entry => exact ⟨rfl, rfl⟩

theorem Script.itemValue_eq (kind : CursorKind) (i : Nat) (v : Value) (w : World) :
    ∃ u w₁, itemValue (kind.item i v) w = (.value u, w₁) ∧ Yields i v w kind u w₁ := by
  cases kind with
  | keys => exact ⟨_, _, rfl, .key⟩
  | values => exact ⟨_, _, rfl, .value⟩
  | entries => exact ⟨_, _, rfl, .entry⟩

namespace Cursor

variable {c c' : Cursor}

theorem advance_of_none (step : c.step (w.heap.sequence c.sequence) = (none, c')) :
    c.advance w = (.value (none, c'), w) := by
  unfold advance
  simp only [Act.elements, Act.read_bind, step]
  rfl

theorem advance_of_some (kind : CursorKind)
    (step : c.step (w.heap.sequence c.sequence) = (some (kind.item i v), c')) :
    ∃ u w₁, c.advance w = (.value (some u, c'), w₁) ∧ Yields i v w kind u w₁ := by
  obtain ⟨u, w₁, made, yields⟩ := Script.itemValue_eq kind i v w
  refine ⟨u, w₁, ?_, yields⟩
  unfold advance
  simp only [Act.elements, Act.read_bind, step]
  exact Act.bind_of_value made _

end Cursor

/-- What an advance answers that comes after others of its cursor, at which the sequence held the
elements seen, and the world after it. -/
structure Follows (s : SequenceId) (kind : CursorKind) (seen : List (List Value)) (w : World)
    (answer : Option Value) (w₁ : World) : Prop where
  yields : Cursor.Supplied 0 seen → ∀ v, (w.heap.sequence s)[seen.length]? = some v →
    ∃ u, answer = some u ∧ Yields seen.length v w kind u w₁
  ended : ¬(Cursor.Supplied 0 seen ∧ seen.length < (w.heap.sequence s).length) →
    answer = none ∧ w₁ = w

variable {s : SequenceId} {seen : List (List Value)}

/-- An advance leaves the engine and the sequences there are as they are. -/
theorem Follows.engine_eq {answer : Option Value} (h : Follows s kind seen w answer w₁) :
    w₁.engine = w.engine := by
  by_cases going : Cursor.Supplied 0 seen ∧ seen.length < (w.heap.sequence s).length
  · obtain ⟨u, _, yields⟩ := h.yields going.1 _ (List.getElem?_eq_getElem going.2)
    exact yields.engine_eq.1
  · rw [(h.ended going).2]

theorem Follows.sequence_eq {answer : Option Value} (h : Follows s kind seen w answer w₁)
    {t : SequenceId} (there : t.index < w.heap.sequences.size) :
    w₁.heap.sequence t = w.heap.sequence t := by
  by_cases going : Cursor.Supplied 0 seen ∧ seen.length < (w.heap.sequence s).length
  · obtain ⟨u, _, yields⟩ := h.yields going.1 _ (List.getElem?_eq_getElem going.2)
    exact yields.sequence_eq there
  · rw [(h.ended going).2]

/-- Every advance answers, and moves its cursor by one step. -/
theorem Cursor.follows_advance (s : SequenceId) (kind : CursorKind) (seen : List (List Value))
    (w : World) : ∃ answer w₁,
      ((fresh s kind).after seen).advance w =
        (.value (answer, (((fresh s kind).after seen).step (w.heap.sequence s)).2), w₁) ∧
      Follows s kind seen w answer w₁ := by
  have sequence : ((fresh s kind).after seen).sequence = s := sequence_after _ seen
  by_cases going : Supplied 0 seen ∧ seen.length < (w.heap.sequence s).length
  · obtain ⟨supplied, inside⟩ := going
    have first := step_after s kind supplied inside
    obtain ⟨u, w₁, advances, yields⟩ := advance_of_some (c := (fresh s kind).after seen) (w := w)
      kind (by rw [sequence]; exact Prod.ext first rfl)
    refine ⟨some u, w₁, advances, ⟨fun _ v here => ⟨u, rfl, ?_⟩, fun ended => ?_⟩⟩
    · obtain rfl := Option.some.inj ((List.getElem?_eq_getElem inside).symm.trans here)
      exact yields
    · exact absurd ⟨supplied, inside⟩ ended
  · have none := step_after_none s kind going
    have advances := advance_of_none (c := (fresh s kind).after seen) (w := w)
      (by rw [sequence]; exact Prod.ext none rfl)
    refine ⟨_, w, advances, ⟨fun supplied v here => ?_, fun _ => ⟨rfl, rfl⟩⟩⟩
    obtain ⟨inside, _⟩ := List.getElem?_eq_some_iff.1 here
    exact absurd ⟨supplied, inside⟩ going

theorem Cursor.advance_answers (c : Cursor) (w : World) :
    ∃ answer c' w₁, c.advance w = (.value (answer, c'), w₁) := by
  unfold advance
  simp only [Act.elements, Act.read_bind]
  rcases c.step (w.heap.sequence c.sequence) with ⟨_ | item, c'⟩
  · exact ⟨_, _, _, rfl⟩
  · cases item with
    | key | value | entry => exact ⟨_, _, _, rfl⟩

/-- The host advances one of the cursors it holds. -/
def HostAdvances {ι : Type} [DecidableEq ι] (k : ι) (st : (ι → Cursor) × World)
    (answer : Option Value) (st₁ : (ι → Cursor) × World) : Prop :=
  ∃ c w₁, (st.1 k).advance st.2 = (.value (answer, c), w₁) ∧
    st₁ = (Function.update st.1 k c, w₁)

/-- Anything happens in the world, while the host leaves its cursors where they are. -/
def HostHappens {ι : Type} (st st₁ : (ι → Cursor) × World) : Prop := st₁.1 = st.1

theorem HostAdvances.follows {ι : Type} [DecidableEq ι] {k : ι} {st st₁ : (ι → Cursor) × World}
    {answer : Option Value} (h : HostAdvances k st answer st₁) {kind : CursorKind}
    (here : st.1 k = (Cursor.fresh s kind).after seen) : Follows s kind seen st.2 answer st₁.2 ∧
      st₁.1 = Function.update st.1 k ((st.1 k).step (st.2.heap.sequence s)).2 := by
  obtain ⟨c, w₁, advances, after⟩ := h
  obtain ⟨answer', w₁', advances', follows⟩ := Cursor.follows_advance s kind seen st.2
  rw [here, advances'] at advances
  cases advances
  rw [after, here]
  exact ⟨follows, rfl⟩

/-- Draining a cursor is advancing it again and again. -/
theorem Host.cursorItems_succ (c : Cursor) (steps : Nat) : cursorItems c (steps + 1) = (do
    let (v, c) ← c.advance
    match v with
    | none => return []
    | some v => return v :: (← cursorItems c steps)) := by
  refine Act.ext_run fun w => ?_
  rw [cursorItems, Cursor.advance]
  simp only [Act.elements, Act.read_bind, bind_assoc]
  rcases c.step (w.heap.sequence c.sequence) with ⟨_ | item, c⟩
  · rfl
  · cases item with
    | key | value | entry => rfl

/-! ### Cursors behind iterators of scripts -/

/-- A function object of the script heap that advances a cursor when it is called. -/
def HoldsCursor (w : World) (id : ObjectId) (c : Cursor) : Prop :=
  ∃ o, w.engine.objects.get? id.index = some o ∧ o.kind = .function (.cursorNext c)

/-- The world after the cursor behind a function moved. -/
def World.moveCursor (w : World) (id : ObjectId) (c : Cursor) : World :=
  (Script.setCode id (.cursorNext c) w).2

/-- What moves depends on the objects of the script alone. -/
theorem Script.setCode_moves (w : World) (id : ObjectId) (c : Cursor) :
    ∃ objects, ∀ heap, setCode id (.cursorNext c) { w with heap } =
      (.value (), { w with heap, engine := { w.engine with objects } }) :=
  Act.editObject_eq id _ (·.becomes_moved _) w

theorem Script.setCode_eq (w : World) (id : ObjectId) (c : Cursor) :
    setCode id (.cursorNext c) w = (.value (), w.moveCursor id c) := by
  obtain ⟨objects, moves⟩ := setCode_moves w id c
  rw [World.moveCursor, moves w.heap]

end

namespace HoldsCursor

variable {w w₁ : World} {id other : ObjectId} {c d : Cursor}

theorem of_objectsKept (h : HoldsCursor w id c) (kept : ObjectsKept w w₁) :
    HoldsCursor w₁ id c := by
  obtain ⟨o, found, kind⟩ := h
  exact ⟨o, kept.objects _ _ found (by rw [kind]; rfl), kind⟩

theorem moveCursor_eq (h : HoldsCursor w id c) (sequence : d.sequence = c.sequence)
    (kind : d.kind = c.kind) : ∃ o, w.engine.objects.get? id.index = some o ∧
      w.moveCursor id d = { w with engine := { w.engine with
        objects := w.engine.objects.set id.index
          { o with kind := .function (.cursorNext d) } } } := by
  obtain ⟨o, found, code⟩ := h
  have moves : o.moved (.function (.cursorNext d)) =
      { o with kind := .function (.cursorNext d) } := by
    have allowed : o.kind.movesTo (.function (.cursorNext d)) := by
      rw [code]
      exact ObjectKind.movesTo_iff.2 (.cursor sequence kind)
    rw [Object.moved, if_pos allowed]
  refine ⟨o, found, ?_⟩
  rw [← moves]
  exact congrArg Prod.snd (Act.editObject_of_found _ (·.becomes_moved _) found)

/-- A step moves the cursor it is made with. -/
theorem moved (h : HoldsCursor w id c) (sequence : d.sequence = c.sequence)
    (kind : d.kind = c.kind) : HoldsCursor (w.moveCursor id d) id d := by
  obtain ⟨o, found, after⟩ := h.moveCursor_eq sequence kind
  rw [after]
  have inside : id.index < w.engine.objects.size := (Array.getElem?_eq_some_iff.1 found).1
  exact ⟨_, (Arena.get?_set _ _ _ _).trans (if_pos ⟨rfl, inside⟩), rfl⟩

/-- And it moves no other one. -/
theorem moved_of_ne (h : HoldsCursor w id c) (sequence : d.sequence = c.sequence)
    (kind : d.kind = c.kind) {e : Cursor} (apart : id ≠ other) (there : HoldsCursor w other e) :
    HoldsCursor (w.moveCursor id d) other e := by
  obtain ⟨o, found, after⟩ := h.moveCursor_eq sequence kind
  obtain ⟨q, found', code⟩ := there
  rw [after]
  have unlike : ¬(id.index = other.index ∧ other.index < w.engine.objects.size) := by
    rintro ⟨same, _⟩
    exact apart (congrArg ObjectId.mk same)
  exact ⟨q, (Arena.get?_set _ _ _ _).trans ((if_neg unlike).trans found'), code⟩

end HoldsCursor

@[simp] theorem World.heap_moveCursor (w : World) (id : ObjectId) (c : Cursor) :
    (w.moveCursor id c).heap = w.heap := by
  obtain ⟨objects, moves⟩ := Script.setCode_moves w id c
  rw [moveCursor, moves w.heap]

theorem World.moveCursor_withHeap (w : World) (h : Heap) (id : ObjectId) (c : Cursor) :
    World.moveCursor { w with heap := h } id c = { w.moveCursor id c with heap := h } := by
  obtain ⟨objects, moves⟩ := Script.setCode_moves w id c
  rw [moveCursor, moveCursor, moves h, moves w.heap]

/-- What a cursor yields does not depend on whether it has moved already. -/
theorem Script.itemValue_moveCursor {item : CursorItem} {w w₁ : World} {v : Value}
    (h : itemValue item w = (.value v, w₁)) (id : ObjectId) (c : Cursor) :
    itemValue item (w.moveCursor id c) = (.value v, w₁.moveCursor id c) := by
  cases item with
  | key | value =>
    cases h
    rfl
  | entry i u =>
    cases h
    have pushed : (Act.newSequence [.ofNat i, u] : HostAct _) (w.moveCursor id c) =
        (.value w.heap.nextSequence,
          World.moveCursor { w with heap := w.heap.pushSequence [.ofNat i, u] } id c) := by
      rw [World.moveCursor_withHeap w (w.heap.pushSequence [.ofNat i, u])]
      unfold Act.newSequence
      simp only [World.heap_moveCursor]
    exact Act.bind_of_value pushed _

/-- An object with the fields of an iterator result, as every script reads it. -/
def IteratorResult (w : World) (outcome : Outcome ScriptValue ScriptValue) (v : ScriptValue)
    (done : Bool) : Prop :=
  ∃ id, outcome = .value (.object id) ∧ ∀ r,
    Script.get r id (.ofString "value") w = (.value v, w) ∧
      Script.get r id (.ofString "done") w = (.value (.bool done), w)

section

variable {r : Reentry} {w w₁ w₂ : World} {id : ObjectId} {c c' : Cursor} {this : ScriptValue}
  {args : List ScriptValue}

theorem iteratorResult_new (v : ScriptValue) (done : Bool) (w : World) :
    ∃ outcome w₁, (Script.newIteratorResult v done : ScriptAct ScriptValue) w = (outcome, w₁) ∧
      IteratorResult w₁ outcome v done ∧ ScriptSide w w₁ := by
  let o : Object := { kind := .ordinary, prototype := some Intrinsic.objectPrototype,
                      properties := (Entries.empty.insert (.ofString "value") (.open_ v)).insert
                        (.ofString "done") (.open_ (.bool done)) }
  have made : (Script.newIteratorResult v done : ScriptAct ScriptValue) w =
      (.value (.object ⟨w.engine.objects.size⟩), w.withObject o) := rfl
  have there : Ordinary (w.withObject o) ⟨w.engine.objects.size⟩ o := w.ordinary_withObject rfl
  have apart : PropertyKey.ofString "done" ≠ .ofString "value" := by decide
  have value : o.properties.get? (.ofString "value") = some (.open_ v) :=
    (Entries.get?_insert_of_ne _ apart _).trans (Entries.get?_insert_self _ _ _)
  have flag : o.properties.get? (.ofString "done") = some (.open_ (.bool done)) :=
    Entries.get?_insert_self _ _ _
  refine ⟨_, _, made, ⟨_, rfl, fun r => ⟨Script.get_of_own there value,
    Script.get_of_own there flag⟩⟩, ⟨_, rfl⟩, ?_⟩
  have within := Act.Within.newObject (ε := ScriptValue) (E := .crossing) o rfl w
  exact within

/-- Calling the function behind an iterator is one advance of its cursor; what it yields crosses
after the cursor has moved. -/
theorem Script.callObject_of_holds (holds : HoldsCursor w id c) {answer : Option Value}
    (advances : c.advance w = (.value (answer, c'), w₁)) :
    callObject r id this args w =
      (answer.elim (newIteratorResult .undefined true)
        fun v => do newIteratorResult (← Bridge.intoScript (Bridge.toScript v)) false :
        ScriptAct ScriptValue) (w₁.moveCursor id c') := by
  obtain ⟨o, found, kind⟩ := holds
  rw [callObject_cursorNext found kind, stepCursor]
  simp only [Act.elements, Act.read_bind]
  rcases step : c.step (w.heap.sequence c.sequence) with ⟨item | item, moved⟩
  · rw [Cursor.advance_of_none step] at advances
    cases advances
    exact Act.bind_of_value (setCode_eq w id _) _
  · have made : (Script.itemValue item >>= fun v => return (some v, moved) :
        HostAct (Option Value × Cursor)) w = (.value (answer, c'), w₁) := by
      rw [← advances, Cursor.advance]
      simp only [Act.elements, Act.read_bind, step]
    obtain ⟨v, w₂, item, rest⟩ := Act.of_bind_value made
    cases rest
    have crosses := Act.recover_congr_run (Act.bind_of_value (itemValue_moveCursor item id c')
      Bridge.toScript) Bridge.throwIntoScript
    exact (Act.bind_of_value (setCode_eq w id _) _).trans (Act.bind_congr_run crosses _)

/-- A value that is not of the live runtime does not cross. -/
theorem Bridge.toScript_of_not_live {v : Value} (dead : ¬v.Live w) :
    ∃ e, toScript v w = (.failure e, w) := by
  have refused (what : String) {ref : ScriptRef} (gone : ref.runtime ≠ w.runtime) :
      ∃ e, restore what ref w = (.failure e, w) := by
    rw [restore, Act.read_bind, if_neg gone, Act.read_bind]
    split
    · exact ⟨_, rfl⟩
    · exact ⟨_, rfl⟩
  cases v with
  | object ref =>
    obtain ⟨e, fails⟩ := refused "script object" dead
    exact ⟨e, Act.bind_of_failure fails _⟩
  | function f =>
    cases f with
    | host => exact absurd trivial dead
    | script ref name =>
      obtain ⟨e, fails⟩ := refused "script function" dead
      exact ⟨e, Act.bind_of_failure fails _⟩
  | _ => exact absurd trivial dead

/-- How an iterator of a script gives a value: as a result that is not done, if the value can cross,
and else by throwing what keeps it from crossing. -/
inductive Given (u : Value) (w : World) (outcome : Outcome ScriptValue ScriptValue) (w₁ : World) :
    Prop where
  | crossed {x : ScriptValue} {w₂ : World} (crosses : Bridge.toScript u w = (.value x, w₂))
    (result : IteratorResult w₁ outcome x false)
  | refused (dead : ¬u.Live w) {e : Error} (fails : Bridge.toScript u w = (.failure e, w))
    {thrown : ScriptValue}
    (throws : (Bridge.throwIntoScript e : ScriptAct Unit) w = (.failure thrown, w₁))
    (same : outcome = .failure thrown)

theorem given_of_crossing (u : Value) (w : World) : ∃ outcome w₁,
    (Bridge.intoScript (Bridge.toScript u) >>= fun v => Script.newIteratorResult v false :
      ScriptAct ScriptValue) w = (outcome, w₁) ∧ Given u w outcome w₁ ∧ ObjectsKept w w₁ := by
  by_cases live : u.Live w
  · obtain ⟨x, w₂, crosses⟩ := Bridge.toScript_of_live live
    obtain ⟨outcome, w₁, made, result, kept⟩ := iteratorResult_new x false w₂
    refine ⟨outcome, w₁, ?_, .crossed crosses result,
      (Bridge.objectsKept_toScript crosses).trans kept.kept⟩
    have through : Bridge.intoScript (Bridge.toScript u) w = (.value x, w₂) :=
      Act.recover_of_value crosses _
    rw [Act.bind_of_value through, made]
  · obtain ⟨e, fails⟩ := Bridge.toScript_of_not_live live
    obtain ⟨thrown, w₁, throws, here⟩ := Throws.of_intoScript fails
    have kept := Bridge.throwIntoScript_within (α := Unit) (E := .crossing) e w
    rw [throws] at kept
    exact ⟨_, w₁, Act.bind_of_failure here _, .refused live fails throws rfl, kept⟩

/-- What a call of the function behind an iterator gives that comes after others of its cursor, at
which the sequence held the elements seen, and the world after it. The cursor has moved before the
value crosses. -/
structure CallFollows (s : SequenceId) (kind : CursorKind) (seen : List (List Value))
    (id : ObjectId) (w : World) (outcome : Outcome ScriptValue ScriptValue) (w₁ : World) :
    Prop where
  yields : Cursor.Supplied 0 seen → ∀ v, (w.heap.sequence s)[seen.length]? = some v →
    ∃ u made c, Yields seen.length v w kind u made ∧ Given u (made.moveCursor id c) outcome w₁
  ended : ¬(Cursor.Supplied 0 seen ∧ seen.length < (w.heap.sequence s).length) →
    IteratorResult w₁ outcome .undefined true
  sequences : ∀ t : SequenceId, t.index < w.heap.sequences.size →
    w₁.heap.sequence t = w.heap.sequence t

/-- Calls of the functions behind iterators, with any receiver and arguments. -/
def CallAdvances {ι : Type} (r : Reentry) (ids : ι → ObjectId) (k : ι) (w : World)
    (outcome : Outcome ScriptValue ScriptValue) (w₁ : World) : Prop :=
  ∃ this args, Script.callObject r (ids k) this args w = (outcome, w₁)

/-- Anything happens in the world, but for calls that move the cursors. -/
def CallHappens {ι : Type} (ids : ι → ObjectId) (w w₁ : World) : Prop :=
  ∀ k c, HoldsCursor w (ids k) c → HoldsCursor w₁ (ids k) c

variable {s : SequenceId} {kind : CursorKind} {seen : List (List Value)}

theorem HoldsCursor.of_engine_eq (h : HoldsCursor w id c) (same : w₁.engine = w.engine) :
    HoldsCursor w₁ id c := by
  rw [HoldsCursor, same]
  exact h

/-- A call moves the cursor it is made on by one step, and no other one. -/
theorem HoldsCursor.follows (holds : HoldsCursor w id ((Cursor.fresh s kind).after seen))
    {outcome : Outcome ScriptValue ScriptValue}
    (calls : Script.callObject r id this args w = (outcome, w₁)) :
    CallFollows s kind seen id w outcome w₁ ∧
      HoldsCursor w₁ id (((Cursor.fresh s kind).after seen).step (w.heap.sequence s)).2 ∧
      ∀ other c, id ≠ other → HoldsCursor w other c → HoldsCursor w₁ other c := by
  obtain ⟨answer, made, advances, follows⟩ := Cursor.follows_advance s kind seen w
  rw [Script.callObject_of_holds holds advances] at calls
  have keeps := ((Cursor.fresh s kind).after seen).step_keeps (w.heap.sequence s)
  generalize (((Cursor.fresh s kind).after seen).step (w.heap.sequence s)).2 = c' at *
  have engine := follows.engine_eq
  have own := (holds.of_engine_eq engine).moved keeps.1 keeps.2
  have others (other : ObjectId) (d : Cursor) (apart : id ≠ other)
      (there : HoldsCursor w other d) :=
    (holds.of_engine_eq engine).moved_of_ne keeps.1 keeps.2 apart (there.of_engine_eq engine)
  have ends : ObjectsKept (made.moveCursor id c') w₁ →
      HoldsCursor w₁ id c' ∧
      (∀ other d, id ≠ other → HoldsCursor w other d → HoldsCursor w₁ other d) ∧
      ∀ t : SequenceId, t.index < w.heap.sequences.size →
        w₁.heap.sequence t = w.heap.sequence t := fun kept => by
    refine ⟨own.of_objectsKept kept, fun other d apart there =>
      (others other d apart there).of_objectsKept kept, fun t there => ?_⟩
    rw [kept.heap, World.heap_moveCursor, follows.sequence_eq there]
  cases answer with
  | none =>
    obtain ⟨_, _, new, result, side⟩ := iteratorResult_new .undefined true (made.moveCursor id c')
    obtain ⟨rfl, rfl⟩ := Prod.mk.inj (new.symm.trans calls)
    obtain ⟨moved, unmoved, sequences⟩ := ends side.kept
    refine ⟨⟨fun supplied v there => ?_, fun _ => result, sequences⟩, moved, unmoved⟩
    obtain ⟨_, some, _⟩ := follows.yields supplied v there
    cases some
  | some u =>
    obtain ⟨_, _, gives, given, kept⟩ := given_of_crossing u (made.moveCursor id c')
    obtain ⟨rfl, rfl⟩ := Prod.mk.inj (gives.symm.trans calls)
    obtain ⟨moved, unmoved, sequences⟩ := ends kept
    refine ⟨⟨fun supplied v there => ?_, fun ended => ?_, sequences⟩, moved, unmoved⟩
    · obtain ⟨_, same, yields⟩ := follows.yields supplied v there
      cases same
      exact ⟨u, made, c', yields, given⟩
    · cases (follows.ended ended).1

end

/-! ### All walks -/

/-- The method that opens a cursor. -/
def CursorKind.method : CursorKind → SequenceMethod
  | .keys => .keys
  | .values => .values
  | .entries => .entries

theorem Sequence.call_method (r : Reentry) (s : SequenceId) (kind : CursorKind) (args : List Value)
    (w : World) : call r s kind.method args w = (.value (.cursor (Cursor.fresh s kind)), w) := by
  cases kind with
  | keys | values | entries => rfl

/-- The script gets an iterator whose `next` is a new function that holds the cursor, and nothing
else changes. -/
theorem Script.newCursorObject_opens (c : Cursor) (w : World) : ∃ it next w₁,
    newCursorObject c w = (.value (.object it), w₁) ∧
      (∀ r, get r it (.ofString "next") w₁ = (.value (.object next), w₁)) ∧
      next.index = w.engine.objects.size ∧ HoldsCursor w₁ next c ∧ ScriptSide w w₁ := by
  let code : Object := .function (.cursorNext c) (.ofString "") 0
  let next : ObjectId := ⟨w.engine.objects.size⟩
  let w₁ := w.withObject code
  let it : ObjectId := ⟨w₁.engine.objects.size⟩
  let bare : Object := .bare .ordinary Intrinsic.arrayIteratorPrototype
  let w₂ := w₁.withObject bare
  let field : Property := .hidden (.object next)
  have there : w₂.engine.objects.get? it.index = some bare := (w₁.ordinary_withObject rfl).found
  have inside : it.index < w₂.engine.objects.size := (Array.getElem?_eq_some_iff.1 there).1
  have after : it.index = next.index + 1 := by simp [it, w₁, next, World.withObject]
  let w₃ : World := { w₂ with engine := { w₂.engine with
    objects := w₂.engine.objects.set it.index (bare.write (.ofString "next") field) } }
  have put : (Act.putProperty it (.ofString "next") field : HostAct Unit) w₂ = (.value (), w₃) :=
    Act.editObject_of_found _ _ there
  have opened : newCursorObject c w = (.value (.object it), w₃) := Act.bind_of_value put _
  have named : Ordinary w₃ it (bare.write (.ofString "next") field) :=
    ⟨(Arena.get?_set _ _ _ _).trans (if_pos ⟨rfl, inside⟩), rfl⟩
  have own : (bare.write (.ofString "next") field).properties.get? (.ofString "next") =
      some field :=
    Entries.get?_insert_self _ _ _
  -- the iterator is the last object, so that all others are as they were
  have others {i : Nat} {o : Object} (older : i ≠ it.index)
      (found : w₂.engine.objects.get? i = some o) : w₃.engine.objects.get? i = some o :=
    (Arena.get?_set _ _ _ _).trans ((if_neg fun both => older both.1.symm).trans found)
  have holds : HoldsCursor w₃ next c :=
    ⟨code, others (by omega) ((w.ordinary_withObject rfl).withObject bare).found, rfl⟩
  refine ⟨it, next, w₃, opened, fun r => get_of_own named own, rfl, holds,
    .of_world (Act.steps_of opened) rfl fun i o found _ => others ?_ ?_⟩
  · have before : i < next.index := Arena.lt_size_of_get? found
    omega
  · exact ObjectHeap.get?_push_of_some (ObjectHeap.get?_push_of_some found code) bare

theorem Script.callSequenceMethod_opens (r : Reentry) (s : SequenceId) (kind : CursorKind)
    (w : World) : ∃ it next w₁,
      callSequenceMethod r s kind.method [] w = (.value (.object it), w₁) ∧
      (∀ r, get r it (.ofString "next") w₁ = (.value (.object next), w₁)) ∧
      next.index = w.engine.objects.size ∧ HoldsCursor w₁ next (Cursor.fresh s kind) ∧
      ScriptSide w w₁ := by
  obtain ⟨it, next, w₁, opened, rest⟩ := newCursorObject_opens (Cursor.fresh s kind) w
  refine ⟨it, next, w₁, Act.recover_of_value ?_ _, rest⟩
  refine (Act.bind_of_value (a := []) rfl _).trans ?_
  exact (Act.bind_of_value (Sequence.call_method r s kind [] w) _).trans opened

theorem Script.callSequenceMethod_method (r : Reentry) (s : SequenceId) (kind : CursorKind)
    (w : World) : ∃ it next w₁,
      callSequenceMethod r s kind.method [] w = (.value (.object it), w₁) ∧
      (∀ r, get r it (.ofString "next") w₁ = (.value (.object next), w₁)) ∧
      next.index = w.engine.objects.size ∧ HoldsCursor w₁ next (Cursor.fresh s kind) := by
  obtain ⟨it, next, w₁, answers, reads, new, holds, _⟩ := callSequenceMethod_opens r s kind w
  exact ⟨it, next, w₁, answers, reads, new, holds⟩

/-- Cursors over one sequence that have made some steps, over whatever it held. -/
def Walking {ι : Type} (s : SequenceId) (kinds : ι → CursorKind) (cursors : ι → Cursor) : Prop :=
  ∀ k, ∃ seen, cursors k = (Cursor.fresh s (kinds k)).after seen

theorem Walking.update {ι : Type} [DecidableEq ι] {s : SequenceId} {kinds : ι → CursorKind}
    {cursors : ι → Cursor} (walking : Walking s kinds cursors) (k : ι) (items : List Value) :
    Walking s kinds (Function.update cursors k ((cursors k).step items).2) := by
  intro l
  obtain ⟨seen, here⟩ := walking l
  by_cases own : l = k
  · subst own
    refine ⟨seen ++ [items], ?_⟩
    rw [Function.update_self, here, Cursor.after_concat]
  · exact ⟨seen, (Function.update_of_ne own _ _).trans here⟩

theorem HostAdvances.walking {ι : Type} [DecidableEq ι] {s : SequenceId} {kinds : ι → CursorKind}
    {k : ι} {st st₁ : (ι → Cursor) × World} {answer : Option Value}
    (h : HostAdvances k st answer st₁) (walking : Walking s kinds st.1) :
    st₁.1 = Function.update st.1 k ((st.1 k).step (st.2.heap.sequence s)).2 := by
  obtain ⟨_, position⟩ := walking k
  exact (h.follows position).2

theorem CallAdvances.walking {ι : Type} [DecidableEq ι] {r : Reentry} {s : SequenceId}
    {kinds : ι → CursorKind} {ids : ι → ObjectId} {cursors : ι → Cursor} {k : ι} {w w₁ : World}
    {outcome : Outcome ScriptValue ScriptValue} (h : CallAdvances r ids k w outcome w₁)
    (injective : Function.Injective ids) (walking : Walking s kinds cursors)
    (holds : ∀ l, HoldsCursor w (ids l) (cursors l)) (l : ι) :
    HoldsCursor w₁ (ids l)
      (Function.update cursors k ((cursors k).step (w.heap.sequence s)).2 l) := by
  obtain ⟨this, args, calls⟩ := h
  obtain ⟨seen, position⟩ := walking k
  have own := holds k
  rw [position] at own
  obtain ⟨_, moved, others⟩ := own.follows calls
  by_cases same : l = k
  · subst same
    rw [Function.update_self, position]
    exact moved
  · rw [Function.update_of_ne same]
    exact others _ _ (injective.ne (Ne.symm same)) (holds l)

/-- However the advances of cursors over a sequence are mixed with changes of it, each cursor yields
the slots in turn with what they hold then, until its next slot is missing; from then on it is at
its end. The same holds of the functions behind the iterators that scripts open. -/
theorem cursors_walk_live_sequence (r : Reentry) (s : SequenceId) {ι : Type} [DecidableEq ι]
    (kinds : ι → CursorKind) :
    -- both sides open their cursors at the start
    (∀ kind args w,
      Sequence.call r s kind.method args w = (.value (.cursor (Cursor.fresh s kind)), w)) ∧
    (∀ kind w, ∃ it next w₁,
      Script.callSequenceMethod r s kind.method [] w = (.value (.object it), w₁) ∧
      (∀ r, Script.get r it (.ofString "next") w₁ = (.value (.object next), w₁)) ∧
      next.index = w.engine.objects.size ∧ HoldsCursor w₁ next (Cursor.fresh s kind)) ∧
    -- cursors of the host; every advance answers
    (∀ (st : (ι → Cursor) × World) k, ∃ answer st', HostAdvances k st answer st') ∧
    (∀ {st st' : (ι → Cursor) × World} {trace}, (∀ k, st.1 k = Cursor.fresh s (kinds k)) →
      Interleaving HostAdvances HostHappens st trace st' →
      ∀ {past a rest}, trace = past ++ a :: rest →
        Follows s (kinds a.cursor) (seenBy (·.2.heap.sequence s) a.cursor past)
          a.before.2 a.answer a.after.2 ∧
        (∀ k, k ≠ a.cursor → a.after.1 k = a.before.1 k) ∧
        ∀ t : SequenceId, t.index < a.before.2.heap.sequences.size →
          a.after.2.heap.sequence t = a.before.2.heap.sequence t) ∧
    -- cursors of scripts
    (∀ {ids : ι → ObjectId} {w w' : World} {trace}, Function.Injective ids →
      (∀ k, HoldsCursor w (ids k) (Cursor.fresh s (kinds k))) →
      Interleaving (CallAdvances r ids) (CallHappens ids) w trace w' →
      ∀ {past a rest}, trace = past ++ a :: rest →
        CallFollows s (kinds a.cursor) (seenBy (·.heap.sequence s) a.cursor past) (ids a.cursor)
          a.before a.answer a.after ∧
        ∀ k c, k ≠ a.cursor → HoldsCursor a.before (ids k) c → HoldsCursor a.after (ids k) c) := by
  refine ⟨fun kind args w => Sequence.call_method r s kind args w,
    fun kind w => Script.callSequenceMethod_method r s kind w, ?_, ?_, ?_⟩
  · intro st k
    obtain ⟨answer, c, w₁, advances⟩ := (st.1 k).advance_answers st.2
    exact ⟨answer, _, c, w₁, advances, rfl⟩
  · intro st st' trace start run past a rest here
    obtain ⟨⟨held, _⟩, advances⟩ := run.cursor_eq (·.2.heap.sequence s)
      (fun cursors st => st.1 = cursors ∧ Walking s kinds cursors)
      (fun inside happens => ⟨happens.trans inside.1, inside.2⟩)
      (fun inside advances => by
        obtain ⟨rfl, walking⟩ := inside
        exact ⟨advances.walking walking, walking.update _ _⟩)
      ⟨rfl, fun k => ⟨[], start k⟩⟩ here
    have position := (congrFun held a.cursor).trans (by rw [start])
    obtain ⟨follows, after⟩ := advances.follows position
    refine ⟨follows, fun k other => ?_, fun t there => ?_⟩
    · rw [after, Function.update_of_ne other]
    · exact follows.sequence_eq there
  · intro ids w w' trace injective start run past a rest here
    obtain ⟨held, this, args, calls⟩ := run.cursor_eq (·.heap.sequence s)
      (fun cursors w => (∀ k, HoldsCursor w (ids k) (cursors k)) ∧ Walking s kinds cursors)
      (fun inside happens => ⟨fun k => happens k _ (inside.1 k), inside.2⟩)
      (fun inside advances =>
        ⟨advances.walking injective inside.2 inside.1, inside.2.update _ _⟩)
      ⟨start, fun k => ⟨[], rfl⟩⟩ here
    obtain ⟨follows, _, others⟩ := (held.1 a.cursor).follows calls
    exact ⟨follows, fun k c other there => others _ _ (injective.ne (Ne.symm other)) there⟩

/-- A cursor that found its sequence cleared is at its end also when the sequence has grown again,
whether the host or a script advances it. -/
theorem cursors_walk_live_sequence_regrown :
    let xs : SequenceId := ⟨0⟩
    let w := ((Act.newSequence [.null] : HostAct _) {}).2
    let kinds : Bool → CursorKind := fun k => if k then .values else .keys
    let start : (Bool → Cursor) × World := (fun k => .fresh xs (kinds k), w)
    let next (k : Bool) : Object := .function (.cursorNext (.fresh xs (kinds k))) [] 0
    let opened := (w.withObject (next false)).withObject (next true)
    let ids : Bool → ObjectId := fun k => if k then ⟨1⟩ else ⟨0⟩
    (∃ past a st', Interleaving HostAdvances HostHappens start (past ++ [a]) st' ∧
      seenBy (·.2.heap.sequence xs) true past = [[.null], []] ∧
      a.cursor = true ∧ a.before.2.heap.sequence xs = [.null, .null, .null] ∧ a.answer = none) ∧
    ∃ past a w', Interleaving (CallAdvances Session.top ids) (CallHappens ids) opened
        (past ++ [a]) w' ∧
      seenBy (·.heap.sequence xs) true past = [[.null], []] ∧
      a.cursor = true ∧ a.before.heap.sequence xs = [.null, .null, .null] ∧
      IteratorResult a.after a.answer .undefined true := by
  intro xs w kinds start next opened ids
  obtain ⟨_, _, total, host, script⟩ := cursors_walk_live_sequence Session.top xs kinds
  let filled (items : List Value) (w : World) : World :=
    { w with heap := w.heap.setSequence xs items }
  have missing : ¬(Cursor.Supplied 0 [[.null], []] ∧
      [[Value.null], []].length < [Value.null, .null, .null].length) := fun both =>
    absurd (both.1 1 (by decide)) (by decide)
  constructor
  · let c₁ : Cursor := { Cursor.fresh xs .values with position := 1 }
    let c₂ : Cursor := { c₁ with exhausted := true }
    let st₁ := (Function.update start.1 true c₁, filled [] w)
    let st₂ := (Function.update st₁.1 true c₂, filled [.null, .null, .null] st₁.2)
    obtain ⟨answer, st₃, third⟩ := total st₂ true
    let past : List (Advance ((Bool → Cursor) × World) Bool (Option Value)) :=
      [⟨true, start, some .null, (st₁.1, w)⟩, ⟨true, st₁, none, (st₂.1, st₁.2)⟩]
    let last : Advance ((Bool → Cursor) × World) Bool (Option Value) := ⟨true, st₂, answer, st₃⟩
    have cleared : HostHappens (st₁.1, w) st₁ := rfl
    have refilled : HostHappens (st₂.1, st₁.2) st₂ := rfl
    have run : Interleaving HostAdvances HostHappens start (past ++ [last]) st₃ :=
      .advance ⟨c₁, w, rfl, rfl⟩ (.other cleared
        (.advance ⟨c₂, st₁.2, rfl, rfl⟩ (.other refilled (.advance third (.nil _)))))
    have here : past ++ [last] = past ++ last :: [] := rfl
    obtain ⟨follows, _⟩ := host (fun _ => rfl) run here
    exact ⟨past, last, st₃, run, rfl, rfl, rfl, (follows.ended missing).1⟩
  · let call (w : World) := Script.callObject Session.top (ids true) .undefined [] w
    let w₁ := filled [] (call opened).2
    let w₂ := filled [.null, .null, .null] (call w₁).2
    let past : List (Advance World Bool (Outcome ScriptValue ScriptValue)) :=
      [⟨true, opened, (call opened).1, (call opened).2⟩, ⟨true, w₁, (call w₁).1, (call w₁).2⟩]
    let last : Advance World Bool (Outcome ScriptValue ScriptValue) :=
      ⟨true, w₂, (call w₂).1, (call w₂).2⟩
    have called (w : World) : CallAdvances Session.top ids true w (call w).1 (call w).2 :=
      ⟨.undefined, [], rfl⟩
    have sets (items : List Value) (w : World) : CallHappens ids w (filled items w) :=
      fun _ _ h => h.of_engine_eq rfl
    have run : Interleaving (CallAdvances Session.top ids) (CallHappens ids) opened
        (past ++ [last]) (call w₂).2 :=
      .advance (called opened) (.other (sets [] _)
        (.advance (called w₁) (.other (sets [.null, .null, .null] _)
          (.advance (called w₂) (.nil _)))))
    have apart : Function.Injective ids := by
      intro k l same
      cases k <;> cases l <;> first | rfl | exact absurd same (by decide)
    have holds (k : Bool) : HoldsCursor opened (ids k) (.fresh xs (kinds k)) := by
      cases k with
      | false => exact ⟨_, rfl, rfl⟩
      | true => exact ⟨_, rfl, rfl⟩
    have here : past ++ [last] = past ++ last :: [] := rfl
    obtain ⟨follows, _⟩ := script apart holds run here
    have seen : seenBy (·.heap.sequence xs) true past = [[.null], []] := by decide +kernel
    have held : w₂.heap.sequence xs = [.null, .null, .null] := by decide +kernel
    exact ⟨past, last, (call w₂).2, run, seen, rfl, held, follows.ended (by rwa [seen, held])⟩

end ScriptBridge
