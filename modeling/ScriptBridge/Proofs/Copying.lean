import ScriptBridge.Proofs.DataReads
import ScriptBridge.Proofs.Identity

/-!
Conversions of data make sequences and take references, and do nothing else. The sequences they make
are numbered one after another, so that each belongs to one place in what is made.
-/

namespace ScriptBridge

/-! ### Prototypes of the same objects -/

namespace Script

variable {ε : Type} {w w₁ : World}

theorem prototypeOf_of_objects (same : w₁.engine.objects = w.engine.objects) (id : ObjectId) :
    ∃ p, (prototypeOf id : Act ε _) w = (.value p, w) ∧
      (prototypeOf id : Act ε _) w₁ = (.value p, w₁) := by
  simp only [prototypeOf, Act.object?, Act.read_bind, same]
  split
  · exact ⟨none, rfl, rfl⟩
  · split
    · exact ⟨_, rfl, by simp only [Act.read_bind, same]; rfl⟩
    · exact ⟨_, rfl, by simp only [Act.read_bind, same]; rfl⟩
    · exact ⟨_, rfl, rfl⟩

theorem inheritsWithin_of_objects (same : w₁.engine.objects = w.engine.objects)
    (prototype : ObjectId) (steps : Nat) (id : ObjectId) :
    ∃ b, (inheritsWithin prototype steps id : Act ε Bool) w = (.value b, w) ∧
      (inheritsWithin prototype steps id : Act ε Bool) w₁ = (.value b, w₁) := by
  induction steps generalizing id with
  | zero => exact ⟨false, rfl, rfl⟩
  | succ steps ih =>
    obtain ⟨p, here, there⟩ := prototypeOf_of_objects (ε := ε) same id
    rw [inheritsWithin, Act.bind_of_value here, Act.bind_of_value there]
    cases p with
    | none => exact ⟨false, rfl, rfl⟩
    | some p =>
      by_cases found : p = prototype
      · exact ⟨true, by simp only [if_pos found]; rfl, by simp only [if_pos found]; rfl⟩
      · simp only [if_neg found]
        exact ih p

/-- Asking for a prototype is answered from the objects alone. -/
theorem inherits_of_objects (same : w₁.engine.objects = w.engine.objects)
    (id prototype : ObjectId) :
    ∃ b, (inherits id prototype : Act ε Bool) w = (.value b, w) ∧
      (inherits id prototype : Act ε Bool) w₁ = (.value b, w₁) := by
  simp only [inherits, chainBound, Act.read_bind, same]
  exact inheritsWithin_of_objects same _ _ _

end Script

/-! ### What a conversion changes -/

/-- A host heap with further sequences. -/
def Heap.Extends (h h' : Heap) : Prop := ∃ more : List (List Value), h' = more.foldl pushSequence h

namespace Heap.Extends

variable {h h₁ h₂ : Heap}

theorem refl (h : Heap) : h.Extends h := ⟨[], rfl⟩

theorem push (h : Heap) (items : List Value) : h.Extends (h.pushSequence items) := ⟨[items], rfl⟩

theorem trans (e : h.Extends h₁) (e' : h₁.Extends h₂) : h.Extends h₂ := by
  obtain ⟨more, rfl⟩ := e
  obtain ⟨more', rfl⟩ := e'
  exact ⟨more ++ more', List.foldl_append.symm⟩

theorem size_le (e : h.Extends h₁) : h.sequences.size ≤ h₁.sequences.size := by
  obtain ⟨more, rfl⟩ := e
  induction more generalizing h with
  | nil => exact Nat.le_refl _
  | cons items more ih =>
    refine Nat.le_trans ?_ ih
    rw [pushSequence, Arena.size_push]
    exact Nat.le_succ _

theorem sequence_eq (e : h.Extends h₁) {s : SequenceId} (made : s.index < h.sequences.size) :
    h₁.sequence s = h.sequence s := by
  obtain ⟨more, rfl⟩ := e
  induction more generalizing h with
  | nil => rfl
  | cons items more ih =>
    have made' : s.index < (h.pushSequence items).sequences.size := by
      rw [pushSequence, Arena.size_push]
      exact Nat.lt_succ_of_lt made
    exact (ih made').trans (sequence_pushSequence_of_lt made items)

end Heap.Extends

/-- Taking a reference changes nothing but what is held and taken. -/
theorem Bridge.hold_world {w w₁ : World} {id : ObjectId} {ref : ScriptRef}
    (holds : hold id w = (.value ref, w₁)) :
    ∃ held roots, w₁ = { w with engine := { w.engine with held, roots } } := by
  obtain ⟨number, w', identified, rest⟩ := Act.of_bind_value holds
  obtain ⟨i, held, known, _⟩ := Act.identify_eq (ε := Error) id w
  cases known.symm.trans identified
  cases rest
  exact ⟨held, _, rfl⟩

/-- What a conversion of data does to the world: it makes sequences and takes references. -/
structure Copying (w w' : World) : Prop where
  world : ∃ heap held roots, w.heap.Extends heap ∧
    w' = { w with heap, engine := { w.engine with held, roots } }
  reaches : Reaches w w'

namespace Copying

variable {w w₁ w₂ : World} {id : ObjectId} {o : Object}

theorem refl (w : World) : Copying w w := ⟨⟨w.heap, _, _, .refl _, rfl⟩, .refl w⟩

theorem trans (c : Copying w w₁) (c' : Copying w₁ w₂) : Copying w w₂ := by
  refine ⟨?_, c.reaches.trans c'.reaches⟩
  obtain ⟨heap, held, roots, extends₁, rfl⟩ := c.world
  obtain ⟨heap', held', roots', extends₂, rfl⟩ := c'.world
  exact ⟨heap', held', roots', extends₁.trans extends₂, rfl⟩

theorem extends_heap (c : Copying w w₁) : w.heap.Extends w₁.heap := by
  obtain ⟨heap, held, roots, more, rfl⟩ := c.world
  exact more

theorem runtime (c : Copying w w₁) : w₁.runtime = w.runtime := by
  obtain ⟨heap, held, roots, _, rfl⟩ := c.world
  rfl

theorem config (c : Copying w w₁) : w₁.config = w.config := by
  obtain ⟨heap, held, roots, _, rfl⟩ := c.world
  rfl

theorem registry (c : Copying w w₁) : w₁.engine.registry = w.engine.registry := by
  obtain ⟨heap, held, roots, _, rfl⟩ := c.world
  rfl

theorem objects (c : Copying w w₁) : w₁.engine.objects = w.engine.objects := by
  obtain ⟨heap, held, roots, _, rfl⟩ := c.world
  rfl

theorem ordinary (c : Copying w w₁) (h : Ordinary w id o) : Ordinary w₁ id o :=
  ⟨c.objects ▸ h.found, h.standsFor⟩

theorem finds (c : Copying w w₁) {key : PropertyKey} {start : Option ObjectId} {v : ScriptValue}
    (h : Finds w key start v) : Finds w₁ key start v :=
  h.of_objects fun _ _ => c.ordinary

theorem inherits (c : Copying w w₁) {ε : Type} {prototype : ObjectId} {b : Bool}
    (h : (Script.inherits id prototype : Act ε Bool) w = (.value b, w)) :
    (Script.inherits id prototype : Act ε Bool) w₁ = (.value b, w₁) := by
  obtain ⟨b', here, there⟩ := Script.inherits_of_objects (ε := ε) c.objects id prototype
  rw [h] at here
  cases here
  exact there

theorem of_newSequence {s : SequenceId} {items : List Value}
    (made : (Act.newSequence items : HostAct _) w = (.value s, w₁)) : Copying w w₁ := by
  refine ⟨?_, Act.reaches made⟩
  cases made
  exact ⟨_, _, _, .push w.heap items, rfl⟩

theorem of_hold {ref : ScriptRef} (holds : Bridge.hold id w = (.value ref, w₁)) :
    Copying w w₁ := by
  refine ⟨?_, Act.reaches holds⟩
  obtain ⟨held, roots, rfl⟩ := Bridge.hold_world holds
  exact ⟨w.heap, held, roots, .refl _, rfl⟩

end Copying

/-! ### Sequences of their own -/

/-- What is found in a value along a path of positions in sequences from a number on. -/
inductive At (first : Nat) (h : Heap) : Value → List Nat → Value → Prop where
  | here (x : Value) : At first h x [] x
  | inside {s : SequenceId} {i : Nat} {path : List Nat} {x y : Value} (new : first ≤ s.index)
    (item : (h.sequence s)[i]? = some x) (rest : At first h x path y) :
    At first h (.sequence s) (i :: path) y

/-- The new sequences in a value are numbered from one number up to another, and each is found along
one path only, also when others are made later. -/
structure Owns (first low high : Nat) (h : Heap) (x : Value) : Prop where
  range : ∀ h', h.Extends h' → ∀ path s, At first h' x path (.sequence s) → first ≤ s.index →
    low ≤ s.index ∧ s.index < high
  apart : ∀ h', h.Extends h' → ∀ path path' s, At first h' x path (.sequence s) →
    At first h' x path' (.sequence s) → first ≤ s.index → path = path'

/-- The same for the values of a list, of which no two share a new sequence. -/
structure OwnsAll (first low high : Nat) (h : Heap) (xs : List Value) : Prop where
  range : ∀ h', h.Extends h' → ∀ (i : Nat) (x : Value) path s, xs[i]? = some x →
    At first h' x path (.sequence s) → first ≤ s.index → low ≤ s.index ∧ s.index < high
  apart : ∀ h', h.Extends h' → ∀ (i j : Nat) (x y : Value) path path' s, xs[i]? = some x →
    xs[j]? = some y →
    At first h' x path (.sequence s) → At first h' y path' (.sequence s) → first ≤ s.index →
    i = j ∧ path = path'

section

variable {first low middle high : Nat} {h h' : Heap} {x : Value} {xs : List Value}

/-- Values in which there are no new sequences. -/
theorem Owns.of_old (old : ∀ s, x = .sequence s → s.index < first) : Owns first low high h x := by
  have never {h' : Heap} {path : List Nat} {s : SequenceId}
      (found : At first h' x path (.sequence s)) (new : first ≤ s.index) : False := by
    cases found with
    | here => exact Nat.not_lt_of_le new (old s rfl)
    | @inside t _ _ _ _ new' => exact Nat.not_lt_of_le new' (old t rfl)
  exact ⟨fun _ _ _ _ found new => (never found new).elim,
    fun _ _ _ _ _ found _ new => (never found new).elim⟩

theorem OwnsAll.nil : OwnsAll first low low h [] := by
  constructor
  · intro h' _ i x path s item
    cases item
  · intro h' _ i j x y path path' s item
    cases item

theorem OwnsAll.cons (head : Owns first low middle h x) (later : h.Extends h')
    (tail : OwnsAll first middle high h' xs) (le : low ≤ middle) (le' : middle ≤ high) :
    OwnsAll first low high h' (x :: xs) := by
  constructor
  · intro g extended i y path s item found new
    cases i with
    | zero =>
      cases item
      have := head.range g (later.trans extended) path s found new
      omega
    | succ i =>
      have := tail.range g extended i y path s item found new
      omega
  · intro g extended i j y z path path' s item item' found found' new
    cases i with
    | zero =>
      cases item
      cases j with
      | zero =>
        cases item'
        exact ⟨rfl, head.apart g (later.trans extended) path path' s found found' new⟩
      | succ j =>
        have := head.range g (later.trans extended) path s found new
        have := tail.range g extended j z path' s item' found' new
        omega
    | succ i =>
      cases j with
      | zero =>
        cases item'
        have := head.range g (later.trans extended) path' s found' new
        have := tail.range g extended i y path s item found new
        omega
      | succ j =>
        obtain ⟨same, same'⟩ :=
          tail.apart g extended i j y z path path' s item item' found found' new
        exact ⟨congrArg (· + 1) same, same'⟩

/-- A new sequence of values comes after all that are in them. -/
theorem OwnsAll.push (all : OwnsAll first low h.sequences.size h xs)
    (le : low ≤ h.sequences.size) :
    Owns first low (h.sequences.size + 1) (h.pushSequence xs) (.sequence h.nextSequence) := by
  have stored {g : Heap} (extended : (h.pushSequence xs).Extends g) :
      g.sequence h.nextSequence = xs := by
    rw [extended.sequence_eq (by rw [Heap.pushSequence, Arena.size_push]; exact Nat.lt_succ_self _),
      Heap.sequence_pushSequence_next]
  have before {g : Heap} (extended : (h.pushSequence xs).Extends g) :=
    (Heap.Extends.push h xs).trans extended
  constructor
  · intro g extended path s found new
    cases found with
    | here => exact ⟨le, Nat.lt_succ_self _⟩
    | inside _ item rest =>
      rw [stored extended] at item
      have := all.range g (before extended) _ _ _ s item rest new
      omega
  · intro g extended path path' s found found' new
    cases found with
    | here =>
      cases found' with
      | here => rfl
      | inside _ item rest =>
        rw [stored extended] at item
        have := (all.range g (before extended) _ _ _ _ item rest new).2
        exact absurd this (Nat.lt_irrefl _)
    | inside _ item rest =>
      rw [stored extended] at item
      cases found' with
      | here =>
        have := (all.range g (before extended) _ _ _ _ item rest new).2
        exact absurd this (Nat.lt_irrefl _)
      | inside _ item' rest' =>
        rw [stored extended] at item'
        obtain ⟨same, same'⟩ :=
          all.apart g (before extended) _ _ _ _ _ _ s item item' rest rest' new
        rw [same, same']

end

end ScriptBridge
