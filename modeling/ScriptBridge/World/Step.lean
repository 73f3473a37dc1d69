import ScriptBridge.Script.Intrinsics

/-!
What one step may do to the world, and what a run of steps may do. Every action carries the proof
that all it does to the world is such a run, so what the steps keep holds of all programs.
-/

namespace ScriptBridge

/-! ### Host containers -/

/-- Host containers are added and written; functions are only added. -/
inductive HeapStep : Heap → Heap → Prop where
  | sequenceWritten (h : Heap) (id : SequenceId) (items : List Value) :
    HeapStep h (h.setSequence id items)
  | sequenceAdded (h : Heap) (items : List Value) : HeapStep h (h.pushSequence items)
  | plainWritten (h : Heap) (id : PlainId) (entries : Entries String Value) :
    HeapStep h (h.setPlain id entries)
  | plainAdded (h : Heap) (entries : Entries String Value) : HeapStep h (h.pushPlain entries)
  | functionAdded (h : Heap) (f : HostFunction) : HeapStep h (h.pushFunction f)

/-! ### Script objects -/

/-- How the kind of an object changes. A stand-in stands for one container for good. -/
inductive ObjectKind.Becomes : ObjectKind → ObjectKind → Prop where
  | same (kind : ObjectKind) : Becomes kind kind
  | moved {kind kind' : ObjectKind} (h : kind.movesTo kind') : Becomes kind kind'

/-- The later states of a kind, with one case for each kind that has any. -/
inductive ObjectKind.Moves : ObjectKind → ObjectKind → Prop where
  | cursor {c d : Cursor} (sequence : d.sequence = c.sequence) (kind : d.kind = c.kind) :
    Moves (.function (.cursorNext c)) (.function (.cursorNext d))
  | iterable (values flags values' flags' : List ScriptExpr) :
    Moves (.function (.iterableNext values flags)) (.function (.iterableNext values' flags'))
  | generator (state state' : GeneratorState) : Moves (.generator state) (.generator state')
  | arrayIterator (source source' : Option ObjectId) (kind kind' : CursorKind)
    (position position' : Nat) :
    Moves (.arrayIterator source kind position) (.arrayIterator source' kind' position')
  | stringIterator (rest rest' : Utf16) : Moves (.stringIterator rest) (.stringIterator rest')

theorem ObjectKind.movesTo_iff {k k' : ObjectKind} : k.movesTo k' ↔ k.Moves k' := by
  constructor
  · intro h
    unfold movesTo at h
    split at h
    · rw [Bool.and_eq_true, beq_iff_eq, beq_iff_eq] at h
      exact .cursor h.1.symm h.2.symm
    · exact .iterable ..
    · exact .generator ..
    · exact .arrayIterator ..
    · exact .stringIterator ..
    · cases h
  · intro h
    cases h with
    | cursor sequence kind => simp [movesTo, sequence, kind]
    | iterable | generator | arrayIterator | stringIterator => rfl

/-- Every fixed property under a name is kept. -/
def KeepsFixed (old new : Entries PropertyKey Property) : Prop :=
  ∀ t p, old.get? (.name t) = some p → p.isFixed → new.get? (.name t) = some p

theorem KeepsFixed.refl (ps : Entries PropertyKey Property) : KeepsFixed ps ps :=
  fun _ _ h _ => h

theorem KeepsFixed.trans {a b c : Entries PropertyKey Property} (h : KeepsFixed a b)
    (h' : KeepsFixed b c) : KeepsFixed a c :=
  fun t p found fixed => h' t p (h t p found fixed) fixed

structure Object.Becomes (o o' : Object) : Prop where
  kind : o.kind.Becomes o'.kind
  fixed : KeepsFixed o.properties o'.properties

namespace Object

theorem Becomes.refl (o : Object) : o.Becomes o := ⟨.same _, .refl _⟩

@[simp] theorem kind_write (o : Object) (key : PropertyKey) (p : Property) :
    (o.write key p).kind = o.kind := by
  unfold write
  split <;> rfl

theorem keepsFixed_write (o : Object) (key : PropertyKey) (p : Property) :
    KeepsFixed o.properties (o.write key p).properties := by
  intro t q found fixed
  unfold write
  split
  · exact found
  · rename_i hw
    by_cases hk : key = .name t
    · subst hk
      simp [found, fixed] at hw
    · exact (Entries.get?_insert_of_ne _ hk p).trans found

theorem becomes_write (o : Object) (key : PropertyKey) (p : Property) :
    o.Becomes (o.write key p) :=
  ⟨by rw [kind_write]; exact .same _, o.keepsFixed_write key p⟩

theorem becomes_remove (o : Object) (key : PropertyKey) : o.Becomes (o.remove key) := by
  unfold remove
  split
  · rename_i hc
    refine ⟨.same _, ?_⟩
    intro t q found fixed
    have hk : key ≠ .name t := by
      rintro rfl
      cases q with
      | data => simp_all [Property.isFixed, Property.configurable]
      | accessor => simp [Property.isFixed] at fixed
    exact (Entries.get?_erase_of_ne _ hk).trans found
  · exact .refl o

theorem becomes_moved (o : Object) (kind : ObjectKind) : o.Becomes (o.moved kind) := by
  unfold moved
  split
  · exact ⟨.moved ‹_›, .refl _⟩
  · exact .refl o

theorem becomes_prototype (o : Object) (prototype : Option ObjectId) :
    o.Becomes { o with prototype } := ⟨.same _, .refl _⟩

end Object

/-! ### Runtimes -/

/-- The hidden key under which the error object of a host error keeps its tag. -/
def Bridge.tagKey : PropertyKey := .name (.ofString "__tetherHostError")

def Object.tagged (o : Object) (tag : Nat) : Object :=
  { o with properties := o.properties.insert Bridge.tagKey (.fixed (.number (.ofNat tag))) }

namespace Engine

/-- Puts the stand-in of a handle on the heap. -/
def expose (e : Engine) (handle : Handle) (o : Object) : Engine :=
  { e with
    objects := e.objects.push o
    registry := e.registry.register handle ⟨e.objects.size⟩ }

/-- Puts the function object of a method on the heap and keeps it with a stand-in. -/
def addMethod (e : Engine) (proxy : ObjectId) (o : Object) (method : SequenceMethod)
    (code : Object) : Engine :=
  { e with
    objects := (e.objects.push code).set proxy.index (o.addMethod method ⟨e.objects.size⟩) }

/-- Keeps a host error until it is recovered, under a new tag that its error object bears. -/
def raise (e : Engine) (error : Error) (o : Object) : Engine :=
  { e with
    objects := e.objects.push (o.tagged e.nextTag)
    stash := (e.nextTag, error) :: e.stash
    nextTag := e.nextTag + 1 }

def forget (e : Engine) (tag : Nat) : Engine := { e with stash := e.stash.filter (·.1 != tag) }

/-- The runtime inside an entry. -/
def entered (e : Engine) : Engine := { e with depth := e.depth + 1 }

/-- The runtime after an entry. Leaving the outermost one drops host errors that nobody
recovered. -/
def left (e : Engine) : Engine :=
  { e with depth := e.depth - 1, stash := if e.depth - 1 = 0 then [] else e.stash }

end Engine

inductive EngineStep : Engine → Engine → Prop where
  | objectAdded (e : Engine) (o : Object) (h : o.kind.standsFor? = none) :
    EngineStep e { e with objects := e.objects.push o }
  | objectChanged (e : Engine) (id : ObjectId) (o o' : Object)
      (found : e.objects.get? id.index = some o) (h : o.Becomes o') :
    EngineStep e { e with objects := e.objects.set id.index o' }
  | symbolMade (e : Engine) : EngineStep e { e with symbols := e.symbols + 1 }
  | jobQueued (e : Engine) (job : Job) : EngineStep e { e with jobs := e.jobs ++ [job] }
  | jobTaken (e : Engine) : EngineStep e { e with jobs := e.jobs.tail }
  | exposed (e : Engine) (handle : Handle) (o : Object)
      (fresh : e.registry.standIn? handle = none) (h : o.kind.standsFor? = some handle)
      (bare : o.kind.methods = []) :
    EngineStep e (e.expose handle o)
  | methodAdded (e : Engine) (proxy : ObjectId) (o : Object) (s : SequenceId)
      (method : SequenceMethod) (code : Object) (found : e.objects.get? proxy.index = some o)
      (h : o.kind.standsFor? = some (.sequence s))
      (runs : code.kind = .function (.sequenceMethod s method)) :
    EngineStep e (e.addMethod proxy o method code)
  | held (e : Engine) (id : ObjectId) (fresh : id ∉ e.held) :
    EngineStep e { e with held := e.held ++ [id] }
  | rooted (e : Engine) : EngineStep e { e with roots := e.roots.take }
  | dropped (e : Engine) (number : Nat) : EngineStep e { e with roots := e.roots.drop number }
  | raised (e : Engine) (error : Error) (o : Object) (h : o.kind = .error) :
    EngineStep e (e.raise error o)
  | recovered (e : Engine) (tag : Nat) : EngineStep e (e.forget tag)

/-! ### The world -/

/-- A new runtime in place of the old one, which releases the references that the host still has. -/
def World.restarted (w : World) : World :=
  { w with
    engine := .fresh
    runtime := w.runtime + 1
    released := w.engine.roots.live.map (w.runtime, ·) ++ w.released }

@[simp] theorem World.heap_restarted (w : World) : w.restarted.heap = w.heap := by
  -- for all runtimes, since checking it for the new one compares that with the old one
  have kept (engine : Engine) (runtime : Nat) (released : List (Nat × Nat)) :
    ({ w with engine, runtime, released } : World).heap = w.heap := rfl
  exact kept _ _ _

@[simp] theorem World.runtime_restarted (w : World) : w.restarted.runtime = w.runtime + 1 := by
  rw [restarted]

@[simp] theorem World.released_restarted (w : World) :
    w.restarted.released = w.engine.roots.live.map (w.runtime, ·) ++ w.released := by
  rw [restarted]

/-- What one step does to the world. A new runtime is started only while none is entered. -/
inductive Step : World → World → Prop where
  | heap (w : World) (h : Heap) (s : HeapStep w.heap h) : Step w { w with heap := h }
  | engine (w : World) (e : Engine) (s : EngineStep w.engine e) : Step w { w with engine := e }
  | bound (w : World) (name : String) (v : Value) : Step w (w.setVariable name v)
  | logged (w : World) (picture : Picture) : Step w { w with log := w.log ++ [picture] }
  | exited (w : World) (code : Int) : Step w { w with exitCode := some code }
  | started (w : World) (h : w.engine.depth = 0) : Step w w.restarted

namespace World

def entered (w : World) : World := { w with engine := w.engine.entered }

def left (w : World) : World := { w with engine := w.engine.left }

end World

/-- What a run does to the world: one step after another, entries being left before the run ends. -/
inductive Steps : World → World → Prop where
  | refl (w : World) : Steps w w
  | step {w w₁ w₂ : World} (s : Step w w₁) (rest : Steps w₁ w₂) : Steps w w₂
  | entry {w w₁ w₂ : World} (inside : Steps w.entered w₁) (rest : Steps w₁.left w₂) : Steps w w₂

namespace Steps

theorem single {w w' : World} (s : Step w w') : Steps w w' := .step s (.refl w')

theorem trans {w w₁ w₂ : World} (h : Steps w w₁) (h' : Steps w₁ w₂) : Steps w w₂ := by
  induction h with
  | refl => exact h'
  | step s _ ih => exact .step s (ih h')
  | entry inside _ _ ih => exact .entry inside (ih h')

/-- A relation that holds of every step and around every entry holds of every run. -/
theorem lift {R : World → World → Prop} (refl : ∀ w, R w w)
    (trans : ∀ {a b c}, R a b → R b c → R a c) (step : ∀ {w w'}, Step w w' → R w w')
    (entry : ∀ {w w'}, R w.entered w' → R w w'.left) {w w' : World} (h : Steps w w') :
    R w w' := by
  induction h with
  | refl w => exact refl w
  | step s _ ih => exact trans (step s) ih
  | entry _ _ inside rest => exact trans (entry inside) rest

end Steps

end ScriptBridge
