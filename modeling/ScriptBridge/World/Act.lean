import ScriptBridge.World.Step

/-!
Actions: what host and script code do to the world. An action carries the proof that its effect on
the world is a run of steps.
-/

namespace ScriptBridge

/-- How an action ends: with a value, with a failure, or without an answer because its bound on
nested calls ran out. -/
inductive Outcome (ε α : Type) where
  | value (a : α)
  | failure (e : ε)
  | exhausted
deriving DecidableEq

/-- What runs on the world and may fail; the world is kept however it ends. -/
structure Act (ε α : Type) where
  run : World → Outcome ε α × World
  steps : ∀ w, Steps w (run w).2

instance {ε α : Type} : CoeFun (Act ε α) fun _ => World → Outcome ε α × World := ⟨Act.run⟩

abbrev HostAct := Act Error

abbrev ScriptAct := Act ScriptValue

namespace Act

variable {ε δ α β : Type}

theorem steps_of {x : Act ε α} {w w' : World} {outcome : Outcome ε α} (h : x w = (outcome, w')) :
    Steps w w' := by
  have run := x.steps w
  rwa [h] at run

def pure (a : α) : Act ε α := ⟨fun w => (.value a, w), .refl⟩

def bind (x : Act ε α) (f : α → Act ε β) : Act ε β where
  run w :=
    match x w with
    | (.value a, w) => f a w
    | (.failure e, w) => (.failure e, w)
    | (.exhausted, w) => (.exhausted, w)
  steps w := by
    have h := x.steps w
    rcases hx : x w with ⟨_ | _ | _, w₁⟩ <;> rw [hx] at h
    · exact h.trans ((f _).steps w₁)
    · exact h
    · exact h

instance : Monad (Act ε) where
  pure := pure
  bind := bind

@[simp] theorem run_pure (a : α) (w : World) : (Pure.pure a : Act ε α) w = (.value a, w) := rfl

theorem run_bind (x : Act ε α) (f : α → Act ε β) (w : World) :
    (x >>= f) w =
      match x w with
      | (.value a, w) => f a w
      | (.failure e, w) => (.failure e, w)
      | (.exhausted, w) => (.exhausted, w) := rfl

theorem ext_run {x y : Act ε α} (h : ∀ w, x w = y w) : x = y := by
  cases x with
  | mk run steps =>
    cases y with
    | mk run' steps' =>
      obtain rfl : run = run' := funext h
      rfl

theorem bind_pure_self (x : Act ε α) : x >>= Pure.pure = x := by
  apply ext_run
  intro w
  rw [run_bind]
  rcases x w with ⟨_ | _ | _, w₁⟩ <;> rfl

theorem bind_bind {γ : Type} (x : Act ε α) (f : α → Act ε β) (g : β → Act ε γ) :
    x >>= f >>= g = x >>= fun a => f a >>= g := by
  apply ext_run
  intro w
  rw [run_bind, run_bind, run_bind]
  rcases x w with ⟨_ | _ | _, w₁⟩ <;> rfl

instance : LawfulMonad (Act ε) := .mk' _ bind_pure_self (fun _ _ => rfl) bind_bind

theorem bind_of_value {x : Act ε α} {w w₁ : World} {a : α} (h : x w = (.value a, w₁))
    (f : α → Act ε β) : (x >>= f) w = f a w₁ := by
  rw [run_bind, h]

theorem bind_of_failure {x : Act ε α} {w w₁ : World} {e : ε} (h : x w = (.failure e, w₁))
    (f : α → Act ε β) : (x >>= f) w = (.failure e, w₁) := by
  rw [run_bind, h]

theorem bind_of_exhausted {x : Act ε α} {w w₁ : World} (h : x w = (.exhausted, w₁))
    (f : α → Act ε β) : (x >>= f) w = (.exhausted, w₁) := by
  rw [run_bind, h]

/-- A failure comes from the first action, or from the second after the first gave its value. -/
theorem of_bind_failure {x : Act ε α} {f : α → Act ε β} {w w₂ : World} {e : ε}
    (h : (x >>= f) w = (.failure e, w₂)) :
    x w = (.failure e, w₂) ∨ ∃ a w₁, x w = (.value a, w₁) ∧ f a w₁ = (.failure e, w₂) := by
  rw [run_bind] at h
  rcases hx : x w with ⟨a | e' | _, w₁⟩ <;> rw [hx] at h
  · exact .inr ⟨a, w₁, rfl, h⟩
  · cases h
    exact .inl rfl
  · cases h

theorem of_bind_value {x : Act ε α} {f : α → Act ε β} {w w₂ : World} {b : β}
    (h : (x >>= f) w = (.value b, w₂)) :
    ∃ a w₁, x w = (.value a, w₁) ∧ f a w₁ = (.value b, w₂) := by
  rw [run_bind] at h
  rcases hx : x w with ⟨a | e' | _, w₁⟩ <;> rw [hx] at h
  · exact ⟨a, w₁, rfl, h⟩
  · cases h
  · cases h

theorem of_bind_exhausted {x : Act ε α} {f : α → Act ε β} {w w₂ : World}
    (h : (x >>= f) w = (.exhausted, w₂)) :
    x w = (.exhausted, w₂) ∨ ∃ a w₁, x w = (.value a, w₁) ∧ f a w₁ = (.exhausted, w₂) := by
  rw [run_bind] at h
  rcases hx : x w with ⟨a | e | _, w₁⟩ <;> rw [hx] at h
  · exact .inr ⟨a, w₁, rfl, h⟩
  · cases h
  · cases h
    exact .inl rfl

def fail (e : ε) : Act ε α := ⟨fun w => (.failure e, w), .refl⟩

def giveUp : Act ε α := ⟨fun w => (.exhausted, w), .refl⟩

def read (f : World → α) : Act ε α := ⟨fun w => (.value (f w), w), .refl⟩

@[simp] theorem run_fail (e : ε) (w : World) : (fail e : Act ε α) w = (.failure e, w) := rfl

@[simp] theorem run_giveUp (w : World) : (giveUp : Act ε α) w = (.exhausted, w) := rfl

@[simp] theorem run_read (f : World → α) (w : World) :
    (read f : Act ε α) w = (.value (f w), w) := rfl

@[simp] theorem read_bind (f : World → α) (g : α → Act ε β) (w : World) :
    (read f >>= g) w = g (f w) w := rfl

/-- Goes on from a failure, in the world it left. -/
def recover (x : Act ε α) (handle : ε → Act δ α) : Act δ α where
  run w :=
    match x w with
    | (.value a, w) => (.value a, w)
    | (.failure e, w) => handle e w
    | (.exhausted, w) => (.exhausted, w)
  steps w := by
    have h := x.steps w
    rcases hx : x w with ⟨_ | _ | _, w₁⟩ <;> rw [hx] at h
    · exact h
    · exact h.trans ((handle _).steps w₁)
    · exact h

theorem recover_of_value {x : Act ε α} {w w₁ : World} {a : α} (h : x w = (.value a, w₁))
    (handle : ε → Act δ α) : x.recover handle w = (.value a, w₁) := by
  simp only [recover, h]

theorem recover_of_failure {x : Act ε α} {w w₁ : World} {e : ε} (h : x w = (.failure e, w₁))
    (handle : ε → Act δ α) : x.recover handle w = handle e w₁ := by
  simp only [recover, h]

/-- Makes a failure a result. -/
def attempt (x : Act ε α) : Act δ (Except ε α) where
  run w :=
    match x w with
    | (.value a, w) => (.value (.ok a), w)
    | (.failure e, w) => (.value (.error e), w)
    | (.exhausted, w) => (.exhausted, w)
  steps w := by
    have h := x.steps w
    rcases hx : x w with ⟨_ | _ | _, w₁⟩ <;> rw [hx] at h <;> exact h

theorem attempt_of_value {x : Act ε α} {w w₁ : World} {a : α} (h : x w = (.value a, w₁)) :
    (x.attempt : Act δ _) w = (.value (.ok a), w₁) := by
  simp only [attempt, h]

theorem attempt_of_failure {x : Act ε α} {w w₁ : World} {e : ε} (h : x w = (.failure e, w₁)) :
    (x.attempt : Act δ _) w = (.value (.error e), w₁) := by
  simp only [attempt, h]

theorem attempt_of_exhausted {x : Act ε α} {w w₁ : World} (h : x w = (.exhausted, w₁)) :
    (x.attempt : Act δ _) w = (.exhausted, w₁) := by
  simp only [attempt, h]

def ofExcept : Except ε α → Act ε α
  | .ok a => pure a
  | .error e => fail e

def forEach (f : α → Act ε Unit) : List α → Act ε Unit
  | [] => pure ()
  | x :: xs => bind (f x) fun _ => forEach f xs

def mapAll (f : α → Act ε β) : List α → Act ε (List β)
  | [] => pure []
  | x :: xs => bind (f x) fun y => bind (mapAll f xs) fun ys => pure (y :: ys)

def modify (f : World → World) (h : ∀ w, Step w (f w) := by intro w; exact .bound w _ _) :
    Act ε Unit :=
  ⟨fun w => (.value (), f w), fun w => .single (h w)⟩

/-! #### Entries -/

def entering (x : Act ε α) : Act ε α where
  run w :=
    match x w.entered with
    | (outcome, w) => (outcome, w.left)
  steps w := .entry (x.steps w.entered) (.refl _)

/-- Starts a new runtime, unless one is entered. -/
def restart : Act ε Unit where
  run w :=
    if w.engine.depth = 0 then (.value (), w.restarted) else (.value (), w)
  steps w := by
    by_cases h : w.engine.depth = 0
    · simpa only [h, if_true] using .single (.started w h)
    · simpa only [h, if_false] using .refl w

theorem restart_of_idle {w : World} (idle : w.engine.depth = 0) :
    (restart : Act ε Unit) w = (.value (), w.restarted) :=
  if_pos idle

/-! #### Host containers -/

def elements (id : SequenceId) : Act ε (List Value) := read (·.heap.sequence id)

def modifyHeap (f : Heap → Heap)
    (h : ∀ heap, HeapStep heap (f heap) := by
      intro heap
      first
        | exact .plainWritten heap _ _
        | exact .sequenceWritten heap _ _) :
    Act ε Unit :=
  modify (fun w => { w with heap := f w.heap }) fun w => .heap w _ (h w.heap)

def setElements (id : SequenceId) (items : List Value) : Act ε Unit :=
  modifyHeap (·.setSequence id items)

/-- Writes a key of a plain object. -/
def setEntry (id : PlainId) (key : String) (v : Value) : Act ε Unit :=
  modifyHeap fun h => h.setPlain id ((h.plain id).insert key v)

/-- Removes a key of a plain object, and gives its value. -/
def removeEntry (id : PlainId) (key : String) : Act ε (Option Value) where
  run w :=
    (.value ((w.heap.plain id).get? key),
      { w with heap := w.heap.setPlain id ((w.heap.plain id).erase key) })
  steps w := .single (.heap w _ (.plainWritten w.heap id _))

def newSequence (items : List Value) : Act ε SequenceId where
  run w := (.value w.heap.nextSequence, { w with heap := w.heap.pushSequence items })
  steps w := .single (.heap w _ (.sequenceAdded w.heap items))

def newPlain (entries : Entries String Value) : Act ε PlainId where
  run w := (.value w.heap.nextPlain, { w with heap := w.heap.pushPlain entries })
  steps w := .single (.heap w _ (.plainAdded w.heap entries))

def newFunction (f : HostFunction) : Act ε HostFunctionId where
  run w := (.value w.heap.nextFunction, { w with heap := w.heap.pushFunction f })
  steps w := .single (.heap w _ (.functionAdded w.heap f))

/-! #### Script objects -/

def modifyEngine (f : Engine → Engine) (h : ∀ e, EngineStep e (f e)) : Act ε Unit :=
  modify (fun w => { w with engine := f w.engine }) fun w => .engine w _ (h w.engine)

def object? (id : ObjectId) : Act ε (Option Object) := read (·.engine.objects.get? id.index)

theorem object?_bind {w : World} {id : ObjectId} {o : Object}
    (found : w.engine.objects.get? id.index = some o) (f : Option Object → Act ε α) :
    (object? id >>= f) w = f (some o) w := by
  rw [object?, read_bind, found]

def editObject (id : ObjectId) (f : Object → Object) (h : ∀ o : Object, o.Becomes (f o)) :
    Act ε Unit where
  run w :=
    match w.engine.objects.get? id.index with
    | none => (.value (), w)
    | some o =>
      (.value (), { w with engine :=
        { w.engine with objects := w.engine.objects.set id.index (f o) } })
  steps w := by
    cases found : w.engine.objects.get? id.index with
    | none => exact .refl w
    | some o => exact .single (.engine w _ (.objectChanged w.engine id o (f o) found (h o)))

theorem editObject_of_found {w : World} {id : ObjectId} {o : Object} (f : Object → Object)
    (h : ∀ o : Object, o.Becomes (f o)) (found : w.engine.objects.get? id.index = some o) :
    (editObject id f h : Act ε _) w = (.value (), { w with engine :=
      { w.engine with objects := w.engine.objects.set id.index (f o) } }) := by
  simp only [editObject, found]

/-- An edit always succeeds. It depends on the objects of the script alone and changes nothing
else. -/
theorem editObject_eq (id : ObjectId) (f : Object → Object) (h : ∀ o : Object, o.Becomes (f o))
    (w : World) : ∃ objects, ∀ heap, (editObject id f h : Act ε _) { w with heap } =
      (.value (), { w with heap, engine := { w.engine with objects } }) := by
  cases found : w.engine.objects.get? id.index with
  | none => exact ⟨w.engine.objects, fun heap => by simp only [editObject, found]⟩
  | some o =>
    exact ⟨w.engine.objects.set id.index (f o), fun heap => by simp only [editObject, found]⟩

/-- A new object of the script heap that stands for nothing. -/
def newObject (o : Object) (h : o.kind.standsFor? = none := by rfl) : Act ε ObjectId where
  run w :=
    (.value ⟨w.engine.objects.size⟩,
      { w with engine := { w.engine with objects := w.engine.objects.push o } })
  steps w := .single (.engine w _ (.objectAdded w.engine o h))

/-- A new stand-in of a handle, or the one it has. -/
def expose (handle : Handle) (o : Object) (h : o.kind.standsFor? = some handle)
    (bare : o.kind.methods = [] := by rfl) : Act ε ObjectId where
  run w :=
    match w.engine.registry.standIn? handle with
    | some id => (.value id, w)
    | none =>
      (.value ⟨w.engine.objects.size⟩, { w with engine := w.engine.expose handle o })
  steps w := by
    cases fresh : w.engine.registry.standIn? handle with
    | some id => exact .refl w
    | none => exact .single (.engine w _ (.exposed w.engine handle o fresh h bare))

theorem expose_of_registered {w : World} {handle : Handle} {id : ObjectId} {o : Object}
    (h : o.kind.standsFor? = some handle) (bare : o.kind.methods = [])
    (registered : w.engine.registry.standIn? handle = some id) :
    (expose handle o h bare : Act ε _) w = (.value id, w) := by
  simp only [expose, registered]

theorem expose_of_new {w : World} {handle : Handle} {o : Object}
    (h : o.kind.standsFor? = some handle) (bare : o.kind.methods = [])
    (new : w.engine.registry.standIn? handle = none) :
    (expose handle o h bare : Act ε _) w =
      (.value ⟨w.engine.objects.size⟩, { w with engine := w.engine.expose handle o }) := by
  simp only [expose, new]

/-- A new function object of a method, which the stand-in of the sequence keeps. -/
def addMethod (proxy : ObjectId) (s : SequenceId) (method : SequenceMethod) (code : Object)
    (h : code.kind = .function (.sequenceMethod s method) := by rfl) : Act ε ObjectId where
  run w :=
    (.value ⟨w.engine.objects.size⟩,
      { w with engine :=
        match w.engine.objects.get? proxy.index with
        | some o =>
          if o.kind.standsFor? = some (.sequence s) then w.engine.addMethod proxy o method code
          else { w.engine with objects := w.engine.objects.push code }
        | none => { w.engine with objects := w.engine.objects.push code } })
  steps w := by
    have plain : code.kind.standsFor? = none := by
      rw [h]
      rfl
    refine .single (.engine w _ ?_)
    cases found : w.engine.objects.get? proxy.index with
    | none => exact .objectAdded w.engine code plain
    | some o =>
      simp only
      split
      · exact .methodAdded w.engine proxy o s method code found ‹_› h
      · exact .objectAdded w.engine code plain

/-- The identity of an object the host holds; the first time it gets the next number. -/
def identify (id : ObjectId) : Act ε Nat where
  run w :=
    match w.engine.held.idxOf? id with
    | some i => (.value (i + 1), w)
    | none =>
      (.value (w.engine.held.length + 1),
        { w with engine := { w.engine with held := w.engine.held ++ [id] } })
  steps w := by
    cases found : w.engine.held.idxOf? id with
    | some i => exact .refl w
    | none =>
      have fresh : id ∉ w.engine.held := List.idxOf?_eq_none_iff.1 found
      exact .single (.engine w _ (.held w.engine id fresh))

/-- Asking for an identity changes at most what is held, and then the object is held under it. -/
theorem identify_eq (id : ObjectId) (w : World) : ∃ i held,
    (identify id : Act ε _) w = (.value (i + 1), { w with engine := { w.engine with held } }) ∧
      held[i]? = some id := by
  cases found : w.engine.held.idxOf? id with
  | some i =>
    obtain ⟨inside, here, _⟩ := List.idxOf?_eq_some_iff.1 found
    refine ⟨i, w.engine.held, by simp only [identify, found], ?_⟩
    rw [List.getElem?_eq_getElem inside, here]
  | none =>
    exact ⟨w.engine.held.length, w.engine.held ++ [id], by simp only [identify, found],
      List.getElem?_concat_length⟩

/-- The number of a new reference to an object of the live runtime. -/
def root : Act ε Nat where
  run w :=
    (.value w.engine.roots.taken,
      { w with engine := { w.engine with roots := w.engine.roots.take } })
  steps w := .single (.engine w _ (.rooted w.engine))

/-- The host gives up a reference. That of a runtime that is gone is of no concern to the live
one. -/
def letGo (ref : ScriptRef) : Act ε Unit where
  run w :=
    if ref.runtime = w.runtime then
      (.value (),
        { w with engine := { w.engine with roots := w.engine.roots.drop ref.number } })
    else (.value (), w)
  steps w := by
    by_cases h : ref.runtime = w.runtime
    · simpa only [h, if_true] using .single (.engine w _ (.dropped w.engine ref.number))
    · simpa only [h, if_false] using .refl w

/-- Keeps a host error until it is recovered, and makes the error object that remembers it. -/
def raise (e : Error) (o : Object) (h : o.kind = .error) : Act ε ObjectId where
  run w := (.value ⟨w.engine.objects.size⟩, { w with engine := w.engine.raise e o })
  steps w := .single (.engine w _ (.raised w.engine e o h))

/-- Takes a host error out that was thrown into the script, if it is still there. -/
def takeError (tag : Nat) : Act ε (Option Error) where
  run w :=
    match w.engine.stash.find? (·.1 == tag) with
    | none => (.value none, w)
    | some (_, e) => (.value (some e), { w with engine := w.engine.forget tag })
  steps w := by
    cases w.engine.stash.find? (·.1 == tag) with
    | none => exact .refl w
    | some p => exact .single (.engine w _ (.recovered w.engine tag))

theorem takeError_of_found {w : World} {tag : Nat} {p : Nat × Error}
    (found : w.engine.stash.find? (·.1 == tag) = some p) : (takeError tag : Act ε _) w =
      (.value (some p.2), { w with engine := w.engine.forget tag }) := by
  simp only [takeError, found]

theorem takeError_of_missing {w : World} {tag : Nat}
    (missing : w.engine.stash.find? (·.1 == tag) = none) :
    (takeError tag : Act ε _) w = (.value none, w) := by
  simp only [takeError, missing]

theorem takeError_of_absent {w : World} {tag : Nat} (absent : ∀ p ∈ w.engine.stash, p.1 ≠ tag) :
    (takeError tag : Act ε _) w = (.value none, w) :=
  takeError_of_missing (List.find?_eq_none.2 fun p mem same => absent p mem (eq_of_beq same))

/-- What was taken out had been kept under the tag. -/
theorem of_takeError {w w₁ : World} {tag : Nat} {e : Error}
    (taken : (takeError tag : Act ε _) w = (.value (some e), w₁)) :
    (tag, e) ∈ w.engine.stash ∧ w₁ = { w with engine := w.engine.forget tag } := by
  cases found : w.engine.stash.find? (·.1 == tag) with
  | none =>
    rw [takeError_of_missing found] at taken
    cases taken
  | some p =>
    rw [takeError_of_found found] at taken
    cases taken
    have mem := List.mem_of_find?_eq_some found
    have same := List.find?_some found
    rw [beq_iff_eq] at same
    subst same
    exact ⟨mem, rfl⟩

def newSymbol (description : Option Utf16) : Act ε Symbol where
  run w :=
    (.value (.fresh w.engine.symbols description),
      { w with engine := { w.engine with symbols := w.engine.symbols + 1 } })
  steps w := .single (.engine w _ (.symbolMade w.engine))

def queue (job : Job) : Act ε Unit :=
  modifyEngine (fun e => { e with jobs := e.jobs ++ [job] }) fun e => .jobQueued e job

def takeJob : Act ε (Option Job) where
  run w :=
    (.value w.engine.jobs.head?, { w with engine := { w.engine with jobs := w.engine.jobs.tail } })
  steps w := .single (.engine w _ (.jobTaken w.engine))

/-! #### The session -/

def log (picture : Picture) : Act ε Unit :=
  modify (fun w => { w with log := w.log ++ [picture] }) fun w => .logged w picture

def exit (code : Int) : Act ε Unit :=
  modify (fun w => { w with exitCode := some code }) fun w => .exited w code

end Act

end ScriptBridge
