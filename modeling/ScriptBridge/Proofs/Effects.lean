import ScriptBridge.Bridge.Invoke
import ScriptBridge.Proofs.Runs

/-!
Effects of actions. A relation between worlds that can be chained measures what an action does,
however it ends. The conversions between host and script change no host container that is there:
what they change beyond that is done by the functions they call.
-/

namespace ScriptBridge

/-- A relation between worlds that holds of doing nothing and of one thing after another. -/
structure Effect where
  rel : World → World → Prop
  refl : ∀ w, rel w w
  trans : ∀ {a b c}, rel a b → rel b c → rel a c

namespace Act

variable {ε δ α β : Type} {E : Effect}

/-- What an action does to the world, however it ends, is an effect of this kind. -/
def Within (E : Effect) (x : Act ε α) : Prop := ∀ w, E.rel w (x w).2

namespace Within

theorem pure (a : α) : Within E (Pure.pure a : Act ε α) := E.refl

theorem fail (e : ε) : Within E (Act.fail e : Act ε α) := E.refl

theorem giveUp : Within E (Act.giveUp : Act ε α) := E.refl

theorem read (f : World → α) : Within E (Act.read f : Act ε α) := E.refl

theorem ofExcept (x : Except ε α) : Within E (Act.ofExcept x) := by
  cases x with
  | ok a => exact .pure a
  | error e => exact .fail e

theorem bind {x : Act ε α} {f : α → Act ε β} (hx : Within E x) (hf : ∀ a, Within E (f a)) :
    Within E (x >>= f) := by
  intro w
  have h := hx w
  rw [run_bind]
  rcases hw : x w with ⟨a | e | _, w₁⟩ <;> rw [hw] at h
  · exact E.trans h (hf a w₁)
  · exact h
  · exact h

theorem recover {x : Act ε α} {handle : ε → Act δ α} (hx : Within E x)
    (hh : ∀ e, Within E (handle e)) : Within E (x.recover handle) := by
  intro w
  have h := hx w
  rcases hw : x w with ⟨a | e | _, w₁⟩ <;> simp only [Act.recover, hw] at h ⊢
  · exact h
  · exact E.trans h (hh e w₁)
  · exact h

theorem attempt {x : Act ε α} (hx : Within E x) : Within E (x.attempt : Act δ _) := by
  intro w
  have h := hx w
  rcases hw : x w with ⟨a | e | _, w₁⟩ <;> simp only [Act.attempt, hw] at h ⊢ <;> exact h

theorem mapAll {f : α → Act ε β} (hf : ∀ a, Within E (f a)) (xs : List α) :
    Within E (Act.mapAll f xs) := by
  induction xs with
  | nil => exact .pure []
  | cons x xs ih => exact .bind (hf x) fun _ => .bind ih fun _ => .pure _

theorem ite {p : Prop} [Decidable p] {x y : Act ε α} (hx : Within E x) (hy : Within E y) :
    Within E (if p then x else y) := by
  split
  · exact hx
  · exact hy

end Within

/-! ### Actions that do not fail -/

/-- An action that does not fail, though it may give up. -/
def Infallible (x : Act ε α) : Prop := ∀ w e w', x w ≠ (.failure e, w')

theorem Infallible.pure (a : α) : Infallible (Pure.pure a : Act ε α) := by
  intro w e w' h
  cases h

theorem Infallible.bind {x : Act ε α} {f : α → Act ε β} (hx : Infallible x)
    (hf : ∀ a, Infallible (f a)) : Infallible (x >>= f) := by
  intro w e w' h
  cases of_bind_failure h with
  | inl fails => exact hx w e w' fails
  | inr rest =>
    obtain ⟨a, w₁, _, fails⟩ := rest
    exact hf a w₁ e w' fails

theorem Infallible.attempt (x : Act ε α) : Infallible (x.attempt : Act δ _) := by
  intro w e w' h
  rcases hx : x w with ⟨_ | _ | _, w₁⟩ <;> simp only [Act.attempt, hx] at h <;> cases h

theorem Infallible.recover (x : Act ε α) {handle : ε → Act δ α}
    (hh : ∀ e, Infallible (handle e)) : Infallible (x.recover handle) := by
  intro w e w' h
  rcases hx : x w with ⟨_ | e | _, w₁⟩ <;> simp only [Act.recover, hx] at h
  · cases h
  · exact hh e w₁ _ w' h
  · cases h

end Act

/-! ### Calls aside -/

/-- Changes of one kind, and calls of script functions in between. -/
inductive Besides (r : Reentry) (K : World → World → Prop) : World → World → Prop where
  | refl (w : World) : Besides r K w w
  | change {w w₁ w₂ : World} (before : Besides r K w w₁) (h : K w₁ w₂) : Besides r K w w₂
  | call {w w₁ : World} (before : Besides r K w w₁) (f : ObjectId) (this : ScriptValue)
      (args : List ScriptValue) : Besides r K w (r.call f this args w₁).2

namespace Besides

variable {r : Reentry} {K : World → World → Prop}

theorem single {w w' : World} (h : K w w') : Besides r K w w' := .change (.refl w) h

theorem trans {a b c : World} (h : Besides r K a b) (h' : Besides r K b c) : Besides r K a c := by
  induction h' with
  | refl => exact h
  | change _ k ih => exact .change ih k
  | call _ f this args ih => exact .call ih f this args

end Besides

/-- Effects that are of one kind but for the script functions they call. -/
def Effect.besides (r : Reentry) (K : World → World → Prop) : Effect where
  rel := Besides r K
  refl := .refl
  trans := .trans

theorem Act.Within.call {r : Reentry} {K : World → World → Prop} (f : ObjectId)
    (this : ScriptValue) (args : List ScriptValue) :
    (r.call f this args).Within (Effect.besides r K) :=
  fun w => .call (.refl w) f this args

/-! ### Containers that stay as they are -/

/-- Effects that allow everything but changes of host containers. -/
class Effect.Quiet (E : Effect) : Prop where
  of_heap_eq : ∀ {w w' : World}, w'.heap = w.heap → E.rel w w'

theorem Effect.Quiet.besides {r : Reentry} {K : World → World → Prop}
    (h : ∀ {w w' : World}, w'.heap = w.heap → K w w') : (Effect.besides r K).Quiet :=
  ⟨fun same => .single (h same)⟩

/-- A change of the script side under which the objects that stand for nothing stay as they are. -/
structure ObjectsKept (w w' : World) : Prop where
  heap : w'.heap = w.heap
  runtime : w'.runtime = w.runtime
  objects : ∀ i o, w.engine.objects.get? i = some o → o.kind.standsFor? = none →
    w'.engine.objects.get? i = some o
  steps : Steps w w'

/-- Effects that allow what crossings do to the script side: objects are added, and stand-ins get
methods. -/
class Effect.Gentle (E : Effect) : Prop where
  of_objectsKept : ∀ {w w' : World}, ObjectsKept w w' → E.rel w w'

instance {E : Effect} [E.Quiet] : E.Gentle := ⟨fun kept => Effect.Quiet.of_heap_eq kept.heap⟩

/-- Kinds of change under which crossings fall, but for the functions they call. -/
class AllowsCrossing (K : World → World → Prop) : Prop where
  scriptSide : ∀ {w w' : World}, ObjectsKept w w' → K w w'
  newSequence : ∀ (w : World) (items : List Value), K w { w with heap := w.heap.pushSequence items }

instance {r : Reentry} {K : World → World → Prop} [AllowsCrossing K] :
    (Effect.besides r K).Gentle :=
  ⟨fun kept => .single (AllowsCrossing.scriptSide kept)⟩

/-- The host side stays as it is. -/
def Effect.hostKept : Effect where
  rel w w' := w'.heap = w.heap
  refl _ := rfl
  trans h h' := h'.trans h

instance : Effect.hostKept.Quiet := ⟨fun h => h⟩

/-- The host containers there are stay as they are; others may be added. -/
structure Heap.Kept (h h' : Heap) : Prop where
  sequences : ∀ i items, h.sequences.get? i = some items → h'.sequences.get? i = some items
  plains : ∀ i entries, h.plains.get? i = some entries → h'.plains.get? i = some entries

namespace Heap

theorem Kept.refl (h : Heap) : h.Kept h := ⟨fun _ _ h => h, fun _ _ h => h⟩

theorem Kept.trans {h h₁ h₂ : Heap} (first : h.Kept h₁) (rest : h₁.Kept h₂) : h.Kept h₂ :=
  ⟨fun i items found => rest.sequences i items (first.sequences i items found),
    fun i entries found => rest.plains i entries (first.plains i entries found)⟩

theorem kept_pushSequence (h : Heap) (items : List Value) : h.Kept (h.pushSequence items) := by
  refine ⟨fun i old found => ?_, fun _ _ h => h⟩
  rw [pushSequence, Arena.get?_push, if_neg (Nat.ne_of_lt (Arena.lt_size_of_get? found)), found]

theorem kept_pushPlain (h : Heap) (entries : Entries String Value) :
    h.Kept (h.pushPlain entries) := by
  refine ⟨fun _ _ h => h, fun i old found => ?_⟩
  rw [pushPlain, Arena.get?_push, if_neg (Nat.ne_of_lt (Arena.lt_size_of_get? found)), found]

end Heap

/-- Between two worlds the host containers stayed as they were. -/
def ContainersKept (w w' : World) : Prop := w.heap.Kept w'.heap

theorem ContainersKept.of_heap_eq {w w' : World} (h : w'.heap = w.heap) : ContainersKept w w' := by
  rw [ContainersKept, h]
  exact .refl w.heap

/-- What an action does to host containers is done by the script functions it calls. -/
abbrev Effect.conversion (r : Reentry) : Effect := .besides r ContainersKept

instance : AllowsCrossing ContainersKept where
  scriptSide kept := .of_heap_eq kept.heap
  newSequence w items := w.heap.kept_pushSequence items

namespace Act.Within

variable {ε α : Type} {r : Reentry} {E : Effect}

theorem newSequence {K : World → World → Prop} [AllowsCrossing K] (items : List Value) :
    (Act.newSequence items : Act ε _).Within (.besides r K) :=
  fun w => .single (AllowsCrossing.newSequence w items)

theorem of_heap_eq [E.Quiet] {x : Act ε α} (h : ∀ w, (x w).2.heap = w.heap) : x.Within E :=
  fun w => Effect.Quiet.of_heap_eq (h w)

theorem editObject [E.Quiet] (id : ObjectId) (f : Object → Object)
    (h : ∀ o : Object, o.Becomes (f o)) : (Act.editObject id f h : Act ε _).Within E := by
  refine of_heap_eq fun w => ?_
  obtain ⟨objects, edited⟩ := Act.editObject_eq (ε := ε) id f h w
  rw [show Act.editObject id f h w = _ from edited w.heap]

section

variable [E.Gentle]

theorem of_pushed {x : Act ε α}
    (h : ∀ w, ∃ o engine, (x w).2 = { w with engine } ∧ engine.objects = w.engine.objects.push o) :
    x.Within E := by
  intro w
  obtain ⟨o, engine, after, objects⟩ := h w
  have steps := x.steps w
  rw [after] at steps ⊢
  refine Effect.Gentle.of_objectsKept ⟨rfl, rfl, fun i q found _ => ?_, steps⟩
  rw [objects]
  exact ObjectHeap.get?_push_of_some found o

theorem of_objects_eq {x : Act ε α}
    (h : ∀ w, ∃ engine, (x w).2 = { w with engine } ∧ engine.objects = w.engine.objects) :
    x.Within E := by
  intro w
  obtain ⟨engine, after, objects⟩ := h w
  have steps := x.steps w
  rw [after] at steps ⊢
  refine Effect.Gentle.of_objectsKept ⟨rfl, rfl, fun i q found _ => ?_, steps⟩
  rw [objects, found]

theorem newObject (o : Object) (h : o.kind.standsFor? = none) :
    (Act.newObject o h : Act ε _).Within E :=
  of_pushed fun _ => ⟨o, _, rfl, rfl⟩

/-- Only stand-ins get methods. -/
theorem addMethod (proxy : ObjectId) (s : SequenceId) (method : SequenceMethod) (code : Object)
    (h : code.kind = .function (.sequenceMethod s method)) :
    (Act.addMethod proxy s method code h : Act ε _).Within E := by
  intro w
  have steps := (Act.addMethod proxy s method code h : Act ε _).steps w
  refine Effect.Gentle.of_objectsKept ⟨rfl, rfl, fun i q here ordinary => ?_, steps⟩
  have pushed := ObjectHeap.get?_push_of_some here code
  unfold Act.addMethod
  simp only
  split
  · rename_i o found
    split
    · rename_i stands
      have apart : proxy.index ≠ i := by
        rintro rfl
        obtain rfl := Option.some.inj (found.symm.trans here)
        rw [ordinary] at stands
        cases stands
      exact (Arena.get?_set _ _ _ _).trans ((if_neg fun same => apart same.1).trans pushed)
    · exact pushed
  · exact pushed

theorem expose (handle : Handle) (o : Object) (h : o.kind.standsFor? = some handle)
    (bare : o.kind.methods = []) : (Act.expose handle o h bare : Act ε _).Within E := by
  intro w
  have steps := (Act.expose handle o h bare : Act ε _).steps w
  cases found : w.engine.registry.standIn? handle with
  | some id =>
    rw [Act.expose_of_registered h bare found]
    exact E.refl w
  | none =>
    rw [Act.expose_of_new h bare found] at steps ⊢
    exact Effect.Gentle.of_objectsKept
      ⟨rfl, rfl, fun i q here _ => ObjectHeap.get?_push_of_some here o, steps⟩

theorem raise (e : Error) (o : Object) (h : o.kind = .error) :
    (Act.raise e o h : Act ε _).Within E :=
  of_pushed fun _ => ⟨_, _, rfl, rfl⟩

theorem takeError (tag : Nat) : (Act.takeError tag : Act ε _).Within E := by
  refine of_objects_eq fun w => ?_
  cases found : w.engine.stash.find? (·.1 == tag) with
  | some p =>
    rw [Act.takeError_of_found found]
    exact ⟨_, rfl, rfl⟩
  | none =>
    rw [Act.takeError_of_missing found]
    exact ⟨_, rfl, rfl⟩

theorem identify (id : ObjectId) : (Act.identify id : Act ε _).Within E := by
  refine of_objects_eq fun w => ?_
  obtain ⟨i, held, asked, _⟩ := Act.identify_eq (ε := ε) id w
  rw [asked]
  exact ⟨_, rfl, rfl⟩

theorem root : (Act.root : Act ε _).Within E :=
  of_objects_eq fun _ => ⟨_, rfl, rfl⟩

end

end Act.Within

end ScriptBridge
