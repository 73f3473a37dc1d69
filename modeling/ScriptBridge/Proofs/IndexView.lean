import ScriptBridge.Proofs.Answers
import ScriptBridge.Proofs.ForeignKeys
import ScriptBridge.Proofs.Keys
import ScriptBridge.Proofs.StandIns
import ScriptBridge.Session

/-!
The stand-in of a sequence shows the sequence. Whatever host and script did before, slots, length
and own keys of the stand-in are those of the sequence, and what scripts do under other keys leaves
the sequence alone.
-/

namespace ScriptBridge

/-! ### Own keys -/

theorem PropertyKey.isIndex_of_isName {key : PropertyKey} (h : key.isName) :
    key.isIndex = false := by
  cases key <;> first | rfl | cases h

theorem PropertyKey.isIndex_of_isSymbol {key : PropertyKey} (h : key.isSymbol) :
    key.isIndex = false := by
  cases key <;> first | rfl | cases h

/-- No own key that names no slot is listed twice. -/
theorem Object.nodup_ownKeys (o : Object) : (o.ownKeys.filter (!·.isIndex)).Nodup := by
  have kept {p : PropertyKey → Bool} (h : ∀ {key}, p key → key.isIndex = false) :
      (o.properties.keys.filter p).filter (!·.isIndex) = o.properties.keys.filter p := by
    refine List.filter_eq_self.2 fun key mem => ?_
    rw [h (List.mem_filter.1 mem).2]
    rfl
  have indices (ns : List Nat) : (ns.map .index).filter (!PropertyKey.isIndex ·) = [] := by
    simp [PropertyKey.isIndex]
  unfold ownKeys
  simp only [List.filter_append, indices, List.nil_append, kept PropertyKey.isIndex_of_isName,
    kept PropertyKey.isIndex_of_isSymbol]
  refine List.nodup_append.2 ⟨o.properties.nodup.filter _, o.properties.nodup.filter _, ?_⟩
  rintro a isName b isSymbol rfl
  have isName := (List.mem_filter.1 isName).2
  have isSymbol := (List.mem_filter.1 isSymbol).2
  cases a with
  | name => cases isSymbol
  | index | symbol => cases isName

theorem nodup_positions_append {n : Nat} (small : n ≤ PropertyKey.indexLimit)
    {others : List PropertyKey} (nodup : others.Nodup) (named : ∀ key ∈ others, ¬key.isIndex) :
    ((List.range n).map PropertyKey.ofNat ++ others).Nodup := by
  refine List.nodup_append.2 ⟨PropertyKey.nodup_ofNat n, nodup, ?_⟩
  rintro a position b other rfl
  obtain ⟨i, mem, rfl⟩ := List.mem_map.1 position
  have inside := List.mem_range.1 mem
  rw [PropertyKey.ofNat_of_lt (by omega)] at other
  exact named _ other rfl

/-! ### The view -/

/-- What a script sees of a sequence through an object. -/
structure IndexView (r : Reentry) (xs : ObjectId) (s : SequenceId) (w : World) : Prop where
  length : Script.get r xs .length w = (.value (.number (.ofNat (w.heap.sequence s).length)), w)
  /-- A slot past the end reads as undefined. -/
  read : ∀ n < PropertyKey.indexLimit, ((w.heap.sequence s)[n]?.getD .undefined).Live w →
    ∃ v w', Bridge.toScript ((w.heap.sequence s)[n]?.getD .undefined) w = (.value v, w') ∧
      Script.get r xs (.index n) w = (.value v, w')
  has : ∀ n < PropertyKey.indexLimit,
    Script.has xs (.index n) w = (.value (n < (w.heap.sequence s).length), w)
  absent : ∀ n < PropertyKey.indexLimit, (w.heap.sequence s)[n]? = none →
    Script.ownProperty? xs (.index n) w = (.value none, w)
  present : ∀ n < PropertyKey.indexLimit, ∀ slot, (w.heap.sequence s)[n]? = some slot →
    slot.Live w → ∃ v w', Bridge.toScript slot w = (.value v, w') ∧
      Script.ownProperty? xs (.index n) w = (.value (some (.open_ v)), w')
  keys : ∃ others, Script.ownKeys xs w =
      (.value ((List.range (w.heap.sequence s).length).map .ofNat ++ others), w) ∧
    (∀ key ∈ others, ¬key.isIndex) ∧
    ((w.heap.sequence s).length ≤ PropertyKey.indexLimit →
      ((List.range (w.heap.sequence s).length).map .ofNat ++ others).Nodup)

namespace Script

variable {r : Reentry} {w : World} {xs target : ObjectId} {s : SequenceId} {o : Object}
  {methods : List (SequenceMethod × ObjectId)}

theorem get_length (found : w.engine.objects.get? xs.index = some o)
    (kind : o.kind = .sequenceProxy s target methods) :
    get r xs .length w = (.value (.number (.ofNat (w.heap.sequence s).length)), w) := by
  rw [get, chainBound, Act.read_bind, getFrom_length found kind]

theorem get_index (found : w.engine.objects.get? xs.index = some o)
    (kind : o.kind = .sequenceProxy s target methods) (n : Nat) :
    get r xs (.index n) w =
      Bridge.intoScript (Bridge.toScript ((w.heap.sequence s)[n]?.getD .undefined)) w := by
  rw [get, chainBound, Act.read_bind, getFrom_index found kind]

theorem indexView_of_proxy (found : w.engine.objects.get? xs.index = some o)
    (kind : o.kind = .sequenceProxy s target methods) : IndexView r xs s w where
  length := get_length found kind
  read n _ live := by
    obtain ⟨v, w', crosses⟩ := Bridge.toScript_of_live live
    refine ⟨v, w', crosses, ?_⟩
    rw [get_index found kind]
    exact Act.recover_of_value crosses _
  has n _ := by
    rw [has, chainBound, Act.read_bind, hasFrom_index found kind]
  absent n _ none := by
    rw [ownProperty?_index found kind, none]
    rfl
  present n _ slot some live := by
    obtain ⟨v, w', crosses⟩ := Bridge.toScript_of_live live
    refine ⟨v, w', crosses, ?_⟩
    rw [ownProperty?_index found kind, some]
    exact Act.bind_of_value (Act.recover_of_value crosses _) _
  keys := by
    let own := ((w.engine.objects.get? target.index).map (·.ownKeys)).getD []
    have nodup : (own.filter (!·.isIndex)).Nodup := by
      cases h : w.engine.objects.get? target.index with
      | none => simp [own, h]
      | some o => simpa [own, h] using o.nodup_ownKeys
    have named : ∀ key ∈ own.filter (!·.isIndex), ¬key.isIndex := by
      intro key mem
      simpa using (List.mem_filter.1 mem).2
    refine ⟨own.filter (!·.isIndex), ?_, named,
      fun small => nodup_positions_append small nodup named⟩
    exact ownKeys_sequence found kind

end Script

theorem indexView_of_stands {r : Reentry} {w : World} {xs : ObjectId} {s : SequenceId}
    (h : Stands w xs (.sequence s)) : IndexView r xs s w := by
  obtain ⟨o, target, methods, found, kind⟩ := h.sequence
  exact Script.indexView_of_proxy found kind

/-! ### Deleting -/

theorem Sequence.resize_self {α : Type} (items : List α) (filler : α) :
    resize items items.length filler = items := by
  rw [resize, List.take_length, Nat.sub_self, List.replicate_zero, List.append_nil]

theorem Sequence.write_of_lt {α : Type} {items : List α} {n : Nat} (h : n < items.length)
    (v filler : α) : write items n v filler = items.set n v := by
  rw [write, Nat.max_eq_left h, resize_self]

/-- The host containers after a slot was cleared. -/
def Heap.cleared (h : Heap) (s : SequenceId) (n : Nat) : Heap :=
  if n < (h.sequence s).length then h.setSequence s ((h.sequence s).set n .undefined) else h

theorem Sequence.clearSlot_eq (s : SequenceId) (n : Nat) (w : World) :
    clearSlot s n w = (.value (), { w with heap := w.heap.cleared s n }) := by
  rw [clearSlot, Act.elements, Act.read_bind, Heap.cleared]
  split
  · rename_i inside
    rw [writeSlot_eq, if_pos (.inl inside), write_of_lt inside]
  · rfl

namespace Script

variable {r : Reentry} {w : World} {xs target : ObjectId} {s : SequenceId} {o : Object}
  {methods : List (SequenceMethod × ObjectId)} {key : PropertyKey}

theorem delete_index (found : w.engine.objects.get? xs.index = some o)
    (kind : o.kind = .sequenceProxy s target methods) (n : Nat) :
    delete xs (.index n) w = (.value (), { w with heap := w.heap.cleared s n }) := by
  have deleted : deleteProperty xs (.index n) w =
      (.value true, { w with heap := w.heap.cleared s n }) := by
    have cleared : (Bridge.intoScript (Sequence.clearSlot s n)) w =
      (.value (), { w with heap := w.heap.cleared s n }) :=
        Act.recover_of_value (Sequence.clearSlot_eq s n w) _
    rw [deleteProperty_index found kind]
    exact Act.bind_of_value cleared _
  exact Act.bind_of_value deleted _

/-! ### Other keys -/

theorem delete_foreign (found : w.engine.objects.get? xs.index = some o)
    (kind : o.kind = .sequenceProxy s target methods) (foreign : key.Foreign) :
    (delete xs key w).2.heap = w.heap := by
  have onTarget := deleteProperty_sequence found kind foreign.noIndex
  rw [delete, Act.run_bind, onTarget, ← Act.run_bind]
  exact Act.Within.bind (E := .hostKept) deleteOwn_within
    (fun _ => .ite (.pure _) (Act.throwType_within _)) w

/-- Accessors, and values under other keys, are defined on the target. -/
theorem define_on_target (found : w.engine.objects.get? xs.index = some o)
    (kind : o.kind = .sequenceProxy s target methods) (d : Definition)
    (h : key.Foreign ∨ ∃ f, d = .getter f) : (define r xs key d w).2.heap = w.heap := by
  have onTarget : define r xs key d w = (do
      if ← defineOwn target key d then return ()
      else Act.throwType "proxy: defineProperty exception" : ScriptAct Unit) w := by
    cases d with
    | getter f => exact define_getter found (by rw [kind]; rfl) f
    | value v =>
      have noGetter : ¬∃ f, Definition.value v = .getter f := by
        rintro ⟨_, getter⟩
        cases getter
      have foreign := h.resolve_right noGetter
      rw [define_sequence found kind,
        assignHosted?_sequence kind foreign.noIndex foreign.noLength]
      rfl
  rw [onTarget]
  exact Act.Within.bind (E := .hostKept) (defineOwn_within d)
    (fun _ => .ite (.pure _) (Act.throwType_within _)) w

end Script

/-- What a script does to a stand-in under a key that is left to its target. -/
structure LeavesSequences (r : Reentry) (xs : ObjectId) (key : PropertyKey) (w : World) : Prop where
  has : (Script.has xs key w).2.heap = w.heap
  describe : (Script.ownProperty? xs key w).2.heap = w.heap
  delete : (Script.delete xs key w).2.heap = w.heap
  define : ∀ d, (Script.define r xs key d w).2.heap = w.heap
  /-- A read that is no call changes nothing. -/
  read : (Script.get r xs key w).2.heap = w.heap ∨
    ∃ f, HasGetter w key f ∧ Script.get r xs key w = r.call f (.object xs) [] w
  /-- Functions called aside, a write changes no sequence. -/
  write : ∀ v, Besides r SequencesKept w (Script.set r xs key v w).2

theorem leavesSequences_of_stands {r : Reentry} {w : World} {xs : ObjectId} {s : SequenceId}
    (h : Stands w xs (.sequence s)) {key : PropertyKey} (foreign : key.Foreign) :
    LeavesSequences r xs key w := by
  obtain ⟨o, target, methods, found, kind⟩ := h.sequence
  exact {
    has := Script.has_within (E := .hostKept) xs key w
    describe := Script.ownProperty?_within (E := .hostKept) xs key w
    delete := Script.delete_foreign found kind foreign
    define := fun d => Script.define_on_target found kind d (.inl foreign)
    read := Script.getFrom_foreign foreign (.object xs) (w.engine.objects.size + 1) (some xs) w
    write := fun v => Script.set_within foreign xs v w }

end ScriptBridge
