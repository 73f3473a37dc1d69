import ScriptBridge.Proofs.HostCalls
import ScriptBridge.Proofs.KeySpellings
import ScriptBridge.Script.Attributes

/-!
How far sequences grow. Host code that writes a slot by its key and scripts that write slots or the
length are held to the same two limits: no sequence gets longer than there are lengths, and none
grows past the limit of the runtime. What is beyond is refused, and the sequence stays as it was.
-/

namespace ScriptBridge

/-! ### Elements before and after -/

/-- A slot was written, the sequence having been filled up with undefined as far as that. -/
structure Written (i : Nat) (v : Value) (before after : List Value) : Prop where
  length : after.length = max before.length (i + 1)
  here : after[i]? = some v
  filled : ∀ j, before.length ≤ j → j < i → after[j]? = some .undefined
  others : ∀ j < before.length, j ≠ i → after[j]? = before[j]?

/-- A length was set; what is new is undefined. -/
structure Resized (n : Nat) (before after : List Value) : Prop where
  length : after.length = n
  kept : ∀ j < min before.length n, after[j]? = before[j]?
  filled : ∀ j, before.length ≤ j → j < n → after[j]? = some .undefined

namespace Sequence

variable {items : List Value}

theorem resized_resize (items : List Value) (n : Nat) :
    Resized n items (resize items n .undefined) := by
  have cut : (items.take n).length = min n items.length := List.length_take
  refine ⟨?_, ?_, ?_⟩
  · rw [resize, List.length_append, cut, List.length_replicate]
    omega
  · intro j inside
    rw [resize, List.getElem?_append_left (by omega), List.getElem?_take, if_pos (by omega)]
  · intro j past inside
    rw [resize, List.getElem?_append_right (by omega), cut, List.getElem?_replicate,
      if_pos (by omega)]

theorem written_write (items : List Value) (i : Nat) (v : Value) :
    Written i v items (write items i v .undefined) := by
  have resized := resized_resize items (max items.length (i + 1))
  have room : i < (resize items (max items.length (i + 1)) .undefined).length := by
    rw [resized.length]
    omega
  refine ⟨?_, ?_, ?_, ?_⟩
  · rw [write, List.length_set, resized.length]
  · rw [write, List.getElem?_set_self room]
  · intro j past inside
    rw [write, List.getElem?_set_ne (by omega)]
    exact resized.filled j past (by omega)
  · intro j inside apart
    rw [write, List.getElem?_set_ne (Ne.symm apart)]
    exact resized.kept j (by omega)

end Sequence

/-- The world with other elements in a sequence. -/
def World.withSequence (w : World) (s : SequenceId) (items : List Value) : World :=
  { w with heap := w.heap.setSequence s items }

theorem World.sequence_withSequence {w : World} {s : SequenceId}
    (made : s.index < w.heap.sequences.size) (items : List Value) :
    (w.withSequence s items).heap.sequence s = items :=
  Heap.sequence_setSequence_self made items

/-- What ran succeeded, and all that it did after a moment was to change a sequence in one way. -/
structure Updates {ε α : Type} (ran : Outcome ε α × World) (s : SequenceId) (w : World)
    (change : List Value → List Value → Prop) : Prop where
  succeeds : ∃ a, ran.1 = .value a
  changes : change (w.heap.sequence s) (ran.2.heap.sequence s)
  only : ran.2 = w.withSequence s (ran.2.heap.sequence s)

theorem Updates.mk_of_eq {ε α : Type} {ran : Outcome ε α × World} {s : SequenceId} {w : World}
    {change : List Value → List Value → Prop} {a : α} {after : List Value}
    (made : s.index < w.heap.sequences.size) (h : ran = (.value a, w.withSequence s after))
    (changed : change (w.heap.sequence s) after) : Updates ran s w change := by
  have here : ran.2.heap.sequence s = after := by
    rw [h]
    exact World.sequence_withSequence made after
  refine ⟨⟨a, congrArg Prod.fst h⟩, ?_, ?_⟩
  · rwa [here]
  · rw [here]
    exact congrArg Prod.snd h

/-! ### Lengths -/

namespace Number

/-- The whole numbers that are counted in steps are those of which a multiple of one is. -/
theorem signed_eq_mul_iff {negative : Bool} {units n one : Nat} (positive : 0 < one) :
    Double.signed negative units = (n * one : Nat) ↔
      units % one = 0 ∧ ¬Double.signed negative units < 0 ∧ units / one = n := by
  constructor
  · intro same
    have count : units = n * one := by
      cases negative with
      | false => exact Int.ofNat_inj.1 same
      | true =>
        change -(units : Int) = _ at same
        omega
    refine ⟨?_, by omega, ?_⟩
    · rw [count, Nat.mul_mod_left]
    · rw [count, Nat.mul_div_cancel _ positive]
  · rintro ⟨divides, sign, rfl⟩
    have count : units / one * one = units := Nat.div_mul_cancel (Nat.dvd_of_mod_eq_zero divides)
    rw [count]
    cases negative with
    | false => rfl
    | true =>
      change ¬-(units : Int) < 0 at sign
      change -(units : Int) = units
      omega

/-- A number stands for a length if it is that number, up to the largest length there is. -/
theorem arrayLength?_eq_some_iff {d : Double} {n : Nat} :
    arrayLength? d = some n ↔ n ≤ lengthLimit ∧ d.eq (.ofNat n) := by
  have whole (small : n ≤ lengthLimit) :
      ∃ fits, Double.ofNat n = .finite false (n * Double.one) fits :=
    ⟨_, Double.ofNat_eq (Nat.le_trans small (by decide))⟩
  cases d with
  | nan | infinity =>
    constructor
    · nofun
    · rintro ⟨small, same⟩
      obtain ⟨fits, value⟩ := whole small
      rw [value] at same
      cases same
  | finite negative units fits =>
    have equal (small : n ≤ lengthLimit) : (Double.finite negative units fits).eq (.ofNat n) ↔
        Double.signed negative units = (n * Double.one : Nat) := by
      obtain ⟨fits', value⟩ := whole small
      rw [value, Double.eq, beq_iff_eq]
      rfl
    have taken : arrayLength? (.finite negative units fits) = some n ↔
        (units % Double.one = 0 ∧ ¬Double.signed negative units < 0 ∧ units / Double.one = n) ∧
          n ≤ lengthLimit := by
      have sign : (Double.finite negative units fits).lt (.zero false) =
          decide (Double.signed negative units < 0) := rfl
      rw [arrayLength?, sign, Double.isIntegral, Double.magnitude, Option.ite_none_right_eq_some]
      simp only [Bool.and_eq_true, decide_eq_true_eq, Bool.not_eq_true', decide_eq_false_iff_not,
        Option.some.injEq]
      constructor
      · rintro ⟨⟨⟨divides, sign⟩, small⟩, rfl⟩
        exact ⟨⟨divides, sign, rfl⟩, small⟩
      · rintro ⟨⟨divides, sign, rfl⟩, small⟩
        exact ⟨⟨⟨divides, sign⟩, small⟩, rfl⟩
    rw [taken, ← signed_eq_mul_iff Double.one_pos, and_comm]
    exact and_congr_right fun small => (equal small).symm

end Number

/-! ### Writes of the host -/

/-- A slot that there is, or one below the limit of the runtime. -/
def World.HasRoom (w : World) (s : SequenceId) (i : Nat) : Prop :=
  i < (w.heap.sequence s).length ∨ i < w.config.maxArrayLength

/-- A length that is no growth, or one up to the limit of the runtime. -/
def World.AllowsLength (w : World) (s : SequenceId) (n : Nat) : Prop :=
  n ≤ (w.heap.sequence s).length ∨ n ≤ w.config.maxArrayLength

namespace Sequence

variable {s : SequenceId} {w : World} {i : Nat} {v : Value}

theorem writeSlotWithin_eq (below : i < Number.lengthLimit) (room : w.HasRoom s i) :
    writeSlotWithin s i v w =
      (.value (), w.withSequence s (write (w.heap.sequence s) i v .undefined)) := by
  rw [writeSlotWithin_of_room v room, writeSlot_eq, if_pos (.inr below)]
  rfl

theorem writeSlotWithin_refused (small : (w.heap.sequence s).length ≤ Number.lengthLimit)
    (full : ¬(i < Number.lengthLimit ∧ w.HasRoom s i)) :
    writeSlotWithin s i v w = (.failure (.conversion .invalidLength), w) := by
  by_cases room : w.HasRoom s i
  · have past : ¬(i < (w.heap.sequence s).length ∨ i + 1 ≤ Number.lengthLimit) := by
      rintro (inside | below)
      · exact full ⟨Nat.lt_of_lt_of_le inside small, room⟩
      · exact full ⟨below, room⟩
    rw [writeSlotWithin_of_room v room, writeSlot_eq, if_neg past]
  · exact writeSlotWithin_of_no_room v room

theorem assignLength_eq {d : Double} {n : Nat} (is : Number.arrayLength? d = some n)
    (allowed : w.AllowsLength s n) : assignLength s d w =
      (.value (), w.withSequence s (resize (w.heap.sequence s) n .undefined)) := by
  obtain ⟨below, _⟩ := Number.arrayLength?_eq_some_iff.1 is
  rw [assignLength_of_length is allowed, setLength_eq, if_pos (.inr below)]
  rfl

theorem assignLength_refused {d : Double}
    (none : ∀ n ≤ Number.lengthLimit, d.eq (.ofNat n) → ¬w.AllowsLength s n) :
    assignLength s d w = (.failure (.conversion .invalidLength), w) := by
  refine assignLength_of_no_length fun n is => ?_
  obtain ⟨below, same⟩ := Number.arrayLength?_eq_some_iff.1 is
  exact none n below same

end Sequence

namespace Bridge

variable {r : Reentry} {s : SequenceId} {w : World} {key : String} {v : Value}

theorem setProperty_of_slot {n : Nat} (slot : Sequence.slotOfKey? key = some n) :
    setProperty r (.sequence s) key v w = Sequence.writeSlotWithin s n v w := by
  rw [setProperty, slot]

theorem setProperty_of_no_slot (none : ∀ n < 2 ^ 64, ¬Spells key n) :
    setProperty r (.sequence s) key v w = (.failure (.logic (.notAnIndex key)), w) := by
  rw [setProperty]
  cases slot : Sequence.slotOfKey? key with
  | none => rfl
  | some n =>
    obtain ⟨fits, spells⟩ := Sequence.slotOfKey?_eq_some_iff.1 slot
    exact absurd spells (none n fits)

end Bridge

/-- How far a sequence grows when host code writes a slot by its key. -/
structure HostGrowth (r : Reentry) (s : SequenceId) (w : World) (v : Value) : Prop where
  taken : ∀ i < Number.lengthLimit, w.HasRoom s i →
    Updates (Bridge.setProperty r (.sequence s) (natText i) v w) s w (Written i v)
  refused : ∀ i < 2 ^ 64, ¬(i < Number.lengthLimit ∧ w.HasRoom s i) →
    Bridge.setProperty r (.sequence s) (natText i) v w =
      (.failure (.conversion .invalidLength), w)
  /-- Numbers that fit no word are no slots at all. -/
  noSlot : ∀ i, 2 ^ 64 ≤ i → Bridge.setProperty r (.sequence s) (natText i) v w =
    (.failure (.logic (.notAnIndex (natText i))), w)

theorem hostGrowth (r : Reentry) {s : SequenceId} {w : World}
    (made : s.index < w.heap.sequences.size)
    (small : (w.heap.sequence s).length ≤ Number.lengthLimit) (v : Value) :
    HostGrowth r s w v where
  taken i below room := by
    have slot := Sequence.slotOfKey?_natText (Nat.lt_trans below (by decide : _ < 2 ^ 64))
    rw [Bridge.setProperty_of_slot slot]
    exact .mk_of_eq made (Sequence.writeSlotWithin_eq below room)
      (Sequence.written_write _ i v)
  refused i fits full := by
    rw [Bridge.setProperty_of_slot (Sequence.slotOfKey?_natText fits)]
    exact Sequence.writeSlotWithin_refused small full
  noSlot i large := by
    refine Bridge.setProperty_of_no_slot fun n fits spells => ?_
    obtain rfl := natText_injective (spells.eq_natText (not_respelled_natText i))
    exact Nat.not_lt_of_le large fits

/-! ### Writes of scripts -/

/-- A script was thrown a new error object of a standard class. -/
def ThrowsError {α : Type} (ran : Outcome ScriptValue α × World) (name message : String) : Prop :=
  ∃ id o, ran.1 = .failure (.object id) ∧ ran.2.engine.objects.get? id.index = some o ∧
    o.kind = .error ∧ o.prototype = Intrinsic.errorPrototype? name ∧
    o.properties.get? (.ofString "message") = some (.hidden (.ofString message))

/-- What ran threw a RangeError, and changed no host container after a moment. -/
structure RefusesLength {α : Type} (ran : Outcome ScriptValue α × World) (w : World) : Prop where
  throws : ThrowsError ran "RangeError" "invalid array length"
  kept : ran.2.heap = w.heap

theorem RefusesLength.of_throws {α : Type} {op : ScriptAct α} {w w₁ : World}
    (h : Throws op (.conversion .invalidLength) w w₁) : RefusesLength (op w) w₁ := by
  refine ⟨?_, h.heap_eq⟩
  obtain ⟨v, w₂, thrown, here⟩ := h
  cases thrown
  rw [here]
  have tag : Bridge.tagKey ≠ .ofString "message" := by decide
  exact ⟨_, _, rfl, (Arena.get?_push _ _ _).trans (if_pos rfl), rfl, rfl,
    (Entries.get?_insert_of_ne _ tag _).trans Bridge.get?_message⟩

theorem Bridge.intoScript_value {α : Type} {x : HostAct α} {w w₁ : World} {a : α}
    (h : intoScript x w = (.value a, w₁)) : x w = (.value a, w₁) := by
  rcases ran : x w with ⟨b | e | _, w₂⟩
  · rw [intoScript, Act.recover_of_value ran] at h
    cases h
    rfl
  · rw [intoScript, Act.recover_of_failure ran] at h
    cases e <;> cases h
  · simp only [intoScript, Act.recover, ran] at h
    cases h

namespace Script

variable {r : Reentry} {w w₁ : World} {xs target : ObjectId} {o : Object} {s : SequenceId}
  {methods : List (SequenceMethod × ObjectId)} {key : PropertyKey} {v : ScriptValue}

/-- The ways in which a script writes under a key. -/
inductive Write where
  | assigned
  | defined (asked : Attributes)

theorem defineHosted?_eq (found : w.engine.objects.get? xs.index = some o) {asked : Attributes} :
    defineHosted? r xs key v asked w = (assignHosted? r o key v >>= fun left =>
      match left with
      | none =>
        if asked.fits key then return none
        else Act.throwType "proxy: inconsistent defineProperty"
      | some target => return some target : ScriptAct (Option ObjectId)) w :=
  Act.object?_bind found _

namespace Write

def run (r : Reentry) (xs : ObjectId) (key : PropertyKey) (v : ScriptValue) :
    Write → ScriptAct Unit
  | assigned => set r xs key v
  | defined asked => do let _ ← defineHosted? r xs key v asked

/-- Whether the property can be as the script asks for it. -/
def fits (key : PropertyKey) : Write → Bool
  | assigned => true
  | defined asked => asked.fits key

theorem run_of_taken (found : w.engine.objects.get? xs.index = some o)
    (kind : o.kind = .sequenceProxy s target methods)
    (h : assignHosted? r o key v w = (.value none, w₁)) {write : Write} (fits : write.fits key) :
    write.run r xs key v w = (.value (), w₁) := by
  cases write with
  | assigned => exact set_of_taken found (.inl ⟨_, _, _, kind⟩) h
  | defined asked =>
    have defines : defineHosted? r xs key v asked w = (.value none, w₁) := by
      rw [defineHosted?_eq found, Act.bind_of_value h]
      simp only
      rw [if_pos (show asked.fits key from fits)]
      rfl
    exact Act.bind_of_value defines _

theorem run_throws (found : w.engine.objects.get? xs.index = some o)
    (kind : o.kind = .sequenceProxy s target methods) {e : Error}
    (h : Throws (assignHosted? r o key v) e w w₁) (write : Write) :
    Throws (write.run r xs key v) e w w₁ := by
  cases write with
  | assigned => exact set_of_throws found (.inl ⟨_, _, _, kind⟩) h
  | defined asked =>
    have defines : Throws (defineHosted? r xs key v asked) e w w₁ :=
      .of_eq (defineHosted?_eq found) (h.bind _)
    exact defines.bind _

theorem run_of_misfit (found : w.engine.objects.get? xs.index = some o)
    (h : assignHosted? r o key v w = (.value none, w₁)) {asked : Attributes}
    (misfit : asked.fits key = false) :
    ThrowsError ((defined asked).run r xs key v w) "TypeError"
      "proxy: inconsistent defineProperty" := by
  have thrown : (defined asked).run r xs key v w =
      (Act.throwType "proxy: inconsistent defineProperty" : ScriptAct Unit) w₁ := by
    rw [run, Act.run_bind, defineHosted?_eq found, Act.bind_of_value h]
    simp only [misfit]
    rfl
  rw [thrown]
  refine ⟨_, _, rfl, (Arena.get?_push _ _ _).trans (if_pos rfl), rfl, rfl, ?_⟩
  decide

end Write

/-- A key of a sequence's stand-in that names a slot or the length. -/
def NamesPlace (key : PropertyKey) : Prop := key = .length ∨ ∃ i, key = .index i

theorem assignHosted?_taken (kind : o.kind = .sequenceProxy s target methods)
    (place : NamesPlace key) {left : Option ObjectId}
    (h : assignHosted? r o key v w = (.value left, w₁)) : left = none := by
  obtain rfl | ⟨i, rfl⟩ := place
  · rw [assignHosted?_length kind] at h
    obtain ⟨_, _, _, read⟩ := Act.of_bind_value (Bridge.intoScript_value h)
    obtain ⟨_, _, _, rest⟩ := Act.of_bind_value read
    obtain ⟨_, _, _, last⟩ := Act.of_bind_value rest
    cases last
    rfl
  · rw [assignHosted?_index kind] at h
    obtain ⟨_, _, _, rest⟩ := Act.of_bind_value (Bridge.intoScript_value h)
    obtain ⟨_, _, _, last⟩ := Act.of_bind_value rest
    cases last
    rfl

/-- A definition that asks for everything is the plain one. -/
theorem define_eq_run (found : w.engine.objects.get? xs.index = some o)
    (kind : o.kind = .sequenceProxy s target methods) (place : NamesPlace key) :
    define r xs key (.value v) w = (Write.defined .all).run r xs key v w := by
  have plain : define r xs key (.value v) w = (assignHosted? r o key v >>= fun left =>
      match left with
      | none =>
        if key = .length then Act.throwType "proxy: inconsistent defineProperty" else return ()
      | some target => do
        if ← defineOwn target key (.value v) then return ()
        else Act.throwType "proxy: defineProperty exception" : ScriptAct Unit) w :=
    define_sequence found kind v
  rw [plain, Write.run, Act.run_bind, Act.run_bind, defineHosted?_eq found, Act.run_bind]
  rcases assigned : assignHosted? r o key v w with ⟨left | e | _, w₁⟩
  · obtain rfl := assignHosted?_taken kind place assigned
    by_cases length : key = .length
    · subst length
      rfl
    · have fits : Attributes.all.fits key = true := by
        rw [Attributes.fits, if_neg length]
        rfl
      simp only [if_neg length, fits, if_true]
      rfl
  · rfl
  · rfl

/-! ### Growth -/

theorem assignHosted?_index_of_crossing (kind : o.kind = .sequenceProxy s target methods) {i : Nat}
    {u : Value} (crosses : Bridge.toHost r v w = (.value u, w₁)) :
    assignHosted? r o (.index i) v w =
      (Bridge.intoScript do
        Sequence.writeSlotWithin s i u
        return none : ScriptAct (Option ObjectId)) w₁ := by
  rw [assignHosted?_index kind]
  exact Act.recover_congr_run (Act.bind_of_value crosses _) _

theorem assignHosted?_length_of_crossing (kind : o.kind = .sequenceProxy s target methods)
    {u : Value} (crosses : Bridge.toHost r v w = (.value u, w₁)) :
    assignHosted? r o .length v w =
      (Bridge.intoScript do
        Sequence.assignLength s (w₁.heap.number u)
        return none : ScriptAct (Option ObjectId)) w₁ := by
  rw [assignHosted?_length kind]
  exact Act.recover_congr_run (Act.bind_of_value crosses _) _

/-- What the host did or refused, a script is answered or thrown. -/
theorem intoScript_taken {x : HostAct Unit} {w₂ : World} (h : x w₁ = (.value (), w₂)) :
    (Bridge.intoScript do
      x
      return none : ScriptAct (Option ObjectId)) w₁ = (.value none, w₂) :=
  Act.recover_of_value (Act.bind_of_value h _) _

theorem throws_of_refused {op : ScriptAct (Option ObjectId)} {x : HostAct Unit} {e : Error}
    (same : op w = (Bridge.intoScript do
      x
      return none : ScriptAct (Option ObjectId)) w₁)
    (h : x w₁ = (.failure e, w₁)) : Throws op e w w₁ := by
  obtain ⟨thrown, w₂, throws, here⟩ := Throws.of_intoScript (Act.bind_of_failure h _)
  exact ⟨thrown, w₂, throws, same.trans here⟩

end Script

/-- How far a sequence grows when a script writes through its stand-in. The value it gives has
crossed before, and the number it has on the host then is the length it asks for. -/
structure ScriptGrowth (r : Reentry) (xs : ObjectId) (s : SequenceId) (given : ScriptValue)
    (v : Value) (w w₁ : World) : Prop where
  slot : ∀ (write : Script.Write) (i : Nat), write.fits (.index i) → i < PropertyKey.indexLimit →
    w₁.HasRoom s i → Updates (write.run r xs (.index i) given w) s w₁ (Written i v)
  slotRefused : ∀ (write : Script.Write) (i : Nat), i < PropertyKey.indexLimit →
    ¬w₁.HasRoom s i → RefusesLength (write.run r xs (.index i) given w) w₁
  length : ∀ (write : Script.Write) (n : Nat), write.fits .length → n ≤ Number.lengthLimit →
    (w₁.heap.number v).eq (.ofNat n) → w₁.AllowsLength s n →
    Updates (write.run r xs .length given w) s w₁ (Resized n)
  lengthRefused : ∀ write : Script.Write,
    (∀ n ≤ Number.lengthLimit, (w₁.heap.number v).eq (.ofNat n) → ¬w₁.AllowsLength s n) →
    RefusesLength (write.run r xs .length given w) w₁
  /-- What does not fit the target fails, even if there is room. -/
  slotMisfit : ∀ (asked : Script.Attributes) (i : Nat), asked.fits (.index i) = false →
    i < PropertyKey.indexLimit → w₁.HasRoom s i →
    ThrowsError ((Script.Write.defined asked).run r xs (.index i) given w) "TypeError"
      "proxy: inconsistent defineProperty"
  lengthMisfit : ∀ (asked : Script.Attributes) (n : Nat), asked.fits .length = false →
    n ≤ Number.lengthLimit → (w₁.heap.number v).eq (.ofNat n) → w₁.AllowsLength s n →
    ThrowsError ((Script.Write.defined asked).run r xs .length given w) "TypeError"
      "proxy: inconsistent defineProperty"

theorem scriptGrowth {r : Reentry} {w w₁ : World} {xs : ObjectId} {s : SequenceId}
    (stands : Stands w xs (.sequence s)) (made : s.index < w.heap.sequences.size)
    {given : ScriptValue} {v : Value} (crosses : Bridge.toHost r given w = (.value v, w₁))
    (small : (w₁.heap.sequence s).length ≤ Number.lengthLimit) :
    ScriptGrowth r xs s given v w w₁ := by
  obtain ⟨o, target, methods, found, kind⟩ := stands.sequence
  have made : s.index < w₁.heap.sequences.size :=
    Nat.lt_of_lt_of_le made (Act.steps_of crosses).sequences_le
  have written {i : Nat} (below : i < PropertyKey.indexLimit) (room : w₁.HasRoom s i) :
      Script.assignHosted? r o (.index i) given w = (.value none,
        w₁.withSequence s (Sequence.write (w₁.heap.sequence s) i v .undefined)) :=
    (Script.assignHosted?_index_of_crossing kind crosses).trans
      (Script.intoScript_taken (Sequence.writeSlotWithin_eq below room))
  have resized {n : Nat} (below : n ≤ Number.lengthLimit)
      (is : (w₁.heap.number v).eq (.ofNat n)) (allowed : w₁.AllowsLength s n) :
      Script.assignHosted? r o .length given w = (.value none,
        w₁.withSequence s (Sequence.resize (w₁.heap.sequence s) n .undefined)) :=
    (Script.assignHosted?_length_of_crossing kind crosses).trans
      (Script.intoScript_taken
        (Sequence.assignLength_eq (Number.arrayLength?_eq_some_iff.2 ⟨below, is⟩) allowed))
  refine ⟨?_, ?_, ?_, ?_, ?_, ?_⟩
  · intro write i fits below room
    exact .mk_of_eq made (Script.Write.run_of_taken found kind (written below room) fits)
      (Sequence.written_write _ i v)
  · intro write i below full
    have refused := Sequence.writeSlotWithin_refused (v := v) small fun both => full both.2
    have thrown := Script.throws_of_refused (Script.assignHosted?_index_of_crossing kind crosses)
      refused
    exact .of_throws (Script.Write.run_throws found kind thrown write)
  · intro write n fits below is allowed
    exact .mk_of_eq made (Script.Write.run_of_taken found kind (resized below is allowed) fits)
      (Sequence.resized_resize _ n)
  · intro write none
    exact .of_throws (Script.Write.run_throws found kind
      (Script.throws_of_refused (Script.assignHosted?_length_of_crossing kind crosses)
        (Sequence.assignLength_refused none)) write)
  · intro asked i misfit below room
    exact Script.Write.run_of_misfit found (written below room) misfit
  · intro asked n misfit below is allowed
    exact Script.Write.run_of_misfit found (resized below is allowed) misfit

/-- The text of a number that is no index is for a script neither slot nor length. -/
theorem PropertyKey.foreign_natText {i : Nat} (large : indexLimit ≤ i) :
    (ofString (natText i)).Foreign := by
  refine foreign_ofString ?_ ?_
  · intro n small same
    obtain rfl := natText_injective same
    exact absurd small (Nat.not_lt_of_le large)
  · intro same
    exact not_spells_length i (same ▸ spells_natText i)

end ScriptBridge
