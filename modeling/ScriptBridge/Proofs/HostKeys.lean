import ScriptBridge.Proofs.GrowthLimits

/-!
Reading and writing sequences by keys on the host. A key that is not respelled names on both sides
the same slot or none, and the script reads under it what the host reads. A respelled key names a
slot for host code alone.
-/

namespace ScriptBridge

variable {r : Reentry} {w w₁ : World} {s : SequenceId} {key : String} {n : Nat} {v : Value}

namespace Bridge

theorem property_length :
    property r (.sequence s) "length" w = (.value (.ofNat (w.heap.sequence s).length), w) := by
  unfold property
  simp only [Act.elements, Act.read_bind, if_true]
  rfl

theorem property_of_spells (spells : Spells key n) (fits : n < 2 ^ 64) :
    property r (.sequence s) key w =
      (.value ((w.heap.sequence s)[n]?.getD .undefined), w) := by
  have notLength : key ≠ "length" := by
    rintro rfl
    exact not_spells_length n spells
  have slot := Sequence.slotOfKey?_eq_some_iff.2 ⟨fits, spells⟩
  unfold property
  simp only [Act.elements, Act.read_bind, if_neg notLength, slot]
  rfl

theorem property_of_no_slot (notLength : key ≠ "length")
    (none : ∀ n < 2 ^ 64, Spells key n → (w.heap.sequence s).length ≤ n) :
    property r (.sequence s) key w = (.value .undefined, w) := by
  unfold property
  simp only [Act.elements, Act.read_bind, if_neg notLength]
  cases slot : Sequence.slotOfKey? key with
  | none => rfl
  | some n =>
    obtain ⟨fits, spells⟩ := Sequence.slotOfKey?_eq_some_iff.1 slot
    rw [Option.bind_some, List.getElem?_eq_none (none n fits spells)]
    rfl

theorem setProperty_value (h : setProperty r (.sequence s) key v w = (.value (), w₁)) :
    ∃ n < 2 ^ 64, Spells key n ∧
      w₁ = w.withSequence s (Sequence.write (w.heap.sequence s) n v .undefined) := by
  cases slot : Sequence.slotOfKey? key with
  | none =>
    rw [setProperty, slot] at h
    cases h
  | some n =>
    obtain ⟨fits, spells⟩ := Sequence.slotOfKey?_eq_some_iff.1 slot
    refine ⟨n, fits, spells, ?_⟩
    rw [setProperty_of_slot slot] at h
    by_cases room : w.HasRoom s n
    · rw [Sequence.writeSlotWithin_of_room v room, Sequence.writeSlot_eq] at h
      split at h
      · cases h
        rfl
      · cases h
    · rw [Sequence.writeSlotWithin_of_no_room v room] at h
      cases h

end Bridge

/-- A key names the same on both sides: a slot by its decimal form, the length, or nothing. Indices
of elements always fit a word. -/
structure NamesAlike (r : Reentry) (xs : ObjectId) (s : SequenceId) (w : World)
    (key : String) : Prop where
  slot : ∀ i < (w.heap.sequence s).length, i < 2 ^ 64 → key = natText i →
    Bridge.property r (.sequence s) key w =
      (.value ((w.heap.sequence s)[i]?.getD .undefined), w)
  length : key = "length" → Bridge.property r (.sequence s) key w =
    (.value (.ofNat (w.heap.sequence s).length), w)
  nothing : key ≠ "length" → (∀ i < (w.heap.sequence s).length, key ≠ natText i) →
    Bridge.property r (.sequence s) key w = (.value .undefined, w)
  written : ∀ v w₁, Bridge.setProperty r (.sequence s) key v w = (.value (), w₁) →
    ∃ i, key = natText i ∧
      w₁ = w.withSequence s (Sequence.write (w.heap.sequence s) i v .undefined)
  refused : ∀ v, (∀ i, key ≠ natText i) →
    Bridge.setProperty r (.sequence s) key v w = (.failure (.logic (.notAnIndex key)), w)
  same : ∀ i < PropertyKey.indexLimit,
    Sequence.slotOfKey? key = some i ↔ PropertyKey.ofString key = .index i
  script : (key = "length" ∨ ∃ i < PropertyKey.indexLimit, key = natText i) →
    Script.get r xs (.ofString key) w = (Bridge.intoScript do
      Bridge.toScript (← Bridge.property r (.sequence s) key) : ScriptAct ScriptValue) w

/-- A key names a slot for host code, and for a script neither slot nor length. -/
structure NamesApart (r : Reentry) (s : SequenceId) (w : World) (key : String) (i : Nat) :
    Prop where
  host : Bridge.property r (.sequence s) key w =
    (.value ((w.heap.sequence s)[i]?.getD .undefined), w)
  script : (PropertyKey.ofString key).Foreign

theorem crossing_ofNat (n : Nat) : Bridge.crossing (.ofNat n) = .ofNat n := by
  refine Bridge.crossing_of_not_negativeZero ?_
  unfold Double.ofNat Double.nearest Double.ofUnits
  simp only
  split <;> rfl

theorem namesAlike {xs : ObjectId} (stands : Stands w xs (.sequence s)) {key : String}
    (plain : ¬Respelled key) : NamesAlike r xs s w key := by
  obtain ⟨o, target, methods, found, kind⟩ := stands.sequence
  refine ⟨?_, ?_, ?_, ?_, ?_, ?_, ?_⟩
  · rintro i _ fits rfl
    exact Bridge.property_of_spells (spells_natText i) fits
  · rintro rfl
    exact Bridge.property_length
  · intro notLength absent
    refine Bridge.property_of_no_slot notLength fun n _ spells => ?_
    by_contra inside
    exact absent n (Nat.lt_of_not_le inside) (spells.eq_natText plain)
  · intro v w₁ writes
    obtain ⟨n, _, spells, after⟩ := Bridge.setProperty_value writes
    exact ⟨n, spells.eq_natText plain, after⟩
  · intro v noIndex
    exact Bridge.setProperty_of_no_slot fun n _ spells => noIndex n (spells.eq_natText plain)
  · intro i small
    rw [PropertyKey.ofString_eq_index_iff, Sequence.slotOfKey?_eq_some_iff]
    constructor
    · rintro ⟨_, spells⟩
      exact ⟨small, spells.eq_natText plain⟩
    · rintro ⟨_, rfl⟩
      exact ⟨Nat.lt_trans small (by decide), spells_natText i⟩
  · rintro (rfl | ⟨i, small, rfl⟩)
    · have spelled : PropertyKey.ofString "length" = .length := by decide
      have crosses : Bridge.toScript (.ofNat (w.heap.sequence s).length) w =
          (.value (.number (.ofNat (w.heap.sequence s).length)), w) := by
        change (Outcome.value (ScriptValue.number (Bridge.crossing _)), w) = _
        rw [crossing_ofNat]
      rw [spelled, Script.get_length found kind]
      exact (Act.recover_of_value
        ((Act.bind_of_value Bridge.property_length _).trans crosses) _).symm
    · have spelled := PropertyKey.ofString_eq_index_iff.2 ⟨small, rfl⟩
      have read := Bridge.property_of_spells (r := r) (w := w) (s := s) (spells_natText i)
        (Nat.lt_trans small (by decide))
      rw [spelled, Script.get_index found kind]
      exact (Act.recover_congr_run (Act.bind_of_value read _) _).symm

/-- Host and script read a key as the same slot, unless it is respelled; and respelled keys, which
the host reads all the same, are ordinary names for a script. -/
theorem host_and_script_name_slots_alike (r : Reentry) {w : World} {xs : ObjectId}
    {s : SequenceId} (stands : Stands w xs (.sequence s)) :
    (∀ key, ¬Respelled key → NamesAlike r xs s w key) ∧
    (∀ key i, Respelled key → Spells key i → i < 2 ^ 64 → NamesApart r s w key i) ∧
    (∀ key i, Sequence.slotOfKey? key = some i ↔ i < 2 ^ 64 ∧ Spells key i) ∧
    ∀ i, Spells (natText i) i ∧ ¬Respelled (natText i) := by
  refine ⟨fun key plain => namesAlike stands plain, ?_, ?_, ?_⟩
  · intro key i respelled spells fits
    refine ⟨Bridge.property_of_spells spells fits, PropertyKey.foreign_ofString ?_ ?_⟩
    · rintro n _ rfl
      exact not_respelled_natText n respelled
    · rintro rfl
      exact not_spells_length i spells
  · exact fun key i => Sequence.slotOfKey?_eq_some_iff
  · exact fun i => ⟨spells_natText i, not_respelled_natText i⟩

/-- In a sequence of two, both sides find the second element under `1`, and the host also under
`01`. -/
theorem host_and_script_name_slots_alike_of_two :
    let w₀ := ((Act.newSequence [.null, .bool true] : HostAct _) {}).2
    let w := (Bridge.standIn (.sequence ⟨0⟩) w₀).2
    NamesAlike Session.top ⟨1⟩ ⟨0⟩ w "1" ∧ NamesApart Session.top ⟨0⟩ w "01" 1 ∧
      Bridge.property Session.top (.sequence ⟨0⟩) "01" w = (.value (.bool true), w) := by
  intro w₀ w
  have stands : Stands w ⟨1⟩ (.sequence ⟨0⟩) := ⟨_, rfl, rfl⟩
  obtain ⟨alike, apart, _, decimal⟩ := host_and_script_name_slots_alike Session.top stands
  have one : natText 1 = "1" := by rfl
  have respelled : Respelled "01" := ⟨'0', ['1'], rfl, .inr ⟨rfl, List.cons_ne_nil _ _⟩⟩
  have spells : Spells "01" 1 := ⟨[], 1, .inl rfl, rfl⟩
  have read := apart "01" 1 respelled spells (by decide)
  exact ⟨alike "1" (one ▸ (decimal 1).2), read, read.host⟩

/-- A key that is the decimal form of no number is read as a slot by the host, while a script finds
nothing under it. -/
theorem respelled_key_read_as_slot :
    let w₀ := ((Act.newSequence [.null, .bool true] : HostAct _) {}).2
    let w := (Bridge.standIn (.sequence ⟨0⟩) w₀).2
    (∀ i, "01" ≠ natText i) ∧ "01" ≠ "length" ∧
      Bridge.property Session.top (.sequence ⟨0⟩) "01" w = (.value (.bool true), w) ∧
      (Script.get Session.top ⟨1⟩ (.ofString "01") w).1 = .value .undefined := by
  intro w₀ w
  have respelled : Respelled "01" := ⟨'0', ['1'], rfl, .inr ⟨rfl, List.cons_ne_nil _ _⟩⟩
  refine ⟨fun i same => not_respelled_natText i (same ▸ respelled), by decide, ?_, ?_⟩
  · exact Bridge.property_of_spells (n := 1) ⟨[], 1, .inl rfl, rfl⟩ (by decide)
  · decide +kernel

end ScriptBridge
