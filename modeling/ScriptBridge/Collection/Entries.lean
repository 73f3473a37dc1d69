/-!
Maps that keep their keys in the order of insertion.
-/

namespace ScriptBridge

/-- A map whose keys stand in the order in which they were first written, each once. -/
structure Entries (κ β : Type) where
  toList : List (κ × β)
  nodup : (toList.map Prod.fst).Nodup

namespace Entries

variable {κ β : Type}

def empty : Entries κ β := ⟨[], List.nodup_nil⟩

instance : Inhabited (Entries κ β) := ⟨empty⟩

def keys (m : Entries κ β) : List κ := m.toList.map Prod.fst

theorem nodup_keys (m : Entries κ β) : m.keys.Nodup := m.nodup

def size (m : Entries κ β) : Nat := m.toList.length

section Keyed

variable [DecidableEq κ]

def lookup (k : κ) : List (κ × β) → Option β
  | [] => none
  | (k', v) :: rest => if k' = k then some v else lookup k rest

/-- Writes in place, or at the end where the key is new. -/
def insertInto (k : κ) (v : β) : List (κ × β) → List (κ × β)
  | [] => [(k, v)]
  | (k', v') :: rest => if k' = k then (k', v) :: rest else (k', v') :: insertInto k v rest

def eraseFrom (k : κ) : List (κ × β) → List (κ × β)
  | [] => []
  | (k', v) :: rest => if k' = k then rest else (k', v) :: eraseFrom k rest

theorem keys_insertInto (k : κ) (v : β) (l : List (κ × β)) :
    (insertInto k v l).map Prod.fst =
      if k ∈ l.map Prod.fst then l.map Prod.fst else l.map Prod.fst ++ [k] := by
  induction l with
  | nil => simp [insertInto]
  | cons p rest ih =>
    obtain ⟨k', v'⟩ := p
    by_cases h : k' = k
    · simp [insertInto, h]
    · have h' : ¬k = k' := fun e => h e.symm
      simp only [insertInto, h, if_false, List.map_cons, ih, List.mem_cons, h', false_or]
      split <;> rfl

theorem keys_eraseFrom (k : κ) (l : List (κ × β)) :
    (eraseFrom k l).map Prod.fst = (l.map Prod.fst).erase k := by
  induction l with
  | nil => rfl
  | cons p rest ih =>
    obtain ⟨k', v⟩ := p
    by_cases h : k' = k
    · simp [eraseFrom, h]
    · have hb : (k' == k) = false := beq_eq_false_iff_ne.2 h
      simp [eraseFrom, h, ih]

theorem nodup_insertInto (k : κ) (v : β) {l : List (κ × β)} (h : (l.map Prod.fst).Nodup) :
    ((insertInto k v l).map Prod.fst).Nodup := by
  rw [keys_insertInto]
  split
  · exact h
  · rename_i hk
    rw [List.nodup_append]
    refine ⟨h, List.pairwise_singleton _ _, ?_⟩
    intro a ha b hb e
    exact hk (by rw [List.mem_singleton.1 hb] at e; exact e ▸ ha)

def get? (m : Entries κ β) (k : κ) : Option β := lookup k m.toList

def contains (m : Entries κ β) (k : κ) : Bool := (m.get? k).isSome

/-- Writes a key; an old key keeps its place. -/
def insert (m : Entries κ β) (k : κ) (v : β) : Entries κ β :=
  ⟨insertInto k v m.toList, nodup_insertInto k v m.nodup⟩

/-- Removes a key; the others keep their order. -/
def erase (m : Entries κ β) (k : κ) : Entries κ β :=
  ⟨eraseFrom k m.toList, by rw [keys_eraseFrom]; exact m.nodup.erase k⟩

def ofList (l : List (κ × β)) : Entries κ β := l.foldl (fun m p => m.insert p.1 p.2) empty

theorem lookup_insertInto (k k' : κ) (v : β) (l : List (κ × β)) :
    lookup k' (insertInto k v l) = if k = k' then some v else lookup k' l := by
  induction l with
  | nil => rfl
  | cons p rest ih =>
    obtain ⟨q, u⟩ := p
    by_cases hq : q = k
    · subst q
      by_cases hk : k = k' <;> simp [insertInto, lookup, hk]
    · simp only [insertInto, hq, if_false, lookup, ih]
      by_cases hk : k = k'
      · have : q ≠ k' := fun e => hq (e.trans hk.symm)
        simp [hk, this]
      · simp [hk]

theorem lookup_eraseFrom_of_ne {k k' : κ} (h : k ≠ k') (l : List (κ × β)) :
    lookup k' (eraseFrom k l) = lookup k' l := by
  induction l with
  | nil => rfl
  | cons p rest ih =>
    obtain ⟨q, u⟩ := p
    by_cases hq : q = k
    · subst q
      simp [eraseFrom, lookup, h]
    · simp [eraseFrom, lookup, hq, ih]

@[simp] theorem get?_empty (k : κ) : (empty : Entries κ β).get? k = none := rfl

theorem get?_insert (m : Entries κ β) (k k' : κ) (v : β) :
    (m.insert k v).get? k' = if k = k' then some v else m.get? k' :=
  lookup_insertInto k k' v m.toList

@[simp] theorem get?_insert_self (m : Entries κ β) (k : κ) (v : β) :
    (m.insert k v).get? k = some v := by
  rw [get?_insert, if_pos rfl]

theorem get?_insert_of_ne (m : Entries κ β) {k k' : κ} (h : k ≠ k') (v : β) :
    (m.insert k v).get? k' = m.get? k' := by
  rw [get?_insert, if_neg h]

theorem get?_erase_of_ne (m : Entries κ β) {k k' : κ} (h : k ≠ k') :
    (m.erase k).get? k' = m.get? k' :=
  lookup_eraseFrom_of_ne h m.toList

theorem lookup_isSome_iff (k : κ) (l : List (κ × β)) :
    (lookup k l).isSome ↔ k ∈ l.map Prod.fst := by
  induction l with
  | nil => simp [lookup]
  | cons p rest ih =>
    obtain ⟨q, u⟩ := p
    by_cases hq : q = k
    · simp [lookup, hq]
    · have hq' : k ≠ q := fun e => hq e.symm
      simp only [lookup, hq, if_false, ih, List.map_cons, List.mem_cons, hq', false_or]

theorem lookup_eq_some_iff {k : κ} {v : β} {l : List (κ × β)} (nodup : (l.map Prod.fst).Nodup) :
    lookup k l = some v ↔ (k, v) ∈ l := by
  induction l with
  | nil => simp [lookup]
  | cons p rest ih =>
    obtain ⟨q, u⟩ := p
    obtain ⟨new, nodup⟩ := List.nodup_cons.1 nodup
    by_cases hq : q = k
    · subst q
      have other : (k, v) ∉ rest := fun mem => new (List.mem_map.2 ⟨_, mem, rfl⟩)
      simp [lookup, other, eq_comm]
    · have hq' : k ≠ q := fun e => hq e.symm
      simp [lookup, hq, hq', ih nodup]

theorem get?_eq_some_iff (m : Entries κ β) {k : κ} {v : β} :
    m.get? k = some v ↔ (k, v) ∈ m.toList :=
  lookup_eq_some_iff m.nodup

theorem isSome_get?_iff (m : Entries κ β) (k : κ) : (m.get? k).isSome ↔ k ∈ m.keys :=
  lookup_isSome_iff k m.toList

theorem mem_keys_of_get? (m : Entries κ β) {k : κ} {v : β} (found : m.get? k = some v) :
    k ∈ m.keys :=
  (m.isSome_get?_iff k).1 (Option.isSome_of_eq_some found)

theorem get?_eq_none_iff (m : Entries κ β) (k : κ) : m.get? k = none ↔ k ∉ m.keys := by
  rw [← isSome_get?_iff, ← Option.not_isSome_iff_eq_none]

/-! #### Order -/

/-- A key that is there keeps its place; a new one comes last. -/
theorem keys_insert (m : Entries κ β) (k : κ) (v : β) :
    (m.insert k v).keys = if k ∈ m.keys then m.keys else m.keys ++ [k] :=
  keys_insertInto k v m.toList

@[simp] theorem keys_erase (m : Entries κ β) (k : κ) : (m.erase k).keys = m.keys.erase k :=
  keys_eraseFrom k m.toList

@[simp] theorem get?_erase_self (m : Entries κ β) (k : κ) : (m.erase k).get? k = none := by
  rw [get?_eq_none_iff, keys_erase]
  exact m.nodup.not_mem_erase

theorem get?_erase (m : Entries κ β) (k k' : κ) :
    (m.erase k).get? k' = if k = k' then none else m.get? k' := by
  split
  · rename_i same
    rw [← same, get?_erase_self]
  · exact m.get?_erase_of_ne ‹_›

theorem insertInto_of_not_mem {k : κ} {l : List (κ × β)} (new : k ∉ l.map Prod.fst) (v : β) :
    insertInto k v l = l ++ [(k, v)] := by
  induction l with
  | nil => rfl
  | cons p rest ih =>
    obtain ⟨q, u⟩ := p
    simp only [List.map_cons, List.mem_cons, not_or] at new
    rw [insertInto, if_neg (Ne.symm new.1), ih new.2, List.cons_append]

/-- Entries whose keys are apart stay as they are listed. -/
theorem toList_ofList {l : List (κ × β)} (nodup : (l.map Prod.fst).Nodup) :
    (ofList l).toList = l := by
  have onto (m : Entries κ β) (apart : ((m.toList ++ l).map Prod.fst).Nodup) :
      (l.foldl (fun m p => m.insert p.1 p.2) m).toList = m.toList ++ l := by
    clear nodup
    induction l generalizing m with
    | nil => rw [List.foldl_nil, List.append_nil]
    | cons p rest ih =>
      have new : p.1 ∉ m.toList.map Prod.fst := by
        rw [List.map_append, List.map_cons, List.nodup_append] at apart
        exact fun mem => apart.2.2 _ mem _ List.mem_cons_self rfl
      have inserted : (m.insert p.1 p.2).toList = m.toList ++ [p] := insertInto_of_not_mem new p.2
      have moved : m.toList ++ p :: rest = m.toList ++ [p] ++ rest := by
        rw [List.append_assoc, List.singleton_append]
      rw [List.foldl_cons, ih, inserted, moved]
      rwa [inserted, ← moved]
  exact onto empty nodup

theorem mem_keys_insert (m : Entries κ β) (k k' : κ) (v : β) :
    k' ∈ (m.insert k v).keys ↔ k' = k ∨ k' ∈ m.keys := by
  rw [← isSome_get?_iff, ← isSome_get?_iff, get?_insert]
  split
  · simp_all
  · rename_i other
    simp [Ne.symm other]

end Keyed

end Entries

end ScriptBridge
