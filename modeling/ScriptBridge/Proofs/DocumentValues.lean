import ScriptBridge.Proofs.DocumentTexts
import ScriptBridge.Proofs.Effects
import ScriptBridge.Proofs.HostDocuments
import ScriptBridge.Proofs.Positions
import ScriptBridge.Value.Equality

/-!
Host values made from documents, and documents made from host values. A document describes every
value made from it, and the document of a value describes that value. Values that one document
describes are equal by contents, and documents that describe one value differ at most in the order
of members and in the spelling of numbers. So each way there and back gives what one started with.
-/

namespace ScriptBridge

open Relation (ReflTransGen TransGen)

/-! ### Numbers -/

namespace Double

/-- What a number is rounded to lies below every count of 53 bits that the number lies below. -/
theorem RoundsTo.le_of_le {q : ℚ} {units other : Nat} (h : RoundsTo q units)
    (bits : spacing other ∣ other) (le : q ≤ other) : units ≤ other := by
  by_contra less
  have less' : (other : ℚ) < units := Nat.cast_lt.2 (Nat.lt_of_not_le less)
  have nearest := h.nearest other bits
  rw [abs_of_nonpos (by linarith), abs_of_nonpos (by linarith)] at nearest
  linarith

/-- Whole numbers below the greatest power of two that is a double are rounded to doubles. -/
theorem isFinite_ofInt_of_le {n : Int} {k : Nat} (short : n.natAbs ≤ 2 ^ k) (inside : k < 1024) :
    (ofInt n).isFinite := by
  obtain ⟨units, rounds, made⟩ := nearest_rounds (n < 0) (n.natAbs * one) Nat.one_pos
  have power : 2 ^ k * one = 2 ^ (k + 1074) := by
    rw [one, Nat.pow_add]
  have bits : spacing (2 ^ k * one) ∣ 2 ^ k * one := by
    rw [power, spacing_two_pow]
    exact Nat.pow_dvd_pow 2 (Nat.sub_le _ 52)
  have le : units ≤ 2 ^ k * one := by
    refine rounds.le_of_le bits ?_
    rw [Nat.cast_one, div_one]
    exact_mod_cast Nat.mul_le_mul_right one short
  have less (limit : Nat) (above : k + 1074 < limit) : units < 2 ^ limit := by
    rw [power] at le
    exact Nat.lt_of_le_of_lt le (Nat.pow_lt_pow_right (by decide) above)
  have fits : Representable units :=
    ⟨less 2098 (by omega), Nat.mod_eq_zero_of_dvd rounds.bits⟩
  rw [ofInt, made, ofUnits, dif_pos fits]
  rfl

theorem isFinite_of_eq {d e : Double} (same : d.eq e) (finite : d.isFinite) : e.isFinite := by
  cases d with
  | nan | infinity => cases finite
  | finite =>
    cases e with
    | nan | infinity => cases same
    | finite => rfl

theorem eq_of_isFinite {d : Double} (finite : d.isFinite) : d.eq d := by
  cases d with
  | nan => cases finite
  | infinity | finite => exact eq_self rfl

theorem eq_symm {d e : Double} (same : d.eq e) : e.eq d := by
  rw [Bridge.eq_iff_crossing_eq] at same ⊢
  rw [← Bridge.isNaN_crossing, ← same.2, Bridge.isNaN_crossing]
  exact ⟨same.1, rfl⟩

theorem eq_trans {d e f : Double} (same : d.eq e) (same' : e.eq f) : d.eq f := by
  rw [Bridge.eq_iff_crossing_eq] at same same' ⊢
  exact ⟨same.1, same.2.trans same'.2⟩

end Double

theorem Bridge.crossing_eq {d : Double} (finite : d.isFinite) : (crossing d).eq d := by
  have agrees := sameValueZero_crossing d
  have number : d.isNaN = false := by
    cases d with
    | nan => cases finite
    | infinity | finite => rfl
  rwa [Double.sameValueZero, number, Bool.and_false, Bool.false_or] at agrees

/-! ### Lists -/

theorem Heap.equalLists_of_each {eq : Value → Value → Bool} {xs ys : List Value}
    (length : xs.length = ys.length)
    (each : ∀ (i : Nat) (x y : Value), xs[i]? = some x → ys[i]? = some y → eq x y) :
    equalLists eq xs ys := by
  induction xs generalizing ys with
  | nil =>
    cases ys with
    | nil => rfl
    | cons y ys => cases length
  | cons x xs ih =>
    cases ys with
    | nil => cases length
    | cons y ys =>
      refine Bool.and_eq_true_iff.2 ⟨each 0 x y rfl rfl, ?_⟩
      exact ih (Nat.succ.inj length) fun i x' y' found found' => each (i + 1) x' y' found found'

theorem Heap.equalWithin_sequence {h : Heap} {s t : SequenceId} {xs ys : List Value} {level : Nat}
    (found : h.sequences.get? s.index = some xs) (found' : h.sequences.get? t.index = some ys)
    (length : xs.length = ys.length)
    (each : ∀ (i : Nat) (x y : Value), xs[i]? = some x → ys[i]? = some y →
      h.equalWithin level x y) : h.equalWithin (level + 1) (.sequence s) (.sequence t) := by
  rw [equalWithin, sequence_of_get? found, sequence_of_get? found', Bool.or_eq_true]
  exact .inr (equalLists_of_each length each)

theorem Heap.equalWithin_plain {h : Heap} {p q : PlainId} {m m' : Entries String Value}
    {level : Nat} (found : h.plains.get? p.index = some m)
    (found' : h.plains.get? q.index = some m') (keys : m.keys.Perm m'.keys)
    (each : ∀ key x y, m.get? key = some x → m'.get? key = some y → h.equalWithin level x y) :
    h.equalWithin (level + 1) (.plain p) (.plain q) := by
  have size : m.size = m'.size := by
    simpa only [Entries.keys, Entries.size, List.length_map] using keys.length_eq
  rw [equalWithin, plain_of_get? found, plain_of_get? found', Bool.or_eq_true, Bool.and_eq_true]
  refine .inr ⟨beq_iff_eq.2 size, List.all_eq_true.2 ?_⟩
  rintro ⟨key, x⟩ mem
  have value : m.get? key = some x := m.get?_eq_some_iff.2 mem
  have there := keys.mem_iff.1 (m.mem_keys_of_get? value)
  obtain ⟨y, value'⟩ := Option.isSome_iff_exists.1 ((m'.isSome_get?_iff key).2 there)
  simp only [value']
  exact each key x y value value'

/-! ### Documents -/

namespace Json

/-- A document as it is read: its whole numbers are of 64 bits and all others finite, and no two
members of an object have one key. -/
inductive Proper : Json → Prop where
  | null : Proper .null
  | bool (b : Bool) : Proper (.bool b)
  | int {n : Int} (least : -2 ^ 63 ≤ n) (less : n < 2 ^ 64) : Proper (.int n)
  | real {d : Double} (finite : d.isFinite) : Proper (.real d)
  | string (s : String) : Proper (.string s)
  | array {items : List Json} (each : ∀ item ∈ items, Proper item) : Proper (.array items)
  | object {members : List (String × Json)} (apart : (members.map Prod.fst).Nodup)
    (each : ∀ m ∈ members, Proper m.2) : Proper (.object members)

/-- One document but for the order of members, with numbers compared as doubles. -/
inductive Alike : Json → Json → Prop where
  | null : Alike .null .null
  | bool (b : Bool) : Alike (.bool b) (.bool b)
  | number {a b : Json} {d e : Double} (ha : a.double? = some d) (hb : b.double? = some e)
    (same : d.eq e) : Alike a b
  | string (s : String) : Alike (.string s) (.string s)
  | array {items items' : List Json} (length : items.length = items'.length)
    (each : ∀ (i : Nat) (a b : Json), items[i]? = some a → items'[i]? = some b → Alike a b) :
    Alike (.array items) (.array items')
  | object {members members' : List (String × Json)}
    (keys : (members.map Prod.fst).Perm (members'.map Prod.fst))
    (each : ∀ key a b, (key, a) ∈ members → (key, b) ∈ members' → Alike a b) :
    Alike (.object members) (.object members')

/-- A document describes a value: item by item, and member by member in any order. -/
inductive Describes (h : Heap) : Json → Value → Prop where
  | null : Describes h .null .null
  | bool (b : Bool) : Describes h (.bool b) (.bool b)
  | number {j : Json} {d e : Double} (hj : j.double? = some d) (same : d.eq e) :
    Describes h j (.number e)
  | string (s : String) : Describes h (.string s) (.string s)
  | array {items : List Json} {s : SequenceId} {values : List Value}
    (found : h.sequences.get? s.index = some values) (length : items.length = values.length)
    (each : ∀ (i : Nat) (item : Json) (v : Value), items[i]? = some item → values[i]? = some v →
      Describes h item v) : Describes h (.array items) (.sequence s)
  | object {members : List (String × Json)} {p : PlainId} {entries : Entries String Value}
    (found : h.plains.get? p.index = some entries)
    (keys : (members.map Prod.fst).Perm entries.keys)
    (each : ∀ key item v, (key, item) ∈ members → entries.get? key = some v →
      Describes h item v) : Describes h (.object members) (.plain p)

/-- The items of an array, or the values of the members of an object. -/
def parts : Json → List Json
  | array items => items
  | object members => members.map Prod.snd
  | _ => []

variable {h h' : Heap} {j j' : Json} {a b v inner : Value}

theorem Proper.isFinite (proper : j.Proper) {d : Double} (number : j.double? = some d) :
    d.isFinite := by
  cases proper with
  | int least less =>
    obtain rfl := Option.some.inj number
    exact Double.isFinite_ofInt_of_le (k := 64) (by omega) (by decide)
  | real finite =>
    obtain rfl := Option.some.inj number
    exact finite
  | _ => cases number

theorem Describes.later (kept : h.Kept h') (describes : Describes h j v) : Describes h' j v := by
  induction describes with
  | null => exact .null
  | bool b => exact .bool b
  | number hj same => exact .number hj same
  | string s => exact .string s
  | array found length _ ih => exact .array (kept.sequences _ _ found) length ih
  | object found keys _ ih => exact .object (kept.plains _ _ found) keys ih

/-! ### Values made from documents -/

theorem itemValues_described {items : List Json}
    (ih : ∀ item ∈ items, ∀ h : Heap, h.Kept (item.toValue h).2 ∧
      Describes (item.toValue h).2 item (item.toValue h).1) (h : Heap) :
    h.Kept (itemValues h items).2 ∧ items.length = (itemValues h items).1.length ∧
      ∀ (i : Nat) (item : Json) (v : Value), items[i]? = some item →
        (itemValues h items).1[i]? = some v → Describes (itemValues h items).2 item v := by
  induction items generalizing h with
  | nil => exact ⟨.refl h, rfl, fun i item v found => nomatch found⟩
  | cons item rest tail =>
    obtain ⟨kept, described⟩ := ih item List.mem_cons_self h
    obtain ⟨kept', length, each⟩ :=
      tail (fun item mem => ih item (List.mem_cons_of_mem _ mem)) (item.toValue h).2
    refine ⟨kept.trans kept', congrArg Nat.succ length, fun i item' v found found' => ?_⟩
    cases i with
    | zero =>
      cases found
      cases found'
      exact described.later kept'
    | succ i => exact each i item' v found found'

theorem memberValues_described {members : List (String × Json)}
    (apart : (members.map Prod.fst).Nodup)
    (ih : ∀ m ∈ members, ∀ h : Heap, h.Kept (m.2.toValue h).2 ∧
      Describes (m.2.toValue h).2 m.2 (m.2.toValue h).1) (h : Heap) :
    h.Kept (memberValues h members).2 ∧
      (memberValues h members).1.map Prod.fst = members.map Prod.fst ∧
      ∀ key item v, (key, item) ∈ members → (key, v) ∈ (memberValues h members).1 →
        Describes (memberValues h members).2 item v := by
  induction members generalizing h with
  | nil => exact ⟨.refl h, rfl, fun key item v mem => nomatch mem⟩
  | cons m rest tail =>
    obtain ⟨name, item⟩ := m
    obtain ⟨new, apart⟩ := List.nodup_cons.1 apart
    obtain ⟨kept, described⟩ := ih (name, item) List.mem_cons_self h
    obtain ⟨kept', keys, each⟩ :=
      tail apart (fun m mem => ih m (List.mem_cons_of_mem _ mem)) (item.toValue h).2
    refine ⟨kept.trans kept', congrArg (name :: ·) keys, fun key item' v mem mem' => ?_⟩
    cases mem with
    | head =>
      cases mem' with
      | head => exact described.later kept'
      | tail _ mem' =>
        rw [← keys] at new
        exact absurd (List.mem_map_of_mem mem') new
    | tail _ mem =>
      cases mem' with
      | head => exact absurd (List.mem_map_of_mem mem) new
      | tail _ mem' => exact each key item' v mem mem'

/-- A document describes the value made from it, whatever is on the heap before. -/
theorem Proper.toValue_described (proper : j.Proper) (h : Heap) :
    h.Kept (j.toValue h).2 ∧ Describes (j.toValue h).2 j (j.toValue h).1 := by
  induction proper generalizing h with
  | null => exact ⟨.refl h, .null⟩
  | bool b => exact ⟨.refl h, .bool b⟩
  | int least less =>
    exact ⟨.refl h, .number rfl (Double.eq_of_isFinite ((Proper.int least less).isFinite rfl))⟩
  | real finite => exact ⟨.refl h, .number rfl (Double.eq_of_isFinite finite)⟩
  | string s => exact ⟨.refl h, .string s⟩
  | @array items _ ih =>
    obtain ⟨kept, length, each⟩ := itemValues_described ih h
    have pushed := Heap.kept_pushSequence (itemValues h items).2 (itemValues h items).1
    exact ⟨kept.trans pushed, .array (Arena.get?_push_size _ _) length fun i item v found found' =>
      (each i item v found found').later pushed⟩
  | @object members apart _ ih =>
    obtain ⟨kept, keys, each⟩ := memberValues_described apart ih h
    rw [← keys] at apart
    have order := perm_sortMembers apart
    let entries : Entries String Value := .ofList (sortMembers (memberValues h members).1)
    have listed : entries.toList = sortMembers (memberValues h members).1 :=
      Entries.toList_ofList ((order.map Prod.fst).nodup_iff.2 apart)
    have pushed := Heap.kept_pushPlain (memberValues h members).2 entries
    refine ⟨kept.trans pushed, .object (Arena.get?_push_size _ _) ?_ fun key item v mem found => ?_⟩
    · rw [Entries.keys, listed, ← keys]
      exact (order.map Prod.fst).symm
    · rw [Entries.get?_eq_some_iff, listed, order.mem_iff] at found
      exact (each key item v mem found).later pushed

/-! ### Values that one document describes -/

theorem Describes.child (describes : Describes h j v) (holds : h.Holds v inner) :
    ∃ item ∈ j.parts, Describes h item inner := by
  cases describes with
  | @array items s values found length each =>
    obtain ⟨i, inside, rfl⟩ := List.getElem_of_mem ((Heap.holds_sequence_iff found).1 holds)
    have inside' : i < items.length := length ▸ inside
    exact ⟨items[i], List.getElem_mem inside',
      each i _ _ (List.getElem?_eq_getElem inside') (List.getElem?_eq_getElem inside)⟩
  | @object members p entries found keys each =>
    obtain ⟨key, value⟩ := (Heap.holds_plain_iff found).1 holds
    obtain ⟨⟨_, item⟩, mem, rfl⟩ := List.mem_map.1 (keys.mem_iff.2 (entries.mem_keys_of_get? value))
    exact ⟨item, List.mem_map_of_mem mem, each _ item inner mem value⟩
  | _ => cases holds

theorem Proper.part (proper : j.Proper) {item : Json} (mem : item ∈ j.parts) : item.Proper := by
  cases proper with
  | array each => exact each item mem
  | object apart each =>
    obtain ⟨m, member, rfl⟩ := List.mem_map.1 mem
    exact each m member
  | _ => cases mem

theorem Describes.grounded (describes : Describes h j v) (proper : j.Proper) : h.Grounded v := by
  induction proper generalizing v with
  | array _ ih =>
    refine .intro v fun inner holds => ?_
    obtain ⟨item, mem, part⟩ := describes.child holds
    exact ih item mem part
  | object _ _ ih =>
    refine .intro v fun inner holds => ?_
    obtain ⟨item, mem, part⟩ := describes.child holds
    obtain ⟨m, member, rfl⟩ := List.mem_map.1 mem
    exact ih m member part
  | _ =>
    refine .intro v fun inner holds => ?_
    obtain ⟨item, mem, _⟩ := describes.child holds
    cases mem

/-- Values that one document describes are equal by contents. -/
theorem Describes.equalWithin (describes : Describes h j a) (describes' : Describes h j b)
    (grounded : h.Grounded a) {level : Nat} (enough : h.Enough a level) :
    h.equalWithin level a b := by
  induction describes generalizing b level with
  | null =>
    obtain ⟨n, rfl⟩ := enough.exists_succ
    cases describes' with
    | null => rfl
    | number hj => cases hj
  | bool c =>
    obtain ⟨n, rfl⟩ := enough.exists_succ
    cases describes' with
    | bool => exact beq_self_eq_true c
    | number hj => cases hj
  | string s =>
    obtain ⟨n, rfl⟩ := enough.exists_succ
    cases describes' with
    | string => exact beq_self_eq_true s
    | number hj => cases hj
  | number hj same =>
    obtain ⟨n, rfl⟩ := enough.exists_succ
    cases describes' with
    | number hj' same' =>
      obtain rfl := Option.some.inj (hj.symm.trans hj')
      exact Double.eq_trans (Double.eq_symm same) same'
    | _ => cases hj
  | @array items s xs found length each ih =>
    obtain ⟨n, rfl⟩ := enough.exists_succ
    cases describes' with
    | number hj => cases hj
    | @array _ t ys found' length' each' =>
      have lengths := length.symm.trans length'
      refine Heap.equalWithin_sequence found found' lengths fun i x y hx hy => ?_
      have inside : i < items.length := length ▸ (List.getElem?_eq_some_iff.1 hx).1
      have item := List.getElem?_eq_getElem inside
      have holds : h.Holds (.sequence s) x :=
        (Heap.holds_sequence_iff found).2 (List.mem_of_getElem? hx)
      exact ih i _ x item hx (each' i _ y item hy) (grounded.child holds)
        (enough.inside grounded holds)
  | @object members p m found keys each ih =>
    obtain ⟨n, rfl⟩ := enough.exists_succ
    cases describes' with
    | number hj => cases hj
    | @object _ q m' found' keys' each' =>
      refine Heap.equalWithin_plain found found' (keys.symm.trans keys') fun key x y hx hy => ?_
      have there := m.mem_keys_of_get? hx
      obtain ⟨⟨_, item⟩, named, rfl⟩ := List.mem_map.1 (keys.mem_iff.2 there)
      have holds : h.Holds (.plain p) x := (Heap.holds_plain_iff found).2 ⟨_, hx⟩
      exact ih _ item x named hx (each' _ item y named hy)
        (grounded.child holds) (enough.inside grounded holds)

/-- Documents that describe one value are alike. -/
theorem Describes.alike (describes : Describes h j v) (describes' : Describes h j' v) :
    Alike j j' := by
  induction describes generalizing j' with
  | null => cases describes' with | null => exact .null
  | bool b => cases describes' with | bool => exact .bool b
  | string s => cases describes' with | string => exact .string s
  | number hj same =>
    cases describes' with
    | number hj' same' => exact .number hj hj' (Double.eq_trans same (Double.eq_symm same'))
  | @array items s values found length each ih =>
    cases describes' with
    | @array items' _ _ found' length' each' =>
      obtain rfl := Option.some.inj (found.symm.trans found')
      refine .array (length.trans length'.symm) fun i item item' hi hi' => ?_
      have inside : i < values.length := length ▸ (List.getElem?_eq_some_iff.1 hi).1
      have value := List.getElem?_eq_getElem inside
      exact ih i item _ hi value (each' i item' _ hi' value)
  | @object members p entries found keys each ih =>
    cases describes' with
    | @object members' _ _ found' keys' each' =>
      obtain rfl := Option.some.inj (found.symm.trans found')
      refine .object (keys.trans keys'.symm) fun key item item' mem mem' => ?_
      obtain ⟨v, value⟩ := Option.isSome_iff_exists.1 ((entries.isSome_get?_iff key).2
        (keys.mem_iff.1 (List.mem_map_of_mem (f := Prod.fst) mem)))
      exact ih key item v mem value (each' key item' v mem' value)

end Json

/-! ### Documents of values -/

/-- Null, a boolean, a finite number, a string, or a container that there is. -/
def Heap.isData (h : Heap) : Value → Bool
  | .null | .bool _ | .string _ => true
  | .number d => d.isFinite
  | .sequence s => (h.sequences.get? s.index).isSome
  | .plain p => (h.plains.get? p.index).isSome
  | _ => false

/-- A value that is built of data alone and in which no container comes back to itself. -/
structure Heap.PureData (h : Heap) (v : Value) : Prop where
  data : ∀ inner, ReflTransGen h.Holds v inner → h.isData inner
  acyclic : ∀ inner, ReflTransGen h.Holds v inner → ¬TransGen h.Holds inner inner

section

variable {h : Heap} {j : Json} {v inner : Value}

theorem Heap.PureData.child (pure : h.PureData v) (holds : h.Holds v inner) : h.PureData inner :=
  ⟨fun deeper way => pure.data deeper (.head holds way),
    fun deeper way => pure.acyclic deeper (.head holds way)⟩

theorem Json.Describes.isData (describes : Describes h j v) (proper : j.Proper) : h.isData v := by
  cases describes with
  | null | bool | string => rfl
  | number hj same => exact Double.isFinite_of_eq same (proper.isFinite hj)
  | array found | object found => exact Option.isSome_iff_exists.2 ⟨_, found⟩

theorem Json.Describes.pureData (describes : Describes h j v) (proper : j.Proper) :
    h.PureData v := by
  have described {inner : Value} (way : ReflTransGen h.Holds v inner) :
      ∃ item, Describes h item inner ∧ item.Proper := by
    induction way with
    | refl => exact ⟨j, describes, proper⟩
    | tail _ holds ih =>
      obtain ⟨outer, describes, proper⟩ := ih
      obtain ⟨item, mem, part⟩ := describes.child holds
      exact ⟨item, part, proper.part mem⟩
  refine ⟨fun inner way => ?_, fun inner way => ?_⟩
  · obtain ⟨item, describes, proper⟩ := described way
    exact describes.isData proper
  · obtain ⟨item, describes, proper⟩ := described way
    exact (describes.grounded proper).acyclic

theorem Json.proper_ofNumber {d : Double} (finite : d.isFinite) : (Json.ofNumber d).Proper := by
  unfold ofNumber
  split
  · rename_i whole
    have small : d.toInt.natAbs < wholeLimit := by
      cases d with
      | nan | infinity => cases finite
      | finite negative units fits =>
        rw [Double.toInt, Double.natAbs_signed]
        exact whole.2
    rw [wholeLimit] at small
    exact .int (by omega) (by omega)
  · exact .real finite

/-- The document that a value has is a proper one and describes it. -/
structure Json.Pictures (h : Heap) (j : Json) (v : Value) : Prop where
  document : h.json v = some j
  proper : j.Proper
  describes : Describes h j v

theorem Json.Pictures.getD (pictures : Pictures h j v) :
    Pictures h ((h.json v).getD .null) v := by
  rw [pictures.document]
  exact pictures

theorem Json.pictures_sequence {s : SequenceId} {values : List Value}
    (grounded : h.Grounded (.sequence s)) (found : h.sequences.get? s.index = some values)
    (each : ∀ inner ∈ values, Pictures h ((h.json inner).getD .null) inner) :
    Pictures h (.array (values.map fun inner => (h.json inner).getD .null)) (.sequence s) where
  document := by rw [grounded.json_sequence, Heap.sequence_of_get? found]
  proper := .array fun item mem => by
    obtain ⟨inner, element, rfl⟩ := List.mem_map.1 mem
    exact (each inner element).proper
  describes := .array found (List.length_map _) fun i item inner hi hv => by
    rw [List.getElem?_map, hv] at hi
    cases hi
    exact (each inner (List.mem_of_getElem? hv)).describes

theorem Json.pictures_plain {p : PlainId} {entries : Entries String Value}
    (grounded : h.Grounded (.plain p)) (found : h.plains.get? p.index = some entries)
    (each : ∀ e ∈ entries.toList, Pictures h ((h.json e.2).getD .null) e.2) :
    Pictures h (.object (sortMembers (entries.toList.map fun e =>
      (e.1, (h.json e.2).getD .null)))) (.plain p) := by
  let members := entries.toList.map fun e => (e.1, (h.json e.2).getD .null)
  have written : entries.toList.filterMap (fun e => (h.json e.2).map (e.1, ·)) = members := by
    simp only [members, ← List.filterMap_eq_map]
    refine List.filterMap_congr fun e mem => ?_
    rw [(each e mem).document]
    rfl
  have keys : members.map Prod.fst = entries.keys := List.map_map
  have order : (sortMembers members).Perm members := perm_sortMembers (keys ▸ entries.nodup_keys)
  have order' : ((sortMembers members).map Prod.fst).Perm entries.keys := keys ▸ order.map Prod.fst
  constructor
  · rw [grounded.json_plain, Heap.plain_of_get? found, written]
  · refine .object (order'.nodup_iff.2 entries.nodup_keys) fun m mem => ?_
    obtain ⟨e, entry, rfl⟩ := List.mem_map.1 (order.mem_iff.1 mem)
    exact (each e entry).proper
  · refine .object found order' fun key item inner mem value => ?_
    obtain ⟨⟨_, v⟩, entry, same⟩ := List.mem_map.1 (order.mem_iff.1 mem)
    cases same
    obtain rfl := Option.some.inj (value.symm.trans (entries.get?_eq_some_iff.2 entry))
    exact (each _ entry).describes

/-- Pure data have a document, and it describes them. -/
theorem Heap.PureData.described (pure : h.PureData v) : ∃ j, Json.Pictures h j v := by
  have grounded := grounded_of_acyclic pure.acyclic
  induction grounded with
  | intro v children ih =>
    have grounded : h.Grounded v := .intro v children
    have data := pure.data v .refl
    have inside {inner : Value} (holds : h.Holds v inner) :
        Json.Pictures h ((h.json inner).getD .null) inner := by
      obtain ⟨j, pictures⟩ := ih inner holds (pure.child holds)
      exact pictures.getD
    cases v with
    | null => exact ⟨.null, rfl, .null, .null⟩
    | bool b => exact ⟨.bool b, rfl, .bool b, .bool b⟩
    | string s => exact ⟨.string s, rfl, .string s, .string s⟩
    | number d =>
      exact ⟨.ofNumber d, rfl, Json.proper_ofNumber data,
        .number (Json.double?_ofNumber data) (Bridge.crossing_eq data)⟩
    | sequence s =>
      obtain ⟨values, found⟩ := Option.isSome_iff_exists.1 data
      exact ⟨_, Json.pictures_sequence grounded found fun inner mem =>
        inside ((Heap.holds_sequence_iff found).2 mem)⟩
    | plain p =>
      obtain ⟨entries, found⟩ := Option.isSome_iff_exists.1 data
      exact ⟨_, Json.pictures_plain grounded found fun e mem =>
        inside ((Heap.holds_plain_iff found).2 ⟨e.1, entries.get?_eq_some_iff.2 mem⟩)⟩
    | _ => cases data

end

/-! ### There and back -/

/-- A value made from a document has a document again: the same one but for the order of members,
with numbers compared as doubles. What is made from that is equal by contents to the first value.
And every value of null, booleans, finite numbers, strings, sequences and plain objects that do not
come back to themselves has a document, and what is made from it is equal by contents to the
value. -/
theorem documents_round_trip (h : Heap) :
    (∀ j : Json, j.Proper →
      let made := j.toValue h
      ∃ j', made.2.json made.1 = some j' ∧ Json.Alike j j' ∧
        let again := j'.toValue made.2
        again.2.structurallyEqual again.1 made.1) ∧
    ∀ v, h.PureData v →
      ∃ j, h.json v = some j ∧
        let made := j.toValue h
        made.2.structurallyEqual made.1 v := by
  -- what is made from the document of a value is described by it, and so is the value
  have back {h : Heap} {v : Value} (pure : h.PureData v) :
      ∃ j, h.json v = some j ∧ Json.Describes h j v ∧
        (j.toValue h).2.structurallyEqual (j.toValue h).1 v := by
    obtain ⟨j, document, proper, describes⟩ := pure.described
    obtain ⟨kept, made⟩ := proper.toValue_described h
    exact ⟨j, document, describes, made.equalWithin (describes.later kept) (made.grounded proper)
      (Heap.enough_depthBound _ _)⟩
  refine ⟨fun j proper => ?_, fun v pure => ?_⟩
  · obtain ⟨_, made⟩ := proper.toValue_described h
    obtain ⟨j', document, describes, equal⟩ := back (made.pureData proper)
    exact ⟨j', document, made.alike describes, equal⟩
  · obtain ⟨j, document, _, equal⟩ := back pure
    exact ⟨j, document, equal⟩

/-- A document out of order with a whole number that no double has, and a sequence that holds one
sequence twice, in which there is a negative zero. -/
theorem documents_round_trip_shared :
    let h : Heap := ({ : Heap }.pushSequence [.number (.zero true)]).pushSequence
      [.sequence ⟨0⟩, .sequence ⟨0⟩]
    let j : Json := .object [("b", .array [.int (2 ^ 53 + 1)]), ("a", .null)]
    let made := j.toValue h
    j.Proper ∧ h.PureData (.sequence ⟨1⟩) ∧
      (∃ j', made.2.json made.1 = some j' ∧ Json.Alike j j' ∧
        let again := j'.toValue made.2
        again.2.structurallyEqual again.1 made.1) ∧
      ∃ j, h.json (.sequence ⟨1⟩) = some j ∧
        let made := j.toValue h
        made.2.structurallyEqual made.1 (.sequence ⟨1⟩) := by
  intro h j made
  have proper : j.Proper := by
    refine .object (by decide) (List.forall_mem_cons.2 ⟨.array ?_, ?_⟩)
    · exact List.forall_mem_singleton.2 (.int (by decide) (by decide))
    · exact List.forall_mem_singleton.2 .null
  have described : Json.Describes h (.array [.real (.zero true)]) (.sequence ⟨0⟩) := by
    refine .array rfl rfl fun i item v hi hv => ?_
    cases i with
    | zero =>
      cases hi
      cases hv
      exact .number rfl (Double.eq_self rfl)
    | succ => cases hi
  have twice : Json.Describes h (.array (.replicate 2 (.array [.real (.zero true)])))
      (.sequence ⟨1⟩) := by
    refine .array rfl rfl fun i item v hi hv => ?_
    match i with
    | 0 | 1 =>
      cases hi
      cases hv
      exact described
    | i + 2 => cases hi
  have pure : h.PureData (.sequence ⟨1⟩) := by
    refine twice.pureData (.array fun item mem => ?_)
    obtain rfl := List.eq_of_mem_replicate mem
    exact .array (List.forall_mem_singleton.2 (.real rfl))
  exact ⟨proper, pure, (documents_round_trip h).1 j proper, (documents_round_trip h).2 _ pure⟩

end ScriptBridge
