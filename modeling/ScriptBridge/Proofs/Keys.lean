import ScriptBridge.Script.Object
import Mathlib.Data.List.Nodup

/-!
Which texts name slots: exactly the decimal forms of the numbers below the index limit, each of them
one slot.
-/

namespace ScriptBridge.PropertyKey

/-! ### Digits -/

theorem ofChars_append (a b : List Char) :
    Utf16.ofChars (a ++ b) = Utf16.ofChars a ++ Utf16.ofChars b := by
  simp only [Utf16.ofChars, List.flatMap_append]

theorem digitsValue_append (start : Nat) (a b : Utf16) :
    digitsValue start (a ++ b) = digitsValue (digitsValue start a) b :=
  List.foldl_append

theorem decimal_of_lt {n : Nat} (h : n < 10) : decimal n = [UInt16.ofNat (0x30 + n)] := by
  revert n
  decide

theorem decimal_of_le {n : Nat} (h : 10 ≤ n) :
    decimal n = decimal (n / 10) ++ decimal (n % 10) := by
  have last : n % 10 < 10 := Nat.mod_lt _ (by decide)
  simp only [decimal]
  rw [Nat.toDigits_of_base_le (by decide) h, ofChars_append, Nat.toDigits_of_lt_base last]

theorem toNat_of_isDigit {u : UInt16} (h : isDigit u) : 0x30 ≤ u.toNat ∧ u.toNat ≤ 0x39 := by
  simpa [isDigit, UInt16.le_iff_toNat_le] using h

theorem decimal_of_isDigit {u : UInt16} (h : isDigit u) : decimal (u.toNat - 0x30) = [u] := by
  have bounds := toNat_of_isDigit h
  rw [decimal_of_lt (by omega), Nat.add_sub_cancel' bounds.1, UInt16.ofNat_toNat]

/-- Reading on after a number that is not zero continues its decimal form. -/
theorem decimal_append {start : Nat} (positive : 0 < start) {digits : Utf16}
    (h : digits.all isDigit) : decimal start ++ digits = decimal (digitsValue start digits) := by
  induction digits generalizing start with
  | nil => exact List.append_nil _
  | cons u rest ih =>
    obtain ⟨hu, hrest⟩ : isDigit u ∧ rest.all isDigit := by simpa using h
    have bounds := toNat_of_isDigit hu
    have next : decimal (start * 10 + (u.toNat - 0x30)) = decimal start ++ [u] := by
      rw [decimal_of_le (by omega), ← decimal_of_isDigit hu]
      congr 2 <;> omega
    calc decimal start ++ u :: rest = decimal (start * 10 + (u.toNat - 0x30)) ++ rest := by
          rw [next, List.append_assoc, List.singleton_append]
      _ = decimal (digitsValue (start * 10 + (u.toNat - 0x30)) rest) := ih (by omega) hrest

/-- Induction along the digits of a number. -/
theorem decimal_induction {motive : Nat → Prop} (digit : ∀ n < 10, motive n)
    (next : ∀ n, 10 ≤ n → motive (n / 10) → motive n) (n : Nat) : motive n := by
  induction n using Nat.strongRecOn with
  | ind n ih =>
    by_cases small : n < 10
    · exact digit n small
    · exact next n (by omega) (ih (n / 10) (by omega))

theorem all_isDigit_decimal (n : Nat) : (decimal n).all isDigit := by
  have one : ∀ d < 10, (decimal d).all isDigit := by decide
  induction n using decimal_induction with
  | digit n small => exact one n small
  | next n large ih =>
    rw [decimal_of_le large, List.all_append, ih, one (n % 10) (Nat.mod_lt _ (by decide))]
    rfl

theorem digitsValue_decimal (n : Nat) : digitsValue 0 (decimal n) = n := by
  induction n using decimal_induction with
  | digit n small =>
    revert n
    decide
  | next n large ih =>
    have unit : (UInt16.ofNat (0x30 + n % 10)).toNat = 0x30 + n % 10 := by
      rw [UInt16.toNat_ofNat']
      omega
    rw [decimal_of_le large, digitsValue_append, ih, decimal_of_lt (Nat.mod_lt _ (by decide))]
    simp only [digitsValue, List.foldl_cons, List.foldl_nil, unit]
    omega

/-- Only zero begins with a zero. -/
theorem decimal_head (n : Nat) : ∃ u rest, decimal n = u :: rest ∧ (u = 0x30 → n = 0) := by
  induction n using decimal_induction with
  | digit n small =>
    refine ⟨_, [], decimal_of_lt small, ?_⟩
    revert n
    decide
  | next n large ih =>
    obtain ⟨u, rest, front, head⟩ := ih
    refine ⟨u, rest ++ decimal (n % 10), ?_, fun zero => ?_⟩
    · rw [decimal_of_le large, front, List.cons_append]
    · have := head zero
      omega

/-- Digits without a leading zero are the decimal form of their number. -/
theorem eq_decimal {u : UInt16} {rest : Utf16} (digits : (u :: rest).all isDigit)
    (head : u ≠ 0x30 ∨ rest = []) : u :: rest = decimal (digitsValue 0 (u :: rest)) := by
  obtain ⟨hu, hrest⟩ : isDigit u ∧ rest.all isDigit := by simpa using digits
  have bounds := toNat_of_isDigit hu
  have first : digitsValue 0 (u :: rest) = digitsValue (u.toNat - 0x30) rest := by
    rw [digitsValue, List.foldl_cons, Nat.zero_mul, Nat.zero_add]
    rfl
  rw [first]
  by_cases alone : rest = []
  · subst alone
    exact (decimal_of_isDigit hu).symm
  · have nonzero : u.toNat ≠ 0x30 := fun e => head.resolve_right alone (UInt16.toNat_inj.1 e)
    rw [← decimal_append (by omega) hrest, decimal_of_isDigit hu]
    rfl

/-! ### Canonical indices -/

theorem canonicalIndex?_eq_some_iff {t : Utf16} {n : Nat} :
    canonicalIndex? t = some n ↔ n < indexLimit ∧ t = decimal n := by
  constructor
  · intro h
    unfold canonicalIndex? at h
    split at h
    · cases h
    · rename_i u rest
      split at h
      · rename_i canonical
        simp only at h
        split at h
        · rename_i small
          cases h
          exact ⟨small, eq_decimal canonical.1 canonical.2⟩
        · cases h
      · cases h
  · rintro ⟨small, rfl⟩
    have digits := all_isDigit_decimal n
    have value := digitsValue_decimal n
    obtain ⟨u, rest, front, head⟩ := decimal_head n
    have canonical : u ≠ 0x30 ∨ rest = [] := by
      by_cases zero : u = 0x30
      · rw [head zero, decimal_of_lt (by decide)] at front
        exact .inr (List.cons.inj front).2.symm
      · exact .inl zero
    rw [front] at digits value ⊢
    unfold canonicalIndex?
    simp only
    rw [if_pos ⟨digits, canonical⟩, value, if_pos small]

/-- The texts that name slots. -/
theorem ofText_eq_index_iff {t : Utf16} {n : Nat} :
    ofText t = .index n ↔ n < indexLimit ∧ t = decimal n := by
  rw [← canonicalIndex?_eq_some_iff]
  unfold ofText
  cases canonicalIndex? t with
  | none => simp
  | some m => simp

@[simp] theorem text?_ofText (t : Utf16) : (ofText t).text? = some t := by
  cases key : ofText t with
  | index n => rw [text?, (ofText_eq_index_iff.1 key).2]
  | name u =>
    unfold ofText at key
    split at key <;> cases key
    rfl
  | symbol =>
    unfold ofText at key
    split at key <;> cases key

theorem ofText_injective {t u : Utf16} (h : ofText t = ofText u) : t = u := by
  have texts := congrArg text? h
  rw [text?_ofText, text?_ofText] at texts
  exact Option.some.inj texts

/-! ### Keys of positions -/

theorem ofNat_of_lt {n : Nat} (h : n < indexLimit) : ofNat n = .index n := if_pos h

theorem decimal_injective {m n : Nat} (h : decimal m = decimal n) : m = n := by
  rw [← digitsValue_decimal m, h, digitsValue_decimal]

theorem ofNat_injective {m n : Nat} (h : ofNat m = ofNat n) : m = n := by
  unfold ofNat at h
  split at h <;> split at h
  · exact index.inj h
  · cases h
  · cases h
  · exact decimal_injective (name.inj h)

theorem nodup_ofNat (n : Nat) : ((List.range n).map ofNat).Nodup :=
  List.nodup_range.map fun _ _ => ofNat_injective

end ScriptBridge.PropertyKey
