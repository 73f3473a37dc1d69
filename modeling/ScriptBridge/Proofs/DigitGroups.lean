import ScriptBridge.Proofs.FormattedNumbers

/-!
How the digits of whole parts are grouped. Grouping takes the last group off until what is left
fits into the first one, so all groups but the first are full; where a locale groups at all, its
separators stand between the groups and nowhere else.
-/

namespace ScriptBridge

/-! ### Groups -/

/-- Digits in groups: up to three digits that stay together, or a last group of three with groups of
a width before it, of which the first may be shorter but has a digit. -/
inductive InGroups (width : Nat) : List (List Char) → Prop where
  | whole {ds : List Char} (nonempty : ds ≠ []) (few : ds.length ≤ 3) : InGroups width [ds]
  | parts {first last : List Char} {middle : List (List Char)} (nonempty : first ≠ [])
    (fits : first.length ≤ width) (full : ∀ group ∈ middle, group.length = width)
    (three : last.length = 3) : InGroups width (first :: (middle ++ [last]))

/-- The groups that a rule allows: threes, or twos before the last three digits. -/
def Grouping.Allows : Grouping → List (List Char) → Prop
  | .threes => InGroups 3
  | .threeThenTwos => InGroups 2

theorem Grouping.allows_of_inGroups {grouping : Grouping} {groups : List (List Char)}
    (h : InGroups grouping.nextWidth groups) : grouping.Allows groups := by
  cases grouping <;> exact h

section

variable {grouping : Grouping} {width : Nat} {ds : List Char}

theorem groupDigits_of_le (short : ds.length ≤ width) : groupDigits grouping width ds = [ds] := by
  rw [groupDigits, dif_neg (by omega)]

/-- One turn takes a full group off the end, and leaves some digits. -/
theorem groupDigits_of_lt (grouping : Grouping) (positive : 0 < width) (long : width < ds.length) :
    ∃ front last, front ++ last = ds ∧ front ≠ [] ∧ last.length = width ∧
      groupDigits grouping width ds = groupDigits grouping grouping.nextWidth front ++ [last] := by
  refine ⟨ds.take (ds.length - width), ds.drop (ds.length - width), ?_, ?_, ?_, ?_⟩
  · exact List.take_append_drop _ _
  · refine List.length_pos_iff.1 ?_
    rw [List.length_take]
    omega
  · rw [List.length_drop]
    omega
  · rw [groupDigits, dif_pos ⟨positive, long⟩]

/-- All turns after the first take groups of one width. -/
theorem groupDigits_nextWidth (nonempty : ds ≠ []) : ∃ first middle,
    groupDigits grouping grouping.nextWidth ds = first :: middle ∧ first ≠ [] ∧
      first.length ≤ grouping.nextWidth ∧ ∀ group ∈ middle, group.length = grouping.nextWidth := by
  have positive : 0 < grouping.nextWidth := by cases grouping <;> decide
  -- on the number of digits that are left
  induction length : ds.length using Nat.strongRecOn generalizing ds with
  | ind n ih =>
    subst length
    by_cases short : ds.length ≤ grouping.nextWidth
    · exact ⟨ds, [], groupDigits_of_le short, nonempty, short, nofun⟩
    · obtain ⟨front, last, rfl, left, width, turn⟩ :=
        groupDigits_of_lt grouping positive (Nat.lt_of_not_le short)
      have fewer : front.length < (front ++ last).length := by
        rw [List.length_append]
        omega
      obtain ⟨first, middle, turns, nonempty, fits, full⟩ := ih _ fewer left rfl
      refine ⟨first, middle ++ [last], by rw [turn, turns, List.cons_append], nonempty, fits, ?_⟩
      exact List.forall_mem_append.2 ⟨full, List.forall_mem_singleton.2 width⟩

theorem inGroups_groupDigits (nonempty : ds ≠ []) :
    InGroups grouping.nextWidth (groupDigits grouping 3 ds) := by
  by_cases few : ds.length ≤ 3
  · rw [groupDigits_of_le few]
    exact .whole nonempty few
  · obtain ⟨front, last, rfl, left, three, turn⟩ :=
      groupDigits_of_lt grouping (by decide) (Nat.lt_of_not_le few)
    obtain ⟨first, middle, turns, nonempty, fits, full⟩ := groupDigits_nextWidth left
    rw [turn, turns]
    exact .parts nonempty fits full three

end

namespace LocaleSymbols

theorem length_group : ∀ tag : LanguageTag, (ofTag tag).group.length = 1 :=
  ofTag_of_table (p := fun symbols => symbols.group.length = 1) (by decide)

/-- What a locale puts into the digits of a whole part. Without the separators the digits are as
they were. Below the least number of digits for which the locale has them there are none; from that
number on they stand between the groups that the rule of the locale allows. -/
theorem separators_follow_rule (tag : LanguageTag) {ds : List Char} (nonempty : ds ≠ [])
    (digits : ∀ c ∈ ds, c.isDigit) :
    let symbols := ofTag tag
    (∃ separator, symbols.group = [separator] ∧ separator.isDigit = false) ∧
      (symbols.grouped ds).filter (· ∉ symbols.group) = ds ∧
      (ds.length < symbols.minGroupedDigits → ∀ c ∈ symbols.grouped ds, c ∉ symbols.group) ∧
      (symbols.minGroupedDigits ≤ ds.length → ∃ groups, symbols.grouping.Allows groups ∧
        groups.flatten = ds ∧ symbols.grouped ds = symbols.group.intercalate groups) := by
  intro symbols
  have clear : symbols.Clear := clear_ofTag tag
  have apart := not_mem_group_of_digits clear digits
  obtain ⟨separator, single⟩ := List.length_eq_one_iff.1 (length_group tag)
  refine ⟨⟨separator, single, ?_⟩, filter_grouped clear digits, fun short => ?_, fun long => ?_⟩
  · exact (clear.group separator (single ▸ List.mem_singleton_self separator)).1
  · rwa [LocaleSymbols.grouped, if_pos short]
  · exact ⟨_, Grouping.allows_of_inGroups (inGroups_groupDigits nonempty),
      flatten_groupDigits _ _ ds, if_neg (Nat.not_lt_of_le long)⟩

/-- Seven digits as they are grouped in Hindi. -/
theorem separators_follow_rule_hindi :
    let symbols := ofTag ⟨['h', 'i'], none, none, []⟩
    let ds := "1234567".toList
    ds ≠ [] ∧ (∀ c ∈ ds, c.isDigit) ∧ symbols.minGroupedDigits ≤ ds.length ∧
      (symbols.grouped ds).filter (· ∉ symbols.group) = ds ∧
      ∃ groups, InGroups 2 groups ∧ groups.flatten = ds ∧
        symbols.grouped ds = [','].intercalate groups := by
  intro symbols ds
  have nonempty : ds ≠ [] := by decide
  have digits : ∀ c ∈ ds, c.isDigit := List.all_eq_true.1 (by decide)
  have enough : symbols.minGroupedDigits ≤ ds.length := by decide
  obtain ⟨-, kept, -, separated⟩ :=
    separators_follow_rule ⟨['h', 'i'], none, none, []⟩ nonempty digits
  exact ⟨nonempty, digits, enough, kept, separated enough⟩

end LocaleSymbols

end ScriptBridge
