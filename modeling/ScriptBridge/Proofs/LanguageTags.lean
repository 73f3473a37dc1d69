import ScriptBridge.Locale.Tag

/-!
Which texts are language tags. The grammar of tags is a relation between a list of subtags and the
tag it is; a text is accepted exactly if it is such a list with hyphens between, so the parts that
the parser looks ahead for never overlap. Parsing does not see the case of letters, and the text of
a tag differs from what was parsed in the case of letters only.
-/

namespace ScriptBridge

/-! ### Splitting -/

/-- The splitting of the standard library. -/
theorem splitAtEvery_eq_splitOnP {α : Type} (p : α → Bool) (xs : List α) :
    splitAtEvery p xs = xs.splitOnP p := by
  induction xs with
  | nil => rfl
  | cons x xs ih =>
    rw [splitAtEvery, List.splitOnP_cons_eq_if_modifyHead, ih]
    split
    · rfl
    · cases parts : xs.splitOnP p with
      | nil => exact absurd parts (List.splitOnP_ne_nil p xs)
      | cons part parts => rfl

theorem splitAtEvery_map {α β : Type} {p : α → Bool} {q : β → Bool} {f : α → β}
    (same : ∀ x, q (f x) = p x) (xs : List α) :
    splitAtEvery q (xs.map f) = (splitAtEvery p xs).map (·.map f) := by
  induction xs with
  | nil => rfl
  | cons x xs ih =>
    rw [List.map_cons, splitAtEvery, splitAtEvery, same, ih]
    split
    · rfl
    · cases splitAtEvery p xs <;> rfl

namespace LanguageTag

/-! ### Case -/

theorem isUpper_iff {c : Char} : isUpper c ↔ 65 ≤ c.toNat ∧ c.toNat ≤ 90 := by
  simp only [isUpper, Bool.and_eq_true, decide_eq_true_eq, Char.le_def, UInt32.le_iff_toNat_le]
  exact Iff.rfl

theorem isLower_iff {c : Char} : isLower c ↔ 97 ≤ c.toNat ∧ c.toNat ≤ 122 := by
  simp only [isLower, Bool.and_eq_true, decide_eq_true_eq, Char.le_def, UInt32.le_iff_toNat_le]
  exact Iff.rfl

/-- What holds of the first 128 characters, and of all that have no case, holds of every one. -/
theorem of_ascii {p : Char → Prop} (ascii : ∀ n < 128, p (Char.ofNat n))
    (caseless : ∀ c, lower c = c → upper c = c → c.toLower = c → c.toUpper = c → p c) (c : Char) :
    p c := by
  by_cases small : c.toNat < 128
  · rw [← Char.ofNat_toNat c]
    exact ascii _ small
  · have notUpper : ¬isUpper c := by
      rw [isUpper_iff]
      omega
    have notLower : ¬isLower c := by
      rw [isLower_iff]
      omega
    apply caseless
    case a => exact if_neg notUpper
    case a => exact if_neg notLower
    case a =>
      refine dif_neg fun upper => small ?_
      have top : c.toNat ≤ 90 := UInt32.le_iff_toNat_le.1 upper.2
      omega
    case a =>
      refine dif_neg fun lower => small ?_
      have top : c.toNat ≤ 122 := UInt32.le_iff_toNat_le.1 lower.2
      omega

/-- The case of the standard library. -/
theorem lower_eq : lower = Char.toLower :=
  funext <| of_ascii (by decide) fun _ low _ low' _ => low.trans low'.symm

theorem upper_eq : upper = Char.toUpper :=
  funext <| of_ascii (by decide) fun _ _ up _ up' => up.trans up'.symm

theorem lower_lower : ∀ c, lower (lower c) = lower c :=
  of_ascii (by decide) fun c low _ _ _ => by rw [low, low]

theorem upper_lower : ∀ c, upper (lower c) = upper c :=
  of_ascii (by decide) fun c low _ _ _ => by rw [low]

theorem lower_upper : ∀ c, lower (upper c) = lower c :=
  of_ascii (by decide) fun c _ up _ _ => by rw [up]

theorem isLetter_lower : ∀ c, isLetter (lower c) = isLetter c :=
  of_ascii (by decide) fun c low _ _ _ => by rw [low]

theorem isDigit_lower : ∀ c, (lower c).isDigit = c.isDigit :=
  of_ascii (by decide) fun c low _ _ _ => by rw [low]

theorem lower_eq_hyphen : ∀ c, lower c = '-' ↔ c = '-' :=
  of_ascii (by decide) fun c low _ _ _ => by rw [low]

theorem lower_eq_mark : ∀ c, lower c = 'x' ↔ c = 'x' ∨ c = 'X' := by
  refine of_ascii (by decide) fun c low _ _ _ => ?_
  rw [low, iff_self_or]
  rintro rfl
  cases low

theorem map_lower_lower (s : List Char) : (s.map lower).map lower = s.map lower := by
  rw [List.map_map]
  exact List.map_congr_left fun c _ => lower_lower c

theorem titleCase_lower (s : List Char) : titleCase (s.map lower) = titleCase s := by
  cases s with
  | nil => rfl
  | cons c s => rw [List.map_cons, titleCase, titleCase, upper_lower, map_lower_lower]

theorem map_lower_titleCase (s : List Char) : (titleCase s).map lower = s.map lower := by
  cases s with
  | nil => rfl
  | cons c s => rw [titleCase, List.map_cons, List.map_cons, lower_upper, map_lower_lower]

theorem map_upper_lower (s : List Char) : (s.map lower).map upper = s.map upper := by
  rw [List.map_map]
  exact List.map_congr_left fun c _ => upper_lower c

/-! ### The grammar -/

def Letters (s : List Char) : Prop := ∀ c ∈ s, c.isAlpha

def Digits (s : List Char) : Prop := ∀ c ∈ s, c.isDigit

/-- One to eight letters and digits. -/
def Subtag (s : List Char) : Prop :=
  1 ≤ s.length ∧ s.length ≤ 8 ∧ ∀ c ∈ s, c.isAlpha ∨ c.isDigit

def Language (s : List Char) : Prop :=
  Letters s ∧ (s.length = 2 ∨ s.length = 3 ∨ 5 ≤ s.length ∧ s.length ≤ 8)

def Script (s : List Char) : Prop := s.length = 4 ∧ Letters s

def Region (s : List Char) : Prop := s.length = 2 ∧ Letters s ∨ s.length = 3 ∧ Digits s

/-- Five to eight characters, or a digit and three characters. -/
def Variant (s : List Char) : Prop :=
  5 ≤ s.length ∧ s.length ≤ 8 ∨ ∃ c rest, s = c :: rest ∧ c.isDigit ∧ rest.length = 3

/-- Extensions, each a single character with subtags of more than one, and private use, which has
subtags of any length up to the end. -/
inductive Extensions : List (List Char) → Prop where
  | none : Extensions []
  | privateUse {mark : Char} {rest : List (List Char)} (marks : mark = 'x' ∨ mark = 'X')
    (some : rest ≠ []) : Extensions ([mark] :: rest)
  | extension {mark : Char} {own more : List (List Char)} (marks : ¬(mark = 'x' ∨ mark = 'X'))
    (some : own ≠ []) (long : ∀ s ∈ own, 2 ≤ s.length) (others : Extensions more) :
    Extensions ([mark] :: (own ++ more))

/-- A list of subtags in the order of a language tag, and the tag in canonical case: the script in
title case, the region in upper case and everything else in lower case. -/
inductive Grammar : List (List Char) → LanguageTag → Prop where
  | mk {language : List Char} {script region : Option (List Char)}
    {variants more : List (List Char)} (languages : Language language)
    (scripts : ∀ s ∈ script, Script s) (regions : ∀ s ∈ region, Region s)
    (shapes : ∀ s ∈ variants, Variant s) (distinct : (variants.map (·.map lower)).Nodup)
    (extensions : Extensions more) :
    Grammar (language :: (script.toList ++ (region.toList ++ (variants ++ more))))
      ⟨language.map lower, script.map titleCase, region.map (·.map upper),
        (variants ++ more).map (·.map lower)⟩

/-! ### Shapes -/

theorem isLetter_eq (c : Char) : isLetter c = c.isAlpha := by
  have upper : isUpper c = c.isUpper := (Bool.decide_and _ _).symm
  exact (Bool.or_comm _ _).trans (congrArg (· || isLower c) upper)

theorem isSubtag_iff {s : List Char} : isSubtag s ↔ Subtag s := by
  simp [isSubtag, Subtag, isLetter_eq, ← List.length_pos_iff, Nat.succ_le_iff, and_assoc]

theorem Language.subtag {s : List Char} (h : Language s) : Subtag s := by
  obtain ⟨letters, lengths⟩ := h
  exact ⟨by omega, by omega, fun c m => .inl (letters c m)⟩

theorem isLanguage_iff {s : List Char} : isLanguage s ↔ Language s := by
  simp [isLanguage, Language, Letters, isLetter_eq, or_assoc]

theorem isScript_iff {s : List Char} : isScript s ↔ Script s := by
  simp [isScript, Script, Letters, isLetter_eq]

theorem isRegion_iff {s : List Char} : isRegion s ↔ Region s := by
  simp [isRegion, Region, Letters, Digits, isLetter_eq]

theorem isVariant_iff {s : List Char} : isVariant s ↔ Variant s := by
  simp only [isVariant, Variant, Bool.or_eq_true, Bool.and_eq_true, decide_eq_true_eq, beq_iff_eq]
  refine or_congr_right ?_
  cases s with
  | nil => simp
  | cons c rest =>
    constructor
    · rintro ⟨length, digit⟩
      exact ⟨c, rest, rfl, digit, Nat.succ.inj length⟩
    · rintro ⟨c', rest', same, digit, length⟩
      cases same
      exact ⟨congrArg Nat.succ length, digit⟩

theorem length_of_region {s : List Char} (h : Region s) : s.length = 2 ∨ s.length = 3 :=
  h.imp And.left And.left

theorem length_of_variant {s : List Char} (h : Variant s) : 4 ≤ s.length := by
  obtain long | ⟨c, rest, rfl, -, length⟩ := h
  · omega
  · exact Nat.le_of_eq (congrArg Nat.succ length).symm

/-- A variant of four characters starts with a digit, a script has letters only. -/
theorem not_script_of_variant {s : List Char} (h : Variant s) : ¬Script s := by
  rintro ⟨length, letters⟩
  obtain long | ⟨c, rest, rfl, digit, -⟩ := h
  · omega
  · have letter := letters c List.mem_cons_self
    have low := (Char.isDigit_iff_toNat.1 digit).2
    change c.toNat ≤ 57 at low
    rw [← isLetter_eq, isLetter, Bool.or_eq_true, isLower_iff, isUpper_iff] at letter
    omega

/-! ### What the parser takes -/

theorem takeIf_eq_iff {shape : List Char → Bool} {l rest : List (List Char)}
    {first : Option (List Char)} :
    takeIf shape l = (first, rest) ↔ l = first.toList ++ rest ∧ (∀ s ∈ first, shape s) ∧
      (first = none → ∀ s ∈ rest.head?, ¬shape s) := by
  constructor
  · intro h
    cases l with
    | nil =>
      cases h
      exact ⟨rfl, nofun, fun _ => nofun⟩
    | cons s l =>
      rw [takeIf] at h
      split at h
      case isTrue shaped =>
        cases h
        refine ⟨rfl, ?_, nofun⟩
        rintro _ ⟨⟩
        exact shaped
      case isFalse unshaped =>
        cases h
        refine ⟨rfl, nofun, fun _ => ?_⟩
        rintro _ ⟨⟩
        exact unshaped
  · rintro ⟨rfl, shaped, unshaped⟩
    cases first with
    | some s => exact if_pos (shaped s rfl)
    | none =>
      cases rest with
      | nil => rfl
      | cons s rest => exact if_neg (unshaped rfl s rfl)

/-- Variants in front are taken up to the first subtag that is none, when no two are alike. -/
theorem takeVariants_append {own rest seen : List (List Char)} (shapes : ∀ s ∈ own, Variant s)
    (ends : ∀ s ∈ rest.head?, ¬Variant s) (distinct : (seen ++ own.map (·.map lower)).Nodup) :
    takeVariants seen (own ++ rest) = some (seen ++ own.map (·.map lower), rest) := by
  induction own generalizing seen with
  | nil =>
    rw [List.map_nil, List.append_nil, List.nil_append]
    cases rest with
    | nil => rfl
    | cons s rest =>
      rw [takeVariants, if_neg (mt isVariant_iff.1 (ends s rfl))]
  | cons s own ih =>
    rw [List.map_cons, ← List.singleton_append, ← List.append_assoc] at distinct
    have fresh : s.map lower ∉ seen := fun repeated =>
      (List.nodup_append.1 (List.nodup_append.1 distinct).1).2.2 _ repeated _
        List.mem_cons_self rfl
    rw [List.cons_append, takeVariants, if_pos (isVariant_iff.2 (shapes s List.mem_cons_self))]
    rw [List.map_cons, ← List.singleton_append, ← List.append_assoc]
    exact (if_neg fresh).trans (ih (fun s' m => shapes s' (List.mem_cons_of_mem _ m)) distinct)

/-- Whatever is taken as variants is variants, no two alike, up to a subtag that is none. -/
theorem takeVariants_eq_some {l rest seen variants : List (List Char)}
    (h : takeVariants seen l = some (variants, rest)) (distinct : seen.Nodup) :
    ∃ own, l = own ++ rest ∧ (∀ s ∈ own, Variant s) ∧ (∀ s ∈ rest.head?, ¬Variant s) ∧
      variants = seen ++ own.map (·.map lower) ∧ variants.Nodup := by
  induction l generalizing seen with
  | nil =>
    cases h
    exact ⟨[], rfl, nofun, nofun, (List.append_nil _).symm, distinct⟩
  | cons s l ih =>
    rw [takeVariants] at h
    split at h
    case isTrue variant =>
      dsimp only at h
      split at h
      case isTrue => cases h
      case isFalse fresh =>
        have distinct' : (seen ++ [s.map lower]).Nodup := by
          refine List.nodup_append.2 ⟨distinct, List.pairwise_singleton _ _, ?_⟩
          rintro a m b m' rfl
          exact fresh (List.mem_singleton.1 m' ▸ m)
        obtain ⟨own, rfl, shapes, ends, taken, nodup⟩ := ih h distinct'
        refine ⟨s :: own, rfl, ?_, ends, ?_, nodup⟩
        · exact List.forall_mem_cons.2 ⟨isVariant_iff.1 variant, shapes⟩
        · rw [taken, List.append_assoc]
          rfl
    case isFalse other =>
      cases h
      refine ⟨[], rfl, nofun, ?_, (List.append_nil _).symm, distinct⟩
      rintro _ ⟨⟩
      exact mt isVariant_iff.2 other

theorem Extensions.length_head {l : List (List Char)} (h : Extensions l) :
    ∀ s ∈ l.head?, s.length = 1 := by
  cases h with
  | none => nofun
  | privateUse | extension =>
    rintro _ ⟨⟩
    rfl

theorem map_lower_eq_mark {mark : Char} : [mark].map lower = ['x'] ↔ mark = 'x' ∨ mark = 'X' := by
  rw [← lower_eq_mark, List.map_singleton, List.singleton_inj]

theorem extensions?_of_extensions {l : List (List Char)} (h : Extensions l) :
    extensions? l = some (l.map (·.map lower)) := by
  induction h with
  | none => rw [extensions?, List.map_nil]
  | @privateUse mark rest marks some =>
    rw [extensions?, if_neg (fun long => long rfl), if_pos (map_lower_eq_mark.2 marks),
      if_neg (mt List.isEmpty_iff.1 some), List.map_cons, map_lower_eq_mark.2 marks]
  | @extension mark own more marks some long others ih =>
    have all : ∀ s ∈ own, decide (s.length ≠ 1) = true := fun s m =>
      decide_eq_true (Nat.ne_of_gt (long s m))
    have taken : more.takeWhile (·.length ≠ 1) = [] ∧ more.dropWhile (·.length ≠ 1) = more := by
      cases more with
      | nil => exact ⟨rfl, rfl⟩
      | cons s more =>
        have stops : ¬decide (s.length ≠ 1) = true := by
          simp [others.length_head s rfl]
        exact ⟨List.takeWhile_cons_of_neg stops, List.dropWhile_cons_of_neg stops⟩
    rw [extensions?, if_neg (fun long => long rfl), if_neg (mt map_lower_eq_mark.1 marks)]
    rw [List.takeWhile_append_of_pos all, List.dropWhile_append_of_pos all, taken.1, taken.2]
    rw [List.append_nil, if_neg (mt List.isEmpty_iff.1 some), ih]
    simp

theorem extensions_of_extensions? {l read : List (List Char)} (h : extensions? l = some read)
    (subtags : ∀ s ∈ l, s ≠ []) : Extensions l := by
  induction l using extensions?.induct generalizing read
  case case1 => exact .none
  case case2 singleton rest long =>
    rw [extensions?, if_pos long] at h
    cases h
  case case3 singleton rest single marks empty =>
    simp only [List.map_subtype, List.unattach_attach] at marks
    rw [extensions?, if_neg single, if_pos marks, if_pos empty] at h
    cases h
  case case4 singleton rest single marks some =>
    simp only [List.map_subtype, List.unattach_attach] at marks
    obtain ⟨mark, rfl⟩ := List.length_eq_one_iff.1 (Decidable.not_not.1 single)
    exact .privateUse (map_lower_eq_mark.1 marks) (mt List.isEmpty_iff.2 some)
  case case5 singleton rest single marks own empty =>
    simp only [List.map_subtype, List.unattach_attach] at marks
    rw [extensions?, if_neg single, if_neg marks] at h
    cases (if_pos empty).symm.trans h
  case case6 singleton rest single marks own some ih =>
    simp only [List.map_subtype, List.unattach_attach] at marks
    rw [extensions?, if_neg single, if_neg marks] at h
    obtain ⟨others, read', -⟩ := Option.map_eq_some_iff.1 ((if_neg some).symm.trans h)
    obtain ⟨mark, rfl⟩ := List.length_eq_one_iff.1 (Decidable.not_not.1 single)
    have cut : own ++ rest.dropWhile (·.length ≠ 1) = rest := List.takeWhile_append_dropWhile
    rw [← cut] at subtags ⊢
    refine .extension (mt map_lower_eq_mark.2 marks) (mt List.isEmpty_iff.2 some) ?_ ?_
    · intro s m
      have long : s.length ≠ 1 := of_decide_eq_true (List.all_eq_true.1 List.all_takeWhile s m)
      have nonempty := List.length_pos_iff.2
        (subtags s (List.mem_cons_of_mem _ (List.mem_append_left _ m)))
      omega
    · exact ih read' fun s m => subtags s (List.mem_cons_of_mem _ (List.mem_append_right _ m))

theorem forall_head?_append {α : Type} {p : α → Prop} {xs ys : List α} (front : ∀ x ∈ xs, p x)
    (back : ∀ y ∈ ys.head?, p y) : ∀ x ∈ (xs ++ ys).head?, p x := by
  cases xs with
  | nil => exact back
  | cons x xs =>
    rintro _ ⟨⟩
    exact front x List.mem_cons_self

/-- No part can be taken for an earlier one that is left out. -/
theorem ofSubtags?_of_grammar {l : List (List Char)} {t : LanguageTag}
    (subtags : ∀ s ∈ l, Subtag s) (h : Grammar l t) : ofSubtags? l = some t := by
  rw [ofSubtags?, if_pos (List.all_eq_true.2 fun s m => isSubtag_iff.2 (subtags s m))]
  obtain @⟨language, script, region, variants, more, languages, scripts, regions, shapes, distinct,
    extensions⟩ := h
  have single := extensions.length_head
  have noVariant : ∀ s ∈ more.head?, ¬Variant s := fun s m variant => by
    have := length_of_variant variant
    rw [single s m] at this
    omega
  have noRegion : ∀ s ∈ (variants ++ more).head?, ¬Region s := by
    refine forall_head?_append ?_ ?_
    · intro s m region
      have := length_of_region region
      have := length_of_variant (shapes s m)
      omega
    · intro s m region
      have := length_of_region region
      rw [single s m] at this
      omega
  have noScript : ∀ s ∈ (region.toList ++ (variants ++ more)).head?, ¬Script s := by
    refine forall_head?_append ?_ (forall_head?_append ?_ ?_)
    · intro s m script
      have := length_of_region (regions s (Option.mem_toList.1 m))
      rw [script.1] at this
      omega
    · exact fun s m => not_script_of_variant (shapes s m)
    · intro s m script
      have := (single s m).symm.trans script.1
      omega
  have takesScript := takeIf_eq_iff.2 ⟨rfl, fun s m => isScript_iff.2 (scripts s m),
    fun _ s m => mt isScript_iff.1 (noScript s m)⟩
  have takesRegion := takeIf_eq_iff.2 ⟨rfl, fun s m => isRegion_iff.2 (regions s m),
    fun _ s m => mt isRegion_iff.1 (noRegion s m)⟩
  have takesVariants :
      takeVariants [] (variants ++ more) = some ([] ++ variants.map (·.map lower), more) :=
    takeVariants_append shapes noVariant distinct
  rw [takeIf, if_pos (isLanguage_iff.2 languages)]
  dsimp only
  rw [takesScript]
  dsimp only
  rw [takesRegion]
  dsimp only
  rw [takesVariants]
  dsimp only
  rw [extensions?_of_extensions extensions, Option.map_some, List.map_append, List.nil_append]

theorem grammar_of_ofSubtags? {l : List (List Char)} {t : LanguageTag}
    (h : ofSubtags? l = some t) : (∀ s ∈ l, Subtag s) ∧ Grammar l t := by
  rw [ofSubtags?] at h
  split at h
  case isFalse => cases h
  case isTrue all =>
    have subtags : ∀ s ∈ l, Subtag s := fun s m => isSubtag_iff.1 (List.all_eq_true.1 all s m)
    refine ⟨subtags, ?_⟩
    obtain ⟨⟨_ | language, rest⟩, takesLanguage⟩ : ∃ taken, takeIf isLanguage l = taken := ⟨_, rfl⟩
    case none =>
      rw [takesLanguage] at h
      cases h
    case some =>
      obtain ⟨⟨script, rest'⟩, takesScript⟩ : ∃ taken, takeIf isScript rest = taken := ⟨_, rfl⟩
      obtain ⟨⟨region, rest''⟩, takesRegion⟩ : ∃ taken, takeIf isRegion rest' = taken := ⟨_, rfl⟩
      simp only [takesLanguage, takesScript, takesRegion] at h
      split at h
      case h_1 => cases h
      case h_2 variants more takesVariants =>
        obtain ⟨read, reads, rfl⟩ := Option.map_eq_some_iff.1 h
        obtain ⟨rfl, languages, -⟩ := takeIf_eq_iff.1 takesLanguage
        obtain ⟨rfl, scripts, -⟩ := takeIf_eq_iff.1 takesScript
        obtain ⟨rfl, regions, -⟩ := takeIf_eq_iff.1 takesRegion
        obtain ⟨own, rfl, shapes, -, rfl, distinct⟩ :=
          takeVariants_eq_some takesVariants List.nodup_nil
        have extensions := extensions_of_extensions? reads fun s m =>
          List.length_pos_iff.1 (subtags s (by simp [m])).1
        have lowered := (extensions?_of_extensions extensions).symm.trans reads
        cases lowered
        rw [List.nil_append] at distinct ⊢
        rw [← List.map_append]
        exact .mk (isLanguage_iff.1 (languages _ rfl)) (fun s m => isScript_iff.1 (scripts s m))
          (fun s m => isRegion_iff.1 (regions s m)) shapes distinct extensions

/-! ### Parsing without case -/

theorem all_map_lower {p : Char → Bool} (same : ∀ c, p (lower c) = p c) (s : List Char) :
    (s.map lower).all p = s.all p := by
  rw [List.all_map]
  exact congrArg (List.all s) (funext same)

theorem isSubtag_map_lower (s : List Char) : isSubtag (s.map lower) = isSubtag s := by
  rw [isSubtag, isSubtag, List.isEmpty_map, List.length_map]
  rw [all_map_lower fun c => by rw [isLetter_lower, isDigit_lower]]

theorem isLanguage_map_lower (s : List Char) : isLanguage (s.map lower) = isLanguage s := by
  rw [isLanguage, isLanguage, all_map_lower isLetter_lower, List.length_map]

theorem isScript_map_lower (s : List Char) : isScript (s.map lower) = isScript s := by
  rw [isScript, isScript, all_map_lower isLetter_lower, List.length_map]

theorem isRegion_map_lower (s : List Char) : isRegion (s.map lower) = isRegion s := by
  rw [isRegion, isRegion, all_map_lower isLetter_lower, all_map_lower isDigit_lower,
    List.length_map]

theorem isVariant_map_lower (s : List Char) : isVariant (s.map lower) = isVariant s := by
  rw [isVariant.eq_def, isVariant.eq_def, List.length_map]
  cases s with
  | nil => rfl
  | cons c s => simp only [List.map_cons, isDigit_lower]

theorem takeIf_map_lower {shape : List Char → Bool} (same : ∀ s, shape (s.map lower) = shape s)
    (l : List (List Char)) : takeIf shape (l.map (·.map lower)) =
      (takeIf shape l).map (·.map (·.map lower)) (·.map (·.map lower)) := by
  cases l with
  | nil => rfl
  | cons s l =>
    rw [List.map_cons, takeIf, takeIf, same]
    split <;> rfl

theorem takeVariants_map_lower (seen l : List (List Char)) :
    takeVariants seen (l.map (·.map lower)) =
      (takeVariants seen l).map fun (variants, rest) => (variants, rest.map (·.map lower)) := by
  induction l generalizing seen with
  | nil => rfl
  | cons s l ih =>
    rw [List.map_cons, takeVariants, takeVariants, isVariant_map_lower, map_lower_lower]
    dsimp only
    rw [ih]
    split
    · split <;> rfl
    · rfl

theorem extensions?_map_lower (l : List (List Char)) :
    extensions? (l.map (·.map lower)) = extensions? l := by
  induction h : l.length using Nat.strongRecOn generalizing l with
  | ind n ih =>
    cases l with
    | nil => rfl
    | cons singleton rest =>
      have shorter := (List.dropWhile_suffix (l := rest) (fun s => decide (s.length ≠ 1))).length_le
      rw [List.length_cons] at h
      have others := ih _ (by omega) (rest.dropWhile (·.length ≠ 1)) rfl
      have same : (fun s : List Char => decide (s.length ≠ 1)) ∘ List.map lower =
          fun s => decide (s.length ≠ 1) := funext fun s => by simp
      rw [List.map_cons, extensions?, extensions?]
      simp only [List.length_map, List.isEmpty_map, List.takeWhile_map, List.dropWhile_map, same,
        others, List.map_map, Function.comp_def, lower_lower]

theorem ofSubtags?_map_lower (l : List (List Char)) :
    ofSubtags? (l.map (·.map lower)) = ofSubtags? l := by
  have subtags : (l.map (·.map lower)).all isSubtag = l.all isSubtag := by
    rw [List.all_map]
    exact congrArg (List.all l) (funext isSubtag_map_lower)
  rw [ofSubtags?, ofSubtags?, subtags, takeIf_map_lower isLanguage_map_lower]
  obtain ⟨_ | language, rest⟩ := takeIf isLanguage l
  case none => rfl
  case some =>
    dsimp only [Prod.map, Option.map_some]
    rw [takeIf_map_lower isScript_map_lower]
    obtain ⟨script, rest⟩ := takeIf isScript rest
    dsimp only [Prod.map]
    rw [takeIf_map_lower isRegion_map_lower]
    obtain ⟨region, rest⟩ := takeIf isRegion rest
    dsimp only [Prod.map]
    rw [takeVariants_map_lower, Option.map_map, Option.map_map, map_lower_lower]
    have scripts : (titleCase ∘ fun s => s.map lower) = titleCase := funext titleCase_lower
    have regions : (List.map upper ∘ List.map lower) = List.map upper := funext map_upper_lower
    rw [scripts, regions]
    cases takeVariants [] rest with
    | none => rfl
    | some taken =>
      dsimp only [Option.map_some]
      rw [extensions?_map_lower]

theorem ofText?_map_lower (text : List Char) : ofText? (text.map lower) = ofText? text := by
  have same : ∀ c, (lower c == '-') = (c == '-') := fun c =>
    Bool.eq_iff_iff.2 (by rw [beq_iff_eq, beq_iff_eq, lower_eq_hyphen])
  rw [ofText?, ofText?, splitAtEvery_map same, ofSubtags?_map_lower]

/-! ### Texts -/

theorem hyphen_not_mem_of_subtag {s : List Char} (h : Subtag s) : '-' ∉ s := fun m => by
  cases (h.2.2 _ m).elim (fun letter => letter) fun digit => digit

theorem ofText?_eq_some_iff {text : List Char} {t : LanguageTag} :
    ofText? text = some t ↔
      ∃ subtags, text = ['-'].intercalate subtags ∧ (∀ s ∈ subtags, Subtag s) ∧
        Grammar subtags t := by
  have split : splitAtEvery (· == '-') = List.splitOn '-' := funext (splitAtEvery_eq_splitOnP _)
  rw [ofText?, split]
  constructor
  · intro h
    exact ⟨_, (List.intercalate_splitOn '-').symm, grammar_of_ofSubtags? h⟩
  · rintro ⟨subtags, rfl, shapes, grammar⟩
    have nonempty : subtags ≠ [] := by
      rintro rfl
      cases grammar
    rw [List.splitOn_intercalate '-' (fun s m => hyphen_not_mem_of_subtag (shapes s m)) nonempty]
    exact ofSubtags?_of_grammar shapes grammar

theorem map_intercalate {α β : Type} (f : α → β) (sep : List α) (parts : List (List α)) :
    (sep.intercalate parts).map f = (sep.map f).intercalate (parts.map (·.map f)) := by
  induction parts with
  | nil => rfl
  | cons part parts ih =>
    cases parts with
    | nil => simp
    | cons part' parts =>
      rw [List.intercalate_cons_cons, List.map_append, List.map_append, ih]
      exact List.intercalate_cons_cons.symm

theorem Grammar.map_lower_subtags {l : List (List Char)} {t : LanguageTag} (h : Grammar l t) :
    t.subtags.map (·.map lower) = l.map (·.map lower) := by
  cases h with
  | @mk language script region variants more =>
    have scripts : (script.map titleCase).toList.map (·.map lower) =
        script.toList.map (·.map lower) := by
      cases script <;> simp [map_lower_titleCase]
    have regions : (region.map (·.map upper)).toList.map (·.map lower) =
        region.toList.map (·.map lower) := by
      cases region <;> simp [lower_upper]
    simp [subtags, scripts, regions, lower_lower, Function.comp_def]

/-- The text of a tag is what was parsed, in other case. -/
theorem map_lower_text {s : List Char} {t : LanguageTag} (h : ofText? s = some t) :
    t.text.map lower = s.map lower := by
  obtain ⟨subtags, rfl, -, grammar⟩ := ofText?_eq_some_iff.1 h
  rw [text, map_intercalate, map_intercalate, grammar.map_lower_subtags]

theorem ofText?_text {s : List Char} {t : LanguageTag} (h : ofText? s = some t) :
    ofText? t.text = some t := by
  rw [← ofText?_map_lower, map_lower_text h, ofText?_map_lower, h]

theorem parse_eq_ok_iff {s : String} {t : LanguageTag} :
    parse s = .ok t ↔ ofText? s.toList = some t := by
  rw [parse]
  cases ofText? s.toList <;> simp

/-- A language alone is a tag. -/
theorem parse_language {language : List Char} (shape : Language language) :
    parse (String.ofList language) = .ok ⟨language.map lower, none, none, []⟩ := by
  have tag : Grammar (language :: ((none : Option (List Char)).toList ++
      ((none : Option (List Char)).toList ++ ([] ++ [])))) ⟨language.map lower, none, none, []⟩ :=
    .mk shape nofun nofun nofun List.nodup_nil .none
  have subtag : ∀ s ∈ [language], Subtag s := by
    intro s m
    cases List.mem_singleton.1 m
    exact shape.subtag
  exact parse_eq_ok_iff.2 (ofText?_eq_some_iff.2 ⟨_, by simp, subtag, tag⟩)

theorem toOption_parse (s : String) : (parse s).toOption = ofText? s.toList := by
  rw [parse]
  cases ofText? s.toList <;> rfl

/-- A text is accepted as a tag exactly if it is subtags in the order of the grammar with hyphens
between. The text of the tag is the text that was parsed but for the case of letters, and is parsed
as that tag again; texts that differ in case only are the same tag, or none. -/
theorem language_tags_parse (s : String) :
    (∀ t, parse s = .ok t ↔ ∃ subtags : List (List Char), s.toList = ['-'].intercalate subtags ∧
      (∀ x ∈ subtags, Subtag x) ∧ Grammar subtags t) ∧
    (∀ t, parse s = .ok t → t.text.map Char.toLower = s.toList.map Char.toLower ∧
      parse (String.ofList t.text) = .ok t) ∧
    ∀ s' : String, s'.toList.map Char.toLower = s.toList.map Char.toLower →
      (parse s').toOption = (parse s).toOption := by
  refine ⟨fun t => parse_eq_ok_iff.trans ofText?_eq_some_iff, ?_, ?_⟩
  · intro t accepted
    have tag := parse_eq_ok_iff.1 accepted
    refine ⟨?_, parse_eq_ok_iff.2 ?_⟩
    · rw [← lower_eq, map_lower_text tag]
    · rw [String.toList_ofList, ofText?_text tag]
  · intro s' alike
    rw [← lower_eq] at alike
    rw [toOption_parse, toOption_parse, ← ofText?_map_lower, alike, ofText?_map_lower]

/-- A variant, an extension and private use after a region. -/
theorem language_tags_parse_extended :
    let tag : LanguageTag := ⟨['d', 'e'], none, some ['D', 'E'],
      [['1', '9', '9', '6'], ['u'], ['c', 'o'], ['x'], ['a']]⟩
    parse "DE-de-1996-U-co-x-A" = .ok tag ∧
      parse (String.ofList tag.text) = .ok tag ∧
      (parse "de-DE-1996-u-CO-X-a").toOption = some tag := by
  intro tag
  have extensions : Extensions (['U'] :: ([['c', 'o']] ++ [['x'], ['A']])) :=
    .extension (by decide) (by decide) (by decide) (.privateUse (.inl rfl) (by decide))
  have years : ∀ s ∈ [['1', '9', '9', '6']], Variant s := by
    intro s m
    cases List.mem_singleton.1 m
    exact .inr ⟨'1', ['9', '9', '6'], rfl, rfl, rfl⟩
  have germany : ∀ s ∈ some ['d', 'e'], Region s := by
    rintro _ ⟨⟩
    exact .inl ⟨rfl, List.all_eq_true.1 rfl⟩
  have grammar : Grammar (['D', 'E'] :: ((none : Option (List Char)).toList ++
      ((some ['d', 'e']).toList ++ ([['1', '9', '9', '6']] ++ [['U'], ['c', 'o'], ['x'], ['A']]))))
      tag :=
    .mk ⟨List.all_eq_true.1 rfl, .inl rfl⟩ nofun germany years (by decide) extensions
  obtain ⟨accepts, again, caseless⟩ := language_tags_parse "DE-de-1996-U-co-x-A"
  have shapes : ∀ s ∈ [['D', 'E'], ['d', 'e'], ['1', '9', '9', '6'], ['U'], ['c', 'o'], ['x'],
      ['A']], Subtag s := fun s m => isSubtag_iff.1 (List.all_eq_true.1 (by decide) s m)
  have accepted := (accepts tag).2 ⟨_, by decide, shapes, grammar⟩
  refine ⟨accepted, (again tag accepted).2, ?_⟩
  rw [caseless _ (by decide), accepted]
  rfl

end LanguageTag
end ScriptBridge
