import ScriptBridge.Error
import ScriptBridge.Proofs.LanguageTags
import ScriptBridge.Proofs.NumericTexts

/-!
The frames of a stack. What a text's lines are is a relation between the two, and so is what
trimming leaves of lines. The first frame and the others are what is left of the lines of the stack,
each once and in their order, and written one a line they split into the same frames again.
-/

namespace ScriptBridge

open Number (Trims)

/-! ### Lines -/

/-- A text and its lines. A line feed ends a line, or a carriage return with a line feed after it;
the last line may end with the text, if anything is on it. -/
inductive Lines : List Char → List (List Char) → Prop where
  | nil : Lines [] []
  | last {line : List Char} (nonempty : line ≠ []) (single : '\n' ∉ line) : Lines line [line]
  | feed {line text : List Char} {lines : List (List Char)} (single : '\n' ∉ line)
    (bare : line.getLast? ≠ some '\r') (rest : Lines text lines) :
    Lines (line ++ '\n' :: text) (line :: lines)
  | returned {line text : List Char} {lines : List (List Char)} (single : '\n' ∉ line)
    (rest : Lines text lines) : Lines (line ++ '\r' :: '\n' :: text) (line :: lines)

section

variable {line : List Char} (single : '\n' ∉ line)

include single

theorem textLines_of_single (nonempty : line ≠ []) : textLines line = [line] := by
  have whole : splitAtEvery (· == '\n') line = [line] := by
    rw [splitAtEvery_eq_splitOnP]
    exact List.splitOn_eq_singleton single
  rw [textLines, whole]
  cases line with
  | nil => exact absurd rfl nonempty
  | cons c line => rfl

theorem textLines_append (text : List Char) :
    textLines (line ++ '\n' :: text) = dropReturn line :: textLines text := by
  have plain : ∀ c ∈ line, (c == '\n') = false := fun c mem =>
    beq_eq_false_iff_ne.2 fun same => single (same ▸ mem)
  have first : splitAtEvery (· == '\n') (line ++ '\n' :: text) =
      line :: splitAtEvery (· == '\n') text := by
    rw [splitAtEvery_eq_splitOnP, splitAtEvery_eq_splitOnP]
    exact List.splitOnP_append_cons_of_forall_mem plain '\n' rfl text
  have parts : splitAtEvery (· == '\n') text ≠ [] := by
    rw [splitAtEvery_eq_splitOnP]
    exact List.splitOnP_ne_nil _ _
  obtain ⟨part, parts, split⟩ := List.exists_cons_of_ne_nil parts
  rw [textLines, textLines, first, split, List.dropLast_cons_cons, List.getLast?_cons_cons]
  split <;> rfl

end

theorem dropReturn_of_bare {line : List Char} (bare : line.getLast? ≠ some '\r') :
    dropReturn line = line := if_neg bare

theorem dropReturn_append (line : List Char) : dropReturn (line ++ ['\r']) = line := by
  rw [dropReturn, if_pos List.getLast?_concat, List.dropLast_concat]

/-- A text has its lines and no others. -/
theorem textLines_eq_iff {text : List Char} {lines : List (List Char)} :
    textLines text = lines ↔ Lines text lines := by
  constructor
  case mpr =>
    intro h
    induction h with
    | nil => rfl
    | last nonempty single => exact textLines_of_single single nonempty
    | feed single bare _ ih => rw [textLines_append single, dropReturn_of_bare bare, ih]
    | @returned line text lines single _ ih =>
      have single' : '\n' ∉ line ++ ['\r'] := by simp [single]
      have lines := textLines_append single' text
      rw [dropReturn_append, ih, List.append_assoc] at lines
      exact lines
  case mp =>
    rintro rfl
    -- on the length of the text, a line at a time
    induction length : text.length using Nat.strongRecOn generalizing text with
    | ind n ih =>
      subst length
      by_cases feeds : '\n' ∈ text
      · obtain ⟨line, rest, rfl, single⟩ := List.eq_append_cons_of_mem feeds
        have others : Lines rest (textLines rest) := ih _ (by simp; omega) rfl
        rw [textLines_append single]
        by_cases returns : line.getLast? = some '\r'
        · obtain ⟨body, rfl⟩ := List.getLast?_eq_some_iff.1 returns
          rw [dropReturn_append, List.append_assoc]
          exact .returned (fun mem => single (List.mem_append_left _ mem)) others
        · rw [dropReturn_of_bare returns]
          exact .feed single returns others
      · by_cases empty : text = []
        · subst empty
          exact .nil
        · rw [textLines_of_single feeds empty]
          exact .last empty feeds

/-- Lines that no carriage return ends are those of the text in which line feeds separate them. -/
theorem lines_intercalate {lines : List (List Char)}
    (each : ∀ line ∈ lines, line ≠ [] ∧ '\n' ∉ line ∧ line.getLast? ≠ some '\r') :
    Lines (['\n'].intercalate lines) lines := by
  induction lines with
  | nil => exact .nil
  | cons line lines ih =>
    obtain ⟨⟨nonempty, single, bare⟩, others⟩ := List.forall_mem_cons.1 each
    cases lines with
    | nil =>
      rw [List.intercalate_singleton]
      exact .last nonempty single
    | cons line' lines =>
      rw [List.intercalate_cons_cons, List.append_assoc]
      exact .feed single bare (ih others)

/-! ### Frames -/

/-- Trimming leaves nothing of a line exactly if the line is blank. -/
theorem Number.Trims.eq_nil_iff {line body : List Char} (h : Trims line body) :
    body = [] ↔ ∀ c ∈ line, isBlank c := by
  obtain ⟨⟨front, back, split, blank⟩, start, -⟩ := h
  constructor
  · rintro rfl c mem
    rw [List.nil_append] at split
    exact blank c (split ▸ mem)
  · intro all
    cases body with
    | nil => rfl
    | cons c body =>
      have inside : isBlank c := all c (by rw [split]; simp)
      rw [start c rfl] at inside
      cases inside

/-- What neither starts nor ends with white space stays as it is. -/
theorem trimBlank_of_solid {body : List Char} (start : ∀ c ∈ body.head?, isBlank c = false)
    (last : ∀ c ∈ body.getLast?, isBlank c = false) : trimBlank body = body := by
  have keeps {cs : List Char} (start : ∀ c ∈ cs.head?, isBlank c = false) :
      cs.dropWhile isBlank = cs := by
    cases cs with
    | nil => rfl
    | cons c cs => rw [List.dropWhile_cons_of_neg (by simp [start c rfl])]
  rw [trimBlank, keeps start, dropTailWhile, keeps (by rwa [List.head?_reverse]),
    List.reverse_reverse]

/-- What is left of lines when each is trimmed and the blank ones are left out. -/
inductive FramesOf : List (List Char) → List (List Char) → Prop where
  | nil : FramesOf [] []
  | blank {line : List Char} {lines frames : List (List Char)} (blank : ∀ c ∈ line, isBlank c)
    (rest : FramesOf lines frames) : FramesOf (line :: lines) frames
  | frame {line frame : List Char} {lines frames : List (List Char)} (trims : Trims line frame)
    (nonempty : frame ≠ []) (rest : FramesOf lines frames) :
    FramesOf (line :: lines) (frame :: frames)

theorem framesOf_lines (lines : List (List Char)) :
    FramesOf lines ((lines.map trimBlank).filter (!·.isEmpty)) := by
  induction lines with
  | nil => exact .nil
  | cons line lines ih =>
    rw [List.map_cons]
    by_cases empty : trimBlank line = []
    · rw [List.filter_cons_of_neg (by simp [empty])]
      exact .blank ((Number.trims_trimBlank line).eq_nil_iff.1 empty) ih
    · rw [List.filter_cons_of_pos (by simp [empty])]
      exact .frame (Number.trims_trimBlank line) empty ih

theorem Lines.single {text line : List Char} {lines : List (List Char)} (h : Lines text lines)
    (mem : line ∈ lines) : '\n' ∉ line := by
  induction h with
  | nil => cases mem
  | last _ single =>
    cases List.mem_singleton.1 mem
    exact single
  | feed single _ _ ih =>
    obtain rfl | mem := List.mem_cons.1 mem
    · exact single
    · exact ih mem
  | returned single _ ih =>
    obtain rfl | mem := List.mem_cons.1 mem
    · exact single
    · exact ih mem

namespace FramesOf

variable {lines frames : List (List Char)} (h : FramesOf lines frames)

include h

theorem trims {frame : List Char} (mem : frame ∈ frames) :
    frame ≠ [] ∧ ∃ line ∈ lines, Trims line frame := by
  induction h with
  | nil => cases mem
  | blank _ _ ih =>
    obtain ⟨nonempty, line, inside, trims⟩ := ih mem
    exact ⟨nonempty, line, List.mem_cons_of_mem _ inside, trims⟩
  | @frame line _ _ _ trims nonempty _ ih =>
    obtain rfl | mem := List.mem_cons.1 mem
    · exact ⟨nonempty, line, List.mem_cons_self, trims⟩
    · obtain ⟨nonempty, line, inside, trims⟩ := ih mem
      exact ⟨nonempty, line, List.mem_cons_of_mem _ inside, trims⟩

/-- There is a frame for every line that is not blank. -/
theorem length : frames.length = (lines.filter fun line => !line.all isBlank).length := by
  induction h with
  | nil => rfl
  | blank blank _ ih => rwa [List.filter_cons_of_neg (by simpa using blank)]
  | frame trims nonempty _ ih =>
    have solid := mt trims.eq_nil_iff.2 nonempty
    rw [List.filter_cons_of_pos (by simpa using solid), List.length_cons, List.length_cons, ih]

theorem eq_nil_iff : frames = [] ↔ ∀ line ∈ lines, ∀ c ∈ line, isBlank c := by
  rw [← List.length_eq_zero_iff, h.length, List.length_eq_zero_iff, List.filter_eq_nil_iff]
  simp

/-- Frames are trimmed lines, so they are lines of their own. -/
theorem solid (single : ∀ line ∈ lines, '\n' ∉ line) {frame : List Char} (mem : frame ∈ frames) :
    frame ≠ [] ∧ '\n' ∉ frame ∧ frame.getLast? ≠ some '\r' := by
  obtain ⟨nonempty, line, inside, ⟨front, back, split, -⟩, start, last⟩ := h.trims mem
  refine ⟨nonempty, fun feeds => single line inside ?_, fun returns => ?_⟩
  · rw [split]
    exact List.mem_append_right _ (List.mem_append_left _ feeds)
  · cases last '\r' returns

/-- Frames written one a line have themselves as frames. -/
theorem framesOf_intercalate (single : ∀ line ∈ lines, '\n' ∉ line) :
    ScriptException.framesOf (['\n'].intercalate frames) = frames := by
  have own : textLines (['\n'].intercalate frames) = frames :=
    textLines_eq_iff.2 (lines_intercalate fun frame mem => h.solid single mem)
  have trimmed : frames.map trimBlank = frames := by
    refine List.map_congr_left (fun frame mem => ?_) |>.trans (List.map_id frames)
    obtain ⟨-, line, -, -, start, last⟩ := h.trims mem
    exact trimBlank_of_solid start last
  rw [ScriptException.framesOf, own, trimmed]
  exact List.filter_eq_self.2 fun frame mem => by simp [(h.trims mem).1]

end FramesOf

namespace ScriptException

/-- A stack written from frames, one a line. -/
def ofFrames (frames : List (List Char)) : String := String.ofList (['\n'].intercalate frames)

theorem firstFrame_eq_none_iff {e : ScriptException} : e.firstFrame = none ↔ e.frames = [] := by
  rw [firstFrame, Option.map_eq_none_iff, List.head?_eq_none_iff]

theorem remainingFrames_eq_none_iff {e : ScriptException} :
    e.remainingFrames = none ↔ e.frames.length < 2 := by
  unfold remainingFrames
  match e.frames with
  | [] | [_] => simp
  | _ :: _ :: _ => simp

/-- The first frame and the others are all of them. -/
theorem ofFrames_frames {e : ScriptException} {first : String} (front : first ∈ e.firstFrame) :
    ofFrames e.frames = match e.remainingFrames with
      | none => first
      | some rest => first ++ "\n" ++ rest := by
  unfold firstFrame at front
  unfold remainingFrames
  match e.frames, front with
  | [_], rfl => rw [ofFrames, List.intercalate_singleton]; rfl
  | frame :: frame' :: more, rfl =>
    have feed : "\n" = String.ofList ['\n'] := rfl
    rw [ofFrames, List.intercalate_cons_cons, String.ofList_append, String.ofList_append, feed]
    rfl

/-- No frame of a stack is lost, doubled or moved: there is no first one only where all lines are
blank, and no others only where all but one are, and all of them together, one a line, are what is
left of the lines. A stack of the frames alone has the same first frame and the same others. -/
theorem frames_keep_stack (e : ScriptException) : ∃ lines frames : List (List Char),
    Lines (e.stack.getD "").toList lines ∧ FramesOf lines frames ∧
      (e.firstFrame = none ↔ ∀ line ∈ lines, ∀ c ∈ line, isBlank c) ∧
      (e.remainingFrames = none ↔ (lines.filter fun line => !line.all isBlank).length < 2) ∧
      (∀ first ∈ e.firstFrame, ofFrames frames = match e.remainingFrames with
        | none => first
        | some rest => first ++ "\n" ++ rest) ∧
      let again := { e with stack := some (ofFrames frames) }
      again.firstFrame = e.firstFrame ∧ again.remainingFrames = e.remainingFrames := by
  have lines := textLines_eq_iff.1 (rfl : textLines (e.stack.getD "").toList = _)
  have trimmed := framesOf_lines (textLines (e.stack.getD "").toList)
  rw [← framesOf, ← frames] at trimmed
  refine ⟨_, e.frames, lines, trimmed, ?_, ?_, fun _ => ofFrames_frames, ?_⟩
  · rw [firstFrame_eq_none_iff, trimmed.eq_nil_iff]
  · rw [remainingFrames_eq_none_iff, trimmed.length]
  · intro again
    have same : again.frames = e.frames := by
      rw [frames, Option.getD_some, ofFrames, String.toList_ofList]
      exact trimmed.framesOf_intercalate fun line mem => lines.single mem
    rw [firstFrame, remainingFrames, same]
    exact ⟨rfl, rfl⟩

/-- Lines that end in both ways, with a blank one before, between and after the frames. -/
theorem frames_keep_stack_mixed :
    let e : ScriptException :=
      ⟨"Error", "boom", some " \r\n\tat f\r\r\n\u3000\n  at g \n\n"⟩
    e.firstFrame = some "at f" ∧ e.remainingFrames = some "at g" ∧
      ∃ lines frames, Lines (e.stack.getD "").toList lines ∧ FramesOf lines frames ∧
        ofFrames frames = "at f\nat g" ∧
        let again := { e with stack := some (ofFrames frames) }
        again.firstFrame = some "at f" ∧ again.remainingFrames = some "at g" := by
  intro e
  have first : e.firstFrame = some "at f" := by decide +kernel
  have rest : e.remainingFrames = some "at g" := by decide +kernel
  obtain ⟨lines, frames, splits, trimmed, -, -, joined, again⟩ := frames_keep_stack e
  have whole := joined _ first
  rw [first, rest] at again
  rw [rest] at whole
  exact ⟨first, rest, lines, frames, splits, trimmed, whole, again⟩

end ScriptException

end ScriptBridge
