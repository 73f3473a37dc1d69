import ScriptBridge.Proofs.Effects
import ScriptBridge.Session

/-!
Jobs. When host code has the runtime evaluate something and that gives a value, the jobs that wait
then are run one after another until none is left. When it fails, no job runs: those it queued wait
for the next evaluation.
-/

namespace ScriptBridge.Session

/-! ### The queue -/

/-- Jobs run from the head of the queue, also those queued meanwhile, until none is left. A job that
throws does not keep the next one from running. -/
inductive Drains : World → Nat → World → Prop where
  | empty {w : World} (none : w.engine.jobs = []) : Drains w 0 w
  | next {w w₁ w₂ : World} {job : Job} {rest : List Job} {n : Nat}
      {result : Except ScriptValue ScriptValue} (queued : w.engine.jobs = job :: rest)
      (ran : ((Script.eval top job.scope job.body).attempt : HostAct _)
        { w with engine := { w.engine with jobs := rest } } = (.value result, w₁))
      (later : Drains w₁ n w₂) : Drains w (n + 1) w₂

section

variable {w w₁ w' : World} {n steps done total : Nat} {job : Job} {rest : List Job}

theorem Drains.jobs_eq (h : Drains w n w') : w'.engine.jobs = [] := by
  induction h with
  | empty none => exact none
  | next _ _ _ ih => exact ih

theorem takeJob_of_empty (empty : w.engine.jobs = []) :
    (Act.takeJob : HostAct _) w = (.value none, w) := by
  have same : { w with engine := { w.engine with jobs := w.engine.jobs.tail } } = w := by
    rw [empty, List.tail_nil, ← empty]
  change (Outcome.value w.engine.jobs.head?, _) = _
  rw [same, empty]
  rfl

theorem takeJob_of_queued (queued : w.engine.jobs = job :: rest) :
    (Act.takeJob : HostAct _) w =
      (.value (some job), { w with engine := { w.engine with jobs := rest } }) := by
  change (Outcome.value w.engine.jobs.head?,
    { w with engine := { w.engine with jobs := w.engine.jobs.tail } }) = _
  rw [queued]
  rfl

theorem drains_of_runJobsWithin (h : runJobsWithin steps done w = (.value total, w')) :
    ∃ n, n < steps ∧ total = done + n ∧ Drains w n w' := by
  induction steps generalizing done w with
  | zero => cases h
  | succ steps ih =>
    rw [runJobsWithin] at h
    cases jobs : w.engine.jobs with
    | nil =>
      rw [Act.bind_of_value (takeJob_of_empty jobs)] at h
      cases h
      exact ⟨0, Nat.succ_pos _, rfl, .empty jobs⟩
    | cons job rest =>
      rw [Act.bind_of_value (takeJob_of_queued jobs)] at h
      obtain ⟨result, w₁, ran, h⟩ := Act.of_bind_value h
      obtain ⟨n, few, count, later⟩ := ih h
      exact ⟨n + 1, Nat.succ_lt_succ few, by omega, .next jobs ran later⟩

theorem runJobsWithin_of_drains (h : Drains w n w') (few : n < steps) :
    runJobsWithin steps done w = (.value (done + n), w') := by
  induction h generalizing steps done with
  | empty none =>
    obtain ⟨steps, rfl⟩ := Nat.exists_eq_succ_of_ne_zero (Nat.ne_zero_of_lt few)
    rw [runJobsWithin, Act.bind_of_value (takeJob_of_empty none)]
    rfl
  | @next w w₁ w₂ job rest n result queued ran later ih =>
    obtain ⟨steps, rfl⟩ := Nat.exists_eq_succ_of_ne_zero (Nat.ne_zero_of_lt few)
    rw [runJobsWithin, Act.bind_of_value (takeJob_of_queued queued)]
    have more : runJobsWithin steps (done + 1) w₁ = (.value (done + 1 + n), w₂) :=
      ih (Nat.lt_of_succ_lt_succ few)
    rw [Nat.add_right_comm] at more
    exact (Act.bind_of_value ran _).trans more

theorem infallible_runJobsWithin : (runJobsWithin steps done).Infallible := by
  induction steps generalizing done with
  | zero =>
    intro w e w' h
    cases h
  | succ steps ih =>
    have taking : (Act.takeJob : HostAct _).Infallible := by
      intro w e w' h
      cases h
    refine taking.bind fun job => ?_
    cases job with
    | none => exact .pure _
    | some job => exact .bind (.attempt _) fun _ => ih

end

/-! ### Evaluations and their jobs -/

section

variable {α : Type} {x : HostAct α} {a : α} {e : Error} {w w' : World}

theorem thenJobs_value_iff : thenJobs x w = (.value a, w') ↔
    ∃ w₁ n, enter x w = (.value a, w₁) ∧ n < stepLimit ∧ Drains w₁ n w' := by
  constructor
  · intro h
    obtain ⟨a, w₁, entered, h⟩ := Act.of_bind_value h
    obtain ⟨_, w₂, ran, done⟩ := Act.of_bind_value (x := runJobs) h
    cases done
    obtain ⟨n, few, _, drains⟩ := drains_of_runJobsWithin ran
    exact ⟨w₁, n, entered, few, drains⟩
  · rintro ⟨w₁, n, entered, few, drains⟩
    have ran : runJobs w₁ = (.value (0 + n), w') := runJobsWithin_of_drains drains few
    exact (Act.bind_of_value entered _).trans (Act.bind_of_value ran _)

theorem thenJobs_failure_iff : thenJobs x w = (.failure e, w') ↔ enter x w = (.failure e, w') := by
  constructor
  · intro h
    cases Act.of_bind_failure h with
    | inl h => exact h
    | inr h =>
      obtain ⟨a, w₁, _, h⟩ := h
      exact absurd h (infallible_runJobsWithin.bind (fun _ => .pure a) w₁ e w')
  · exact fun h => Act.bind_of_failure h _

end

/-- The ways to have the runtime evaluate something and then run jobs, each with what it
evaluates. -/
inductive Evaluates : HostAct Value → HostAct Value → Prop where
  | execute (source : ScriptSource) :
    Evaluates (execute source) (Bridge.intoHost top (Script.run top source) >>= Bridge.toHost top)
  | callFunction (f : Callback) (this : Value) (args : List Value) :
    Evaluates (callFunction f this args) (Bridge.invoke top f this args)
  | callGlobal (name : String) (args : List Value) :
    Evaluates (callGlobal name args) do
      match ← readGlobal name with
      | .function f => Bridge.invoke top f .undefined args
      | _ => Act.fail (Error.exception "TypeError" (name ++ " is not a function"))

theorem Evaluates.eq_thenJobs {x evaluation : HostAct Value} (h : Evaluates x evaluation) :
    x = thenJobs evaluation := by
  cases h <;> rfl

/-- An evaluation that gives a value leaves no job waiting; its jobs have run in turn, whatever they
threw. One that fails leaves the jobs as they are. -/
theorem values_leave_no_job {x evaluation : HostAct Value} (evaluates : Evaluates x evaluation)
    (w : World) :
    (∀ v w', x w = (.value v, w') → w'.engine.jobs = []) ∧
    (∀ v w', x w = (.value v, w') ↔
      ∃ w₁ n, enter evaluation w = (.value v, w₁) ∧ n < stepLimit ∧ Drains w₁ n w') ∧
    ∀ e w', x w = (.failure e, w') ↔ enter evaluation w = (.failure e, w') := by
  rw [evaluates.eq_thenJobs]
  refine ⟨fun v w' gives => ?_, fun v w' => thenJobs_value_iff, fun e w' => thenJobs_failure_iff⟩
  obtain ⟨_, _, _, _, drains⟩ := thenJobs_value_iff.1 gives
  exact drains.jobs_eq

/-- The job that a script queues before it gives a value has run. -/
theorem values_leave_no_job_queued :
    let source := ScriptSource.expression (.later .null)
    let evaluation := Bridge.intoHost top (Script.run top source) >>= Bridge.toHost top
    let w : World := { engine := .fresh, runtime := 1 }
    Evaluates (execute source) evaluation ∧ (enter evaluation w).2.engine.jobs.length = 1 ∧
      ∃ w', execute source w = (.value .undefined, w') ∧ w'.engine.jobs = [] := by
  intro source evaluation w
  have evaluates : Evaluates (execute source) evaluation := .execute source
  obtain ⟨none, gives, _⟩ := values_leave_no_job evaluates w
  have ran : execute source w = (.value .undefined, _) :=
    (gives _ _).2 ⟨_, 1, rfl, by decide, .next rfl rfl (.empty rfl)⟩
  exact ⟨evaluates, rfl, _, ran, none _ _ ran⟩

/-- A script that throws leaves the job it queued before, and the next evaluation runs it. -/
theorem job_left_by_failure :
    let source := ScriptSource.expression (.sequence [.later .null, .throwValue .null])
    let w : World := { engine := .fresh, runtime := 1 }
    ∃ e w₁ w₂, execute source w = (.failure e, w₁) ∧ w₁.engine.jobs.length = 1 ∧
      execute (.expression .null) w₁ = (.value .null, w₂) ∧ w₂.engine.jobs = [] := by
  intro source w
  let w₁ := (execute source w).2
  have fails : execute source w = (.failure (Error.exception "Error" "null"), w₁) := rfl
  have drained : execute (.expression .null) w₁ = (.value .null, _) :=
    thenJobs_value_iff.2 ⟨_, 1, rfl, by decide, .next rfl rfl (.empty rfl)⟩
  exact ⟨_, w₁, _, fails, rfl, drained, rfl⟩

end ScriptBridge.Session
