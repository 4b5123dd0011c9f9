import Gatehouse.Proofs.Control.LifeCycle

/-!
# Recovery from forced failures

A run tells the state of its job and a message, and of the status before nothing but the times has a
part in what comes out (`statusOfRun_eq`). So failures that were forced on a job, which leave its times
alone, are forgotten as soon as the run can be read (`reflectStatus_afterFailures`), and a run that goes
on is told of in the same words however often it is read (`statusOfRun_again`).
-/

namespace Gatehouse.Control

open Resource

variable {now later : Instant} {run : PipelineRun} {r : PipelineRunStatus}
  {s s' : PipelineJobStatus} {job job' : PipelineJob} {config config' : RepoConfig}

/-- The state of a job that its run tells. -/
def stateTold (r : PipelineRunStatus) : JobState :=
  match r.succeeded? with
  | none => .running
  | some c =>
    if c.status = "True" then .completed
    else if c.status = "False" then failedState c
    else .running

/-- The message that the run of a job tells. -/
def messageTold (r : PipelineRunStatus) : String :=
  match r.succeeded? with
  | none => "pipeline run started"
  | some c => if c.status = "True" ∧ c.message = "" then "pipeline run succeeded" else c.message

theorem failedState_ne_running (c : RunCondition) : failedState c ≠ .running := by
  unfold failedState
  split <;> decide

/-- State and message come from the run; a start time stays, and so does a completion time unless the
run has ended. -/
theorem statusOfRun_eq (now : Instant) (r : PipelineRunStatus) (s : PipelineJobStatus) :
    statusOfRun now r s = {
      state := stateTold r
      message := messageTold r
      startTime := some (s.startTime.getD (r.startTime.getD now))
      completionTime :=
        if stateTold r = .running then s.completionTime
        else some (r.completionTime.getD now) } := by
  unfold statusOfRun stateTold messageTold
  cases r.succeeded? with
  | none => rfl
  | some c =>
    dsimp only
    by_cases succeeded : c.status = "True"
    · simp [succeeded]
    · by_cases failed : c.status = "False"
      · simp [failed, failedState_ne_running]
      · simp [succeeded, failed]

theorem statusOfRun_congr (began : s.startTime = s'.startTime)
    (ended : s.completionTime = s'.completionTime) :
    statusOfRun now r s = statusOfRun now r s' := by
  rw [statusOfRun_eq, statusOfRun_eq, began, ended]

/-- Reading a run that goes on once more, at whatever time, changes nothing. -/
theorem statusOfRun_again (going : stateTold r = .running) :
    statusOfRun later r (statusOfRun now r s) = statusOfRun now r s := by
  simp only [statusOfRun_eq, going, if_true, Option.getD_some]

/-- The job has ended, in one way or another. -/
def Terminal (s : PipelineJobStatus) : Prop :=
  s.state = .completed ∨ s.state = .failed ∨ s.state = .canceled

/-- A job ends and gets its completion time at once. -/
theorem terminal_statusOfRun (unended : s.completionTime = none) :
    Terminal (statusOfRun now r s) ↔ (statusOfRun now r s).completionTime ≠ none := by
  rcases (statusOfRun_cases now r s).2 with ⟨running, kept⟩ | ⟨terminal, ended⟩
  · simp [Terminal, running, kept, unended]
  · simp [Terminal, terminal, ended]

theorem stateTold_of_not_terminal (going : ¬ Terminal (statusOfRun now r s)) :
    stateTold r = .running := by
  have told : (statusOfRun now r s).state = stateTold r :=
    congrArg PipelineJobStatus.state (statusOfRun_eq now r s)
  rcases (statusOfRun_cases now r s).2 with ⟨running, -⟩ | ⟨terminal, -⟩
  · exact told.symm.trans running
  · exact absurd terminal going

/-! Reflection. -/

theorem owns_congr (same : job'.metadata.uid = job.metadata.uid) :
    owns job' run = owns job run := by
  unfold owns
  rw [same]

/-- The job after a failure that was forced on it. -/
def forceFailed (job : PipelineJob) (e : Error) : PipelineJob :=
  job.withStatus (forcedFailure job e)

/-- However many failures were forced on a job, its run is reflected as if there had been none. -/
theorem reflectStatus_afterFailures (es : List Error) (job : PipelineJob) :
    reflectStatus now (some run) (es.foldl forceFailed job) config =
      reflectStatus now (some run) job config := by
  induction es generalizing job with
  | nil => rfl
  | cons e es ih =>
    rw [List.foldl_cons, ih]
    cases own : owns job run with
    | true =>
      have still : owns (forceFailed job e) run = true := own
      rw [reflectStatus_own own, reflectStatus_own still]
      exact congrArg Except.ok (statusOfRun_congr rfl rfl)
    | false =>
      have still : owns (forceFailed job e) run = false := own
      rw [reflectStatus_foreign own, reflectStatus_foreign still]
      rfl

/-- Of a job that has not ended, its run, the clock and the start time decide what is reflected: state
and message of before do not matter, and neither does the config. As long as the job has not ended by
that either, the same run is reflected in the same way at any later time. -/
theorem reflection_recovers (now : Instant) (config config' : RepoConfig)
    (own : owns job run = true) (same : job'.metadata.uid = job.metadata.uid)
    (unended : job.jobStatus.completionTime = none)
    (unended' : job'.jobStatus.completionTime = none)
    (began : job'.jobStatus.startTime = job.jobStatus.startTime) :
    ∃ s, reflectStatus now (some run) job config = .ok s ∧
      reflectStatus now (some run) job' config' = .ok s ∧
      (Terminal s ↔ s.completionTime ≠ none) ∧
      (¬ Terminal s → ∀ later config (seen : PipelineJob),
        seen.metadata.uid = job.metadata.uid → seen.jobStatus = s →
        reflectStatus later (some run) seen config = .ok s) := by
  have own' : owns job' run = true := (owns_congr same).trans own
  refine ⟨_, reflectStatus_own own, ?_, terminal_statusOfRun unended, ?_⟩
  · rw [reflectStatus_own own']
    exact congrArg Except.ok (statusOfRun_congr began (unended'.trans unended.symm))
  · intro going later config seen alike stored
    rw [reflectStatus_own ((owns_congr alike).trans own), stored]
    exact congrArg Except.ok (statusOfRun_again (stateTold_of_not_terminal going))

/-- The running build, and the same build after its config was not found: both are told the next step,
and nothing else until the run has one to tell. -/
theorem reflection_recovers_running :
    let run := buildRun "a-uid" [{ type := "Succeeded", status := "Unknown", message := "step 2" }]
    let lost := forceFailed runningBuild (.notFound "repo config repo")
    owns runningBuild run = true ∧ lost.metadata.uid = runningBuild.metadata.uid ∧
    runningBuild.jobStatus.completionTime = none ∧ lost.jobStatus.completionTime = none ∧
    lost.jobStatus.startTime = runningBuild.jobStatus.startTime ∧
    runningBuild.jobState ≠ lost.jobState ∧
    ∃ s, reflectStatus default (some run) runningBuild buildConfig = .ok s ∧
      reflectStatus default (some run) lost buildConfig = .ok s ∧
      s.state = .running ∧ s.message = "step 2" ∧
      ∀ later, reflectStatus later (some run) (lost.withStatus s) buildConfig = .ok s := by
  intro run lost
  have own : owns runningBuild run = true := by decide
  have unended : runningBuild.jobStatus.completionTime = none := by decide
  have forced : lost.jobStatus.completionTime = none := unended
  obtain ⟨s, first, second, -, again⟩ :=
    reflection_recovers default buildConfig buildConfig own rfl unended forced rfl
  have told : (reflectStatus default (some run) runningBuild buildConfig).map
      (fun s => (s.state, s.message)) = .ok (.running, "step 2") := by decide
  rw [first] at told
  obtain ⟨state, message⟩ := Prod.mk.inj (Except.ok.inj told)
  have going : ¬ Terminal s := by simp [Terminal, state]
  exact ⟨own, rfl, unended, forced, rfl, by decide, s, first, second, state, message,
    fun later => again going later buildConfig (lost.withStatus s) rfl rfl⟩

end Gatehouse.Control
