import Gatehouse.Proofs.Control.JobHistory
import Gatehouse.Proofs.Control.JobNotification
import Gatehouse.Proofs.Control.View

/-!
# The life of a job

What a pass stores is the status it found, a forced failure, or what reflection computed of a job that
was not completed (`Successor`). Each of these keeps the times of a status in step with its state
(`Consistent`) and goes on from the status before (`Progress`): a time that is set stays, and a job
that began does not wait again. Progress composes, so both hold between any two moments in the
life of a job that was stored without a status (`consistent_of_fresh`).
-/

namespace Gatehouse.Control

open Program Resource

variable {hasStore : Bool} {now : Instant} {job first mid last : PipelineJob} {es es' : List Event}
  {s s' s'' : PipelineJobStatus}

/-- The times of a status say what its state says. -/
structure Consistent (s : PipelineJobStatus) : Prop where
  ended : s.completionTime.isSome = true →
    s.state = .completed ∨ s.state = .failed ∨ s.state = .canceled
  dated : s.state = .completed ∨ s.state = .canceled → s.completionTime.isSome = true
  started : s.state = .running → s.startTime.isSome = true
  waiting : s.state = .pending → s.startTime = none ∧ s.completionTime = none

/-- The second status may come after the first. -/
structure Progress (s s' : PipelineJobStatus) : Prop where
  startTime : ∀ t, s.startTime = some t → s'.startTime = some t
  completionTime : ∀ t, s.completionTime = some t → s'.completionTime = some t
  begun : s.state ≠ .pending → s'.state ≠ .pending

theorem Progress.refl (s : PipelineJobStatus) : Progress s s :=
  ⟨fun _ h => h, fun _ h => h, fun h => h⟩

theorem Progress.trans (h : Progress s s') (h' : Progress s' s'') : Progress s s'' where
  startTime t set := h'.startTime t (h.startTime t set)
  completionTime t set := h'.completionTime t (h.completionTime t set)
  begun left := h'.begun (h.begun left)

theorem consistent_initial : Consistent {} := by
  constructor <;> simp

/-! The statuses that a pass computes. -/

/-- A forced failure leaves the times as they are, and any times agree with it. -/
theorem consistent_forcedFailure (job : PipelineJob) (e : Error) :
    Consistent (forcedFailure job e) ∧ Progress job.jobStatus (forcedFailure job e) := by
  refine ⟨⟨fun _ => .inr (.inl rfl), ?_, ?_, ?_⟩, ⟨fun _ h => h, fun _ h => h, ?_⟩⟩
  all_goals simp [forcedFailure]

/-- Without a run, only a running job changes its state: it has failed by now. -/
theorem consistent_withoutRun {pipeline : String} (h : Consistent s)
    (going : s.completionTime = none) :
    Consistent (statusWithoutRun now pipeline s) ∧
      Progress s (statusWithoutRun now pipeline s) := by
  cases state : s.state with
  | running =>
    have failed : statusWithoutRun now pipeline s =
        { s with
          state := .failed, message := "pipeline run was deleted", completionTime := some now } := by
      simp only [statusWithoutRun, state]
    rw [failed]
    refine ⟨⟨fun _ => .inr (.inl rfl), by simp, by simp, by simp⟩, fun _ h => h, ?_, by simp⟩
    intro t set
    rw [going] at set
    cases set
  | pending =>
    have waits : statusWithoutRun now pipeline s =
        { s with message := "waiting for a free slot to run pipeline " ++ pipeline } := by
      simp only [statusWithoutRun, state]
    rw [waits]
    exact ⟨⟨h.ended, h.dated, h.started, h.waiting⟩, fun _ h => h, fun _ h => h, fun h => h⟩
  | completed | failed | canceled =>
    have same : statusWithoutRun now pipeline s = s := by
      simp only [statusWithoutRun, state]
    rw [same]
    exact ⟨h, .refl s⟩

/-- A run dates the start of its job, and makes it run or ends it. -/
theorem statusOfRun_cases (now : Instant) (r : PipelineRunStatus) (s : PipelineJobStatus) :
    (statusOfRun now r s).startTime = some (s.startTime.getD (r.startTime.getD now)) ∧
    ((statusOfRun now r s).state = .running ∧
        (statusOfRun now r s).completionTime = s.completionTime ∨
      ((statusOfRun now r s).state = .completed ∨ (statusOfRun now r s).state = .failed ∨
          (statusOfRun now r s).state = .canceled) ∧
        (statusOfRun now r s).completionTime = some (r.completionTime.getD now)) := by
  unfold statusOfRun
  dsimp only
  split
  · exact ⟨rfl, .inl ⟨rfl, rfl⟩⟩
  rename_i c _
  split
  · exact ⟨rfl, .inr ⟨.inl rfl, rfl⟩⟩
  split
  · refine ⟨rfl, .inr ⟨.inr ?_, rfl⟩⟩
    dsimp only [failedState]
    split
    · exact .inr rfl
    · exact .inl rfl
  · exact ⟨rfl, .inl ⟨rfl, rfl⟩⟩

theorem consistent_ofRun {r : PipelineRunStatus} (going : s.completionTime = none) :
    Consistent (statusOfRun now r s) ∧ Progress s (statusOfRun now r s) := by
  obtain ⟨start, outcome⟩ := statusOfRun_cases now r s
  have kept : ∀ t, s.startTime = some t → (statusOfRun now r s).startTime = some t := by
    intro t set
    rw [start, set, Option.getD_some]
  have unset : ∀ t, s.completionTime = some t → (statusOfRun now r s).completionTime = some t := by
    intro t set
    rw [going] at set
    cases set
  rcases outcome with ⟨running, unended⟩ | ⟨terminal, ended⟩
  · rw [going] at unended
    refine ⟨⟨?_, ?_, ?_, ?_⟩, kept, unset, ?_⟩
    all_goals simp [running, unended, start]
  · refine ⟨⟨fun _ => terminal, by simp [ended], by simp [start], ?_⟩, kept, unset, fun _ => ?_⟩
    · rcases terminal with state | state | state <;> simp [state]
    · rcases terminal with state | state | state <;> simp [state]

/-- What a pass can leave of the status of its job. -/
inductive Successor (now : Instant) (job : PipelineJob) : PipelineJobStatus → Prop
  | kept : Successor now job job.jobStatus
  | forced (e : Error) : Successor now job (forcedFailure job e)
  | reflected {run? : Option PipelineRun} {config : RepoConfig} {s : PipelineJobStatus}
      (going : job.isCompleted = false) (computed : reflectStatus now run? job config = .ok s) :
      Successor now job s

theorem JobCourse.successor {r : Except Error Schedule} (h : JobCourse hasStore now job es r) :
    Successor now job (es.foldl stored job).jobStatus := by
  have forced (e : Error) (o : Except Error Unit) :
      Successor now job
        (stored job ⟨.cluster (.patchJobStatus job (forcedFailure job e)), o⟩).jobStatus := by
    cases o with
    | error e' => exact .kept
    | ok a => exact .forced e
  cases h with
  | claimed alive new => exact .kept
  | unclaimed alive new e o => exact forced e o
  | released deleting own => exact .kept
  | unreleased deleting own e o => exact forced e o
  | left deleting foreign => exact .kept
  | completed alive own done => exact .kept
  | unreflected alive own going failed o =>
    rw [List.foldl_append, stored_asides (aside_reflect failed)]
    exact forced _ o
  | unsaved alive own going reflected e =>
    rw [List.foldl_append, stored_asides (aside_reflect reflected)]
    exact .kept
  | @saved alive own going reads report config s reflected reported =>
    obtain ⟨run?, -, computed⟩ := course_reflect_ok reflected
    have quiet := (course_reportIfNew reported).1
    rw [List.append_assoc, List.foldl_append, stored_asides (aside_reflect reflected),
      List.cons_append, List.foldl_cons, List.foldl_append, stored_asides quiet]
    exact .reflected going computed

/-- One pass keeps a status consistent and goes on from it. -/
theorem Successor.step (h : Successor now job s) (consistent : Consistent job.jobStatus) :
    Consistent s ∧ Progress job.jobStatus s := by
  cases h with
  | kept => exact ⟨consistent, .refl _⟩
  | forced e => exact consistent_forcedFailure job e
  | @reflected run? config s going computed =>
    have going : job.jobStatus.completionTime = none := by
      simpa [Object.isCompleted] using going
    rcases reflectStatus_ok computed with ⟨-, rfl⟩ | ⟨run, -, rfl⟩
    · exact consistent_withoutRun consistent going
    · exact consistent_ofRun going

/-- So does every history. -/
theorem History.step (h : History first es last) (consistent : Consistent first.jobStatus) :
    Consistent last.jobStatus ∧ Progress first.jobStatus last.jobStatus := by
  induction h with
  | start => exact ⟨consistent, .refl _⟩
  | pass hasStore now _ course ih =>
    obtain ⟨before, since⟩ := ih
    obtain ⟨after, next⟩ := (JobCourse.of_course course).successor.step before
    exact ⟨after, since.trans next⟩
  | edit _ same ih =>
    simp only [Object.jobStatus, same] at ih ⊢
    exact ih

/-- A pass that is run on a world takes the history of the stored job one step further. -/
theorem History.perform {w : World} (h : History first es job)
    (there : w.view.job? job.key = some job) (hasStore : Bool) (now : Instant) :
    ∃ es' job', History first es' job' ∧
      (w.perform now (reconcileJob hasStore now job).run).2.view.job? job.key = some job' := by
  obtain ⟨new, r, course, found⟩ := course_perform hasStore now there
  exact ⟨es ++ new, new.foldl stored job, h.pass hasStore now course, found⟩

/-- At every moment in the life of a job that was stored without a status, its times agree with its
state; and from any moment to a later one its times stay once they are set, and it does not wait
again once it began. -/
theorem consistent_of_fresh (fresh : first.status = none) (before : History first es mid)
    (after : History mid es' last) :
    Consistent mid.jobStatus ∧ Progress mid.jobStatus last.jobStatus := by
  have initial : Consistent first.jobStatus := by
    rw [Object.jobStatus, fresh]
    exact consistent_initial
  have consistent := (before.step initial).1
  exact ⟨consistent, (after.step consistent).2⟩

/-- A run under the name of the waiting build that belongs to a job of an id, with what the engine
said of it. -/
def buildRun (uid : String) (conditions : List RunCondition) : PipelineRun where
  metadata := {
    name := some "a", inNamespace := some "ci"
    ownerReferences := some
      [{ apiVersion := "prflow.dev/v1", kind := "PipelineJob", name := "a", uid }] }
  spec := { pipeline := "build" }
  status := some { conditions }

/-- The config of the waiting build. -/
def buildConfig : RepoConfig where
  metadata := { name := some "repo", inNamespace := some "ci" }
  spec := { git := { provider := .github, repository := "org/repo" }, pipelineRef := "build" }

/-- A cluster with a job, its config and perhaps a run, where some requests fail. -/
def workshop (failures : List (Cluster.Method × String)) (run? : Option PipelineRun)
    (job : PipelineJob) : World :=
  let cluster := (Cluster.Memory.putConfig { failures } buildConfig).putJob job
  { cluster := (run?.map cluster.putRun).getD cluster }

theorem job_workshop (failures : List (Cluster.Method × String)) (run? : Option PipelineRun)
    (job : PipelineJob) : (workshop failures run? job).view.job? job.key = some job := by
  cases run? <;> simp [workshop, World.view, Cluster.Memory.putJob, Cluster.Memory.putRun]

/-- The job after a pass over it there. -/
def reviewed (failures : List (Cluster.Method × String)) (run? : Option PipelineRun)
    (job : PipelineJob) : PipelineJob :=
  let w := (workshop failures run? job).perform default (reconcileJob false default job).run
  (w.2.view.job? job.key).getD job

theorem History.reviewed (h : History first es job) (failures : List (Cluster.Method × String))
    (run? : Option PipelineRun) : ∃ es', History first es' (reviewed failures run? job) := by
  obtain ⟨es', job', after, found⟩ := h.perform (job_workshop failures run? job) false default
  refine ⟨es', ?_⟩
  rw [Control.reviewed, found]
  exact after

/-- The waiting build once it runs. -/
def runningBuild : PipelineJob :=
  reviewed [] (some (buildRun "a-uid" [])) (reviewed [] none waitingBuild)

/-- Its config could not be read for a while, and then its run had ended. -/
def endedBuild : PipelineJob :=
  reviewed [] (some (buildRun "a-uid" [{ type := "Succeeded", status := "True" }]))
    (reviewed [(.getConfig, "down")] (some (buildRun "a-uid" [])) runningBuild)

theorem consistent_of_fresh_ended :
    waitingBuild.status = none ∧ runningBuild.jobState = .running ∧
    endedBuild.jobState = .completed ∧
    Consistent runningBuild.jobStatus ∧ Progress runningBuild.jobStatus endedBuild.jobStatus := by
  obtain ⟨_, pending⟩ := (@History.start waitingBuild).reviewed [] none
  obtain ⟨_, before⟩ := pending.reviewed [] (some (buildRun "a-uid" []))
  obtain ⟨_, failed⟩ := (@History.start runningBuild).reviewed [(.getConfig, "down")]
    (some (buildRun "a-uid" []))
  obtain ⟨_, after⟩ := failed.reviewed []
    (some (buildRun "a-uid" [{ type := "Succeeded", status := "True" }]))
  exact ⟨rfl, by decide, by decide, consistent_of_fresh rfl before after⟩

end Gatehouse.Control
