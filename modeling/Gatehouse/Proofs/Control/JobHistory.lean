import Gatehouse.Proofs.Control.JobCourse
import Gatehouse.Control.World

/-!
# Jobs in the course of time

Passes over one job follow each other, each on the job as it is stored by then, and between them
others may change the job. A completed job is not to change its status any more; it keeps it exactly
as long as its finalizers can be changed, for the way out of a refused change of finalizers is
the one write that does not ask whether the job is completed.
-/

namespace Gatehouse.Control

open Resource

variable {hasStore : Bool} {now : Instant} {job first last : PipelineJob} {es : List Event}

/-- A stored job from one moment to another: what passes over it asked, and how it ended up. Others
may change it in between, but not its status. -/
inductive History (first : PipelineJob) : List Event → PipelineJob → Prop
  | start : History first [] first
  | pass {es new : List Event} {job : PipelineJob} {r : Except Error Schedule} (hasStore : Bool)
      (now : Instant) :
      History first es job → Course (reconcileJob hasStore now job) new r →
      History first (es ++ new) (new.foldl stored job)
  | edit {es : List Event} {job job' : PipelineJob} :
      History first es job → job'.status = job.status → History first es job'

/-- The statuses that a pass writes for a completed job are those for the refused changes of its
finalizers. Which of these writes succeed is up to the cluster. -/
theorem completed_pass {r : Except Error Schedule} (done : job.isCompleted = true)
    (h : JobCourse hasStore now job es r) :
    statusWrites es = (finalizerRefusals es).map (forcedFailure job) ∧
    ((es.foldl stored job).status = job.status ∨
      ∃ e ∈ finalizerRefusals es, (es.foldl stored job).status = some (forcedFailure job e)) := by
  -- The ways that compute a status are closed to a completed job.
  have absurd_going : job.isCompleted ≠ false := by simp [done]
  cases h with
  | claimed alive new => exact ⟨rfl, .inl rfl⟩
  | unclaimed alive new e o =>
    refine ⟨rfl, ?_⟩
    cases o with
    | error e' => exact .inl rfl
    | ok a => exact .inr ⟨e, List.mem_singleton.mpr rfl, rfl⟩
  | released deleting own => exact ⟨rfl, .inl rfl⟩
  | unreleased deleting own e o =>
    refine ⟨rfl, ?_⟩
    cases o with
    | error e' => exact .inl rfl
    | ok a => exact .inr ⟨e, List.mem_singleton.mpr rfl, rfl⟩
  | left deleting foreign => exact ⟨rfl, .inl rfl⟩
  | completed alive own _ => exact ⟨rfl, .inl rfl⟩
  | unreflected alive own going => exact absurd going absurd_going
  | unsaved alive own going => exact absurd going absurd_going
  | saved alive own going => exact absurd going absurd_going

/-- What has become of a job that was completed: its status is the one it had, or the last forced
failure that could be written. -/
def Aged (first : PipelineJob) (es : List Event) (job : PipelineJob) : Prop :=
  job.status = first.status ∨
    ∃ e ∈ finalizerRefusals es, job.status = some (forcedFailure first e)

/-- A forced failure keeps all of a status but state and message, so the next one does not see
whether there was one before. -/
theorem Aged.forcedFailure_eq (h : Aged first es job) (e : Error) :
    forcedFailure job e = forcedFailure first e := by
  rcases h with same | ⟨e', -, failed⟩
  · simp only [forcedFailure, Object.jobStatus, same]
  · simp only [forcedFailure, Object.jobStatus, failed, Option.getD_some]

theorem Aged.times (h : Aged first es job) :
    job.jobStatus.startTime = first.jobStatus.startTime ∧
    job.jobStatus.completionTime = first.jobStatus.completionTime := by
  rcases h with same | ⟨e, -, failed⟩
  · simp only [Object.jobStatus, same, and_self]
  · simp only [Object.jobStatus, failed, Option.getD_some, forcedFailure, and_self]

theorem Aged.isCompleted (h : Aged first es job) : job.isCompleted = first.isCompleted := by
  simp only [Object.isCompleted, h.times.2]

/-- One more pass over a job that was completed at first. -/
theorem Aged.pass {new : List Event} {r : Except Error Schedule} (done : first.isCompleted = true)
    (h : Aged first es job) (course : Course (reconcileJob hasStore now job) new r) :
    statusWrites new = (finalizerRefusals new).map (forcedFailure first) ∧
    Aged first (es ++ new) (new.foldl stored job) := by
  have still : job.isCompleted = true := h.isCompleted.trans done
  obtain ⟨written, outcome⟩ := completed_pass still (.of_course course)
  -- So what is said of the job as it is now can be said of it as it was first.
  have failures : forcedFailure job = forcedFailure first := funext h.forcedFailure_eq
  rw [failures] at written outcome
  refine ⟨written, ?_⟩
  rcases outcome with kept | ⟨e, refused, failed⟩
  · rcases h with same | ⟨e, refused, failed⟩
    · exact .inl (kept.trans same)
    · refine .inr ⟨e, ?_, kept.trans failed⟩
      rw [finalizerRefusals_append]
      exact List.mem_append_left _ refused
  · refine .inr ⟨e, ?_, failed⟩
    rw [finalizerRefusals_append]
    exact List.mem_append_right _ refused

theorem aged_history (done : first.isCompleted = true) (h : History first es last) :
    statusWrites es = (finalizerRefusals es).map (forcedFailure first) ∧ Aged first es last := by
  induction h with
  | start => exact ⟨rfl, .inl rfl⟩
  | pass hasStore now _ course ih =>
    obtain ⟨before, aged⟩ := ih
    obtain ⟨written, aged⟩ := aged.pass done course
    refine ⟨?_, aged⟩
    rw [statusWrites_append, finalizerRefusals_append, List.map_append, before, written]
  | edit _ same ih =>
    obtain ⟨before, aged⟩ := ih
    refine ⟨before, ?_⟩
    unfold Aged
    rw [same]
    exact aged

/-- Over any number of passes, a completed job is given one status for each refused change of its
finalizers and no other. So its status stays as it is if there was no refusal; start and completion
time stay in any case. -/
theorem completed_history (done : first.isCompleted = true) (h : History first es last) :
    statusWrites es = (finalizerRefusals es).map (forcedFailure first) ∧
    (statusWrites es = [] ↔ finalizerRefusals es = []) ∧
    (finalizerRefusals es = [] → last.status = first.status) ∧
    last.jobStatus.startTime = first.jobStatus.startTime ∧
    last.jobStatus.completionTime = first.jobStatus.completionTime := by
  obtain ⟨written, aged⟩ := aged_history done h
  refine ⟨written, by rw [written, List.map_eq_nil_iff], ?_, aged.times⟩
  intro unrefused
  rcases aged with same | ⟨e, refused, -⟩
  · exact same
  · rw [unrefused] at refused
    cases refused

/-- A job that was done before it ever got the finalizer. -/
def finishedBuild : PipelineJob where
  metadata := { name := some "a", inNamespace := some "ci", uid := some "a-uid" }
  spec := { config := "repo", refs := { repository := "org/repo", ref := "main", sha := "" } }
  status := some {
    state := .completed, message := "done", startTime := some default,
    completionTime := some default }

/-- What a refused change of finalizers does to it. -/
def refusedEvents : List Event :=
  [⟨.cluster (.patchJobFinalizers finishedBuild [jobFinalizer]), .error (.store "conflict")⟩,
    ⟨.cluster (.patchJobStatus finishedBuild (forcedFailure finishedBuild (.store "conflict"))),
      .ok ()⟩]

theorem completed_history_refused :
    finishedBuild.isCompleted = true ∧
    statusWrites refusedEvents = (finalizerRefusals refusedEvents).map (forcedFailure finishedBuild) ∧
    finalizerRefusals refusedEvents = [.store "conflict"] := by
  have course : JobCourse false default finishedBuild refusedEvents (.ok .awaitChange) :=
    .unclaimed rfl (by decide) (.store "conflict") (.ok ())
  exact ⟨rfl, (completed_history rfl (.pass false default .start course.course)).1, rfl⟩

/-- A completed job does not keep its status on a cluster that refuses to change finalizers: one
pass makes it a failed one. -/
theorem completed_job_fails :
    let cluster : Cluster.Memory :=
      { Cluster.Memory.putJob {} finishedBuild with
        failures := [(.patchJobFinalizers, "conflict")] }
    let after := ({ cluster } : World).perform default (reconcileJob false default finishedBuild).run
    finishedBuild.isCompleted = true ∧ finishedBuild.jobState = .completed ∧
    (after.2.cluster.jobs.get? "ci/a").map (fun job => (job.jobState, job.jobStatus.message)) =
      some (.failed, "store error: conflict") := by
  decide

end Gatehouse.Control
