import Gatehouse.Proofs.Control.JobCourse

/-!
# What the admission queue is told

The admission queue lives on what passes tell it, so each pass over a job that carries the finalizer
has to tell it once, whatever fails, and never of a status that was not yet written.
-/

namespace Gatehouse.Control

open Resource

variable {hasStore : Bool} {now : Instant} {job : PipelineJob} {es : List Event}

/-- The queue is told of the job with the status that was last written to it, at the very end. -/
def ToldAfterWrite (job : PipelineJob) (es : List Event) : Prop :=
  ∃ (before : List Event) (s : PipelineJobStatus) (o : Except Error Unit) (after : List Event),
    es = before ++ ⟨.cluster (.patchJobStatus job s), o⟩ :: after ++
      [⟨.notify (job.withStatus s), ()⟩] ∧
    statusWrites after = []

/-- A pass has to tell the queue of a job that carries the finalizer, unless the job is over and
stays. -/
def MustTell (job : PipelineJob) : Prop :=
  jobFinalizer ∈ job.finalizers ∧ (job.isDeleting = true ∨ job.isCompleted = false)

instance (job : PipelineJob) : Decidable (MustTell job) := instDecidableAnd

/-- The three ways in which a pass deals with the queue: it tells of the deleted job as it is, or of
the job with the status that it tried to write, or nothing. -/
theorem told_cases {r : Except Error Schedule} (h : JobCourse hasStore now job es r) :
    (MustTell job ∧ job.isDeleting = true ∧ notifications es = [job]) ∨
    (MustTell job ∧ job.isDeleting = false ∧ ToldAfterWrite job es ∧
      ∃ s, notifications es = [job.withStatus s]) ∨
    (¬ MustTell job ∧ notifications es = []) := by
  cases h with
  | claimed alive new => exact .inr (.inr ⟨fun must => new must.1, rfl⟩)
  | unclaimed alive new e o => exact .inr (.inr ⟨fun must => new must.1, rfl⟩)
  | released deleting own => exact .inl ⟨⟨own, .inl deleting⟩, deleting, rfl⟩
  | unreleased deleting own e o => exact .inl ⟨⟨own, .inl deleting⟩, deleting, rfl⟩
  | left deleting foreign => exact .inr (.inr ⟨fun must => foreign must.1, rfl⟩)
  | completed alive own done =>
    refine .inr (.inr ⟨?_, rfl⟩)
    rintro ⟨-, deleting | going⟩
    · rw [alive] at deleting
      cases deleting
    · rw [done] at going
      cases going
  | @unreflected alive own going reads e failed o =>
    have quiet := notifications_aside (aside_reflect failed)
    refine .inr (.inl ⟨⟨own, .inr going⟩, alive, ⟨reads, forcedFailure job e, o, [], ?_, rfl⟩,
      forcedFailure job e, ?_⟩)
    · rw [List.append_assoc]
      rfl
    · rw [notifications_append, quiet]
      rfl
  | @unsaved alive own going reads config s reflected e =>
    have quiet := notifications_aside (aside_reflect reflected)
    refine .inr (.inl ⟨⟨own, .inr going⟩, alive, ⟨reads, s, .error e, [], ?_, rfl⟩, s, ?_⟩)
    · rw [List.append_assoc]
      rfl
    · rw [notifications_append, quiet]
      rfl
  | @saved alive own going reads report config s reflected reported =>
    have quiet := notifications_aside (aside_reflect reflected)
    have aside := (course_reportIfNew reported).1
    refine .inr (.inl ⟨⟨own, .inr going⟩, alive,
      ⟨reads, s, .ok (), report, rfl, statusWrites_aside aside⟩, s, ?_⟩)
    have silent : notifications (⟨.cluster (.patchJobStatus job s), .ok ()⟩ :: report) = [] := by
      change notifications report = []
      exact notifications_aside aside
    rw [notifications_append, notifications_append, quiet, silent]
    rfl

/-- A pass tells the queue exactly once if it must and never otherwise; it tells of the job as it is
when the job is deleted, and else of the job with the status just written. -/
theorem notifications_reconcileJob {r : Except Error Schedule}
    (h : Course (reconcileJob hasStore now job) es r) :
    (notifications es).length = (if MustTell job then 1 else 0) ∧
    (job.isDeleting = true → ∀ told ∈ notifications es, told = job) ∧
    (job.isDeleting = false → notifications es ≠ [] → ToldAfterWrite job es) ∧
    ∀ told ∈ notifications es, jobFinalizer ∈ told.finalizers := by
  rcases told_cases (.of_course h) with ⟨must, deleting, once⟩ |
    ⟨must, alive, afterWrite, s, once⟩ | ⟨free, never⟩
  · refine ⟨by simp [once, must], by simp [once], by simp [deleting], ?_⟩
    simpa [once] using must.1
  · refine ⟨by simp [once, must], by simp [alive], fun _ _ => afterWrite, ?_⟩
    simpa [once] using must.1
  · simp [never, free]

/-- A job that has the finalizer and waits. -/
def waitingBuild : PipelineJob where
  metadata := {
    name := some "a", inNamespace := some "ci", uid := some "a-uid"
    finalizers := some [jobFinalizer] }
  spec := { config := "repo", refs := { repository := "org/repo", ref := "main", sha := "" } }

/-- What a pass over it does when neither its config can be read nor its status be written. -/
def cutOffEvents : List Event :=
  let failed := forcedFailure waitingBuild (.store "down")
  [⟨.cluster (.getConfig "ci" "repo"), .error (.store "down")⟩,
    ⟨.cluster (.patchJobStatus waitingBuild failed), .error (.store "down")⟩,
    ⟨.notify (waitingBuild.withStatus failed), ()⟩]

theorem notifications_cutOff :
    Course (reconcileJob false default waitingBuild) cutOffEvents (.ok .awaitChange) ∧
    (notifications cutOffEvents).length = (if MustTell waitingBuild then 1 else 0) ∧
    MustTell waitingBuild ∧ ToldAfterWrite waitingBuild cutOffEvents := by
  have unread : Course (reflect default waitingBuild)
      [⟨.cluster (.getConfig "ci" "repo"), .error (.store "down")⟩] (.error (.store "down")) :=
    course_lift_bind.mpr (.inr ⟨"ci", rfl, course_askCluster_bind.mpr (.inl ⟨_, rfl, rfl⟩)⟩)
  have course : Course (reconcileJob false default waitingBuild) cutOffEvents (.ok .awaitChange) :=
    (JobCourse.unreflected rfl (by decide) rfl unread (.error (.store "down"))).course
  obtain ⟨once, -, afterWrite, -⟩ := notifications_reconcileJob course
  exact ⟨course, once, by decide, afterWrite rfl (List.cons_ne_nil _ _)⟩

end Gatehouse.Control
