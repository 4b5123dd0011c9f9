import Gatehouse.Proofs.Control.JobFinalizer

/-!
# What a pass over a deleted job reports

A pass over a deleted job that still has the finalizer never fails: a refused change of finalizers is
caught, and the job is marked as failed in its place. So the report tells nothing about whether the
deletion can go on (`deletion_pass`). What could bring about another pass is a change of the stored
job, and if the mark was refused as well, there is none (`refused_deletion_rests`).
-/

namespace Gatehouse.Control

open Program Resource

variable {hasStore : Bool} {now : Instant} {job : PipelineJob} {es : List Event}
  {r : Except Error Schedule} {e : Error} {o : Except Error Unit}

theorem withStatus_eq_self {s : PipelineJobStatus} :
    job.withStatus s = job ↔ job.status = some s := by
  constructor
  · intro same
    rw [← same]
    rfl
  · intro same
    rw [Object.withStatus, ← same]

/-- What is asked of the cluster when it refuses to take the finalizer off, and what it answers to
the attempt to mark the job as failed. -/
def refusedDeletion (job : PipelineJob) (e : Error) (o : Except Error Unit) : List Event :=
  [⟨.notify job, ()⟩,
    ⟨.cluster (.patchJobFinalizers job (job.finalizers.erase jobFinalizer)), .error e⟩,
    ⟨.cluster (.patchJobStatus job (forcedFailure job e)), o⟩]

/-- A pass over a deleted job with the finalizer either takes it off or is refused, and ends in the
same way in both cases. -/
theorem deletion_cases (deleting : job.isDeleting = true) (own : jobFinalizer ∈ job.finalizers)
    (h : JobCourse hasStore now job es r) :
    r = .ok .awaitChange ∧
      (finalizerRefusals es = [] ∨ ∃ e o, es = refusedDeletion job e o) := by
  cases h with
  | released => exact ⟨rfl, .inl rfl⟩
  | unreleased _ _ e o => exact ⟨rfl, .inr ⟨e, o, rfl⟩⟩
  | left _ foreign => exact absurd own foreign
  | claimed alive | unclaimed alive | completed alive | unreflected alive | unsaved alive
  | saved alive => cases deleting.symm.trans alive

/-- A refused deletion leaves the finalizers, and the whole job unless the mark is stored and new. -/
theorem stored_refusedDeletion (job : PipelineJob) (e : Error) (o : Except Error Unit) :
    ((refusedDeletion job e o).foldl stored job).finalizers = job.finalizers ∧
    ((refusedDeletion job e o).foldl stored job = job ↔
      (∃ e', o = .error e') ∨ job.status = some (forcedFailure job e)) := by
  cases o with
  | error e' => exact ⟨rfl, iff_of_true rfl (.inl ⟨e', rfl⟩)⟩
  | ok a =>
    refine ⟨rfl, withStatus_eq_self.trans ⟨.inr, ?_⟩⟩
    rintro (⟨e', impossible⟩ | marked)
    · cases impossible
    · exact marked

/-- A pass over a deleted job with the finalizer ends well whatever the cluster does. The job is
then without the finalizer if it was there once and the cluster did not refuse to take it off, and
in no other case. After a refusal the finalizers are as before, and the stored job as a whole is as
before unless it could be marked as failed and was not marked so already. -/
theorem deletion_pass (deleting : job.isDeleting = true) (own : jobFinalizer ∈ job.finalizers)
    (h : Course (reconcileJob hasStore now job) es r) :
    r = .ok .awaitChange ∧
    (jobFinalizer ∉ (es.foldl stored job).finalizers ↔
      finalizerRefusals es = [] ∧ job.finalizers.count jobFinalizer = 1) ∧
    (finalizerRefusals es ≠ [] → ∃ e o,
      es = refusedDeletion job e o ∧
      (es.foldl stored job).finalizers = job.finalizers ∧
      (es.foldl stored job = job ↔
        (∃ e', o = .error e') ∨ job.status = some (forcedFailure job e))) := by
  have course : JobCourse hasStore now job es r := .of_course h
  obtain ⟨ended, outcome⟩ := deletion_cases deleting own course
  refine ⟨ended, ?_, ?_⟩
  · have there : 0 < job.finalizers.count jobFinalizer := List.count_pos_iff.mpr own
    rw [(finalizers_pass course).2]
    split
    · rename_i unrefused
      rw [Object.dueFinalizers_deleted deleting, ← List.count_eq_zero, List.count_erase_self]
      simp only [unrefused, true_and]
      omega
    · rename_i refused
      simp [own, refused]
  · intro refused
    obtain ⟨e, o, rfl⟩ := outcome.resolve_left refused
    exact ⟨e, o, rfl, stored_refusedDeletion job e o⟩

theorem deletion_pass_refused :
    let es := refusedDeletion doomedBuild (.store "conflict") (.error (.store "down"))
    doomedBuild.isDeleting = true ∧ jobFinalizer ∈ doomedBuild.finalizers ∧
    finalizerRefusals es = [.store "conflict"] ∧
    jobFinalizer ∈ (es.foldl stored doomedBuild).finalizers := by
  have course : JobCourse false default doomedBuild
      (refusedDeletion doomedBuild (.store "conflict") (.error (.store "down")))
      (.ok .awaitChange) :=
    .unreleased rfl (by decide) _ _
  have deletion := deletion_pass (by decide) (by decide) course.course
  refine ⟨by decide, by decide, rfl, ?_⟩
  by_contra gone
  cases (deletion.2.1.mp gone).1

/-- A cluster that changes neither finalizers nor statuses: the pass ends well, the job still has
the finalizer, and nothing about it has changed. -/
theorem refused_deletion_rests :
    let cluster : Cluster.Memory :=
      { Cluster.Memory.putJob {} doomedBuild with
        failures := [(.patchJobFinalizers, "conflict"), (.patchJobStatus, "conflict")] }
    let after := ({ cluster } : World).perform default (reconcileJob false default doomedBuild).run
    doomedBuild.isDeleting = true ∧ jobFinalizer ∈ doomedBuild.finalizers ∧
    after.1 = .ok .awaitChange ∧
    after.2.cluster.jobs.get? "ci/a" = some doomedBuild := by
  refine ⟨by decide, by decide, by decide, ?_⟩
  rfl

end Gatehouse.Control
