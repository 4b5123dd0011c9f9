import Gatehouse.Proofs.Control.Admitted

/-!
# Jobs that wait are not forgotten

After the queue was told about a job that waits, that job and every other one that waited still wait,
hold a slot, or are stored as failed. The one way out is that a job could not be started and the
cluster also refused to store its failure: the queue lets go of the job, and its stored version still
says that it waits.
-/

namespace Gatehouse.Control

open Program Resource

variable {limit : Nat} {q q' : Admission} {job : PipelineJob} {es : List Event}

/-- A job that waits is taken in for sure, and no other one is let go of for it. -/
theorem holds_takeIn (alive : job.isDeleting = false) (pending : job.jobState = .pending)
    (going : job.isCompleted = false) {key : String}
    (known : key = job.key ∨ key ∈ q.pending.map Object.key) : (q.takeIn job).Holds key := by
  have unfinished : isOver job = false := by simp [isOver, going, pending]
  have idle : job.jobState ≠ .running := by simp [pending]
  unfold Admission.takeIn
  rw [alive, unfinished, Bool.or_false, if_neg Bool.false_ne_true, if_neg idle]
  split
  · rename_i held
    rcases known with rfl | waits
    · exact .inr (List.contains_iff_mem.mp held)
    · exact .inl waits
  · refine .inl ?_
    rw [enqueue_keys]
    split
    · rename_i listed
      rcases known with rfl | waits
      · exact listed
      · exact waits
    · rcases known with rfl | waits
      · exact List.mem_append_right _ (List.mem_singleton.mpr rfl)
      · exact List.mem_append_left _ waits

/-- What the queue held when it began to fill the slots, it holds or has given up. -/
theorem Filled.accounted {jobs : List PipelineJob} {running : List String} {key : String}
    (h : Filled jobs running q es) (held : key ∈ jobs.map Object.key ∨ key ∈ running) :
    q.Holds key ∨ GivenUp es key := by
  rcases held with listed | slot
  · obtain ⟨p, member, rfl⟩ := List.mem_map.mp listed
    exact h.fates p member
  · exact .inl (.inr (h.kept slot))

/-- After a waiting job was handled, whatever the cluster answered: it and every other job that waited
before wait, hold a slot, or were given up. The queue has let go of the ones that were given up. These
are stored as failed, or the cluster refused that, and then their stored version is what it was. -/
theorem waiting_jobs_accounted (h : Reached limit q) (alive : job.isDeleting = false)
    (pending : job.jobState = .pending) (going : job.isCompleted = false)
    (handled : Path (q.handle job) es q') :
    ∀ key, key = job.key ∨ key ∈ q.pending.map Object.key →
      (q'.Holds key ∨ key ∈ failuresStored es ∨ key ∈ failuresRefused es) ∧
      (key ∈ failuresRefused es → ¬ q'.Holds key ∧ key ∉ failuresStored es) ∧
      ∀ w w', Follows World.May w es w' →
        (key ∈ failuresStored es →
          ∃ stored, w'.view.job? key = some stored ∧ stored.jobState = .failed) ∧
        (key ∈ failuresRefused es → w'.view.job? key = w.view.job? key) := by
  intro key known
  have before : Orderly (q.takeIn job) := (orderly_of_reached h).1.takeIn job
  have held : (q.takeIn job).Holds key := holds_takeIn alive pending going known
  have dealt := filled before handled
  refine ⟨dealt.accounted held, fun refused => ⟨?_, ?_⟩, fun w w' follows => ?_⟩
  · exact (dealt.out key (.inr refused)).2
  · exact fun stored => dealt.once key stored refused
  · have after := settled before handled follows
    exact ⟨after.failed key, after.refused key⟩

/-- A world that has the waiting build and no config for it. -/
def unprepared (failures : List (Cluster.Method × String)) : World where
  cluster := Cluster.Memory.putJob { failures } waitingBuild

/-- A fresh queue with one slot after it was told of the build there. -/
def dismissed (failures : List (Cluster.Method × String)) : Admission × World :=
  (unprepared failures).perform default (Admission.handle { limit := 1 } waitingBuild)

theorem path_dismissed (failures : List (Cluster.Method × String)) :
    ∃ es, Path (Admission.handle { limit := 1 } waitingBuild) es (dismissed failures).1 ∧
      Follows World.May (unprepared failures) es (dismissed failures).2 :=
  path_run World.May (World.answer default) (World.may_answer default) _ _

theorem waiting_jobs_accounted_one :
    Reached 1 { limit := 1 } ∧ waitingBuild.isDeleting = false ∧
    waitingBuild.jobState = .pending ∧ waitingBuild.isCompleted = false ∧
    ∃ stored, (dismissed []).2.view.job? waitingBuild.key = some stored ∧
      stored.jobState = .failed := by
  obtain ⟨es, path, follows⟩ := path_dismissed []
  obtain ⟨place, away, kept⟩ :=
    waiting_jobs_accounted .fresh rfl rfl rfl path waitingBuild.key (.inl rfl)
  obtain ⟨failed, refused⟩ := kept _ _ follows
  refine ⟨.fresh, rfl, rfl, rfl, ?_⟩
  rcases place with (waits | slot) | stored | refusal
  · exact absurd waits (by decide)
  · exact absurd slot (by decide)
  · exact failed stored
  · have same := congrArg (Option.map Object.jobState) (refused refusal)
    exact absurd same (by decide)

/-- If the cluster also refuses to store the failure, nobody looks after the build any more. -/
theorem waiting_job_forgotten :
    let after := dismissed [(.patchJobStatus, "down")]
    Reached 1 { limit := 1 } ∧ Reached 1 after.1 ∧ waitingBuild.isDeleting = false ∧
    waitingBuild.jobState = .pending ∧ waitingBuild.isCompleted = false ∧
    ¬ after.1.Holds waitingBuild.key ∧
    after.2.view.job? waitingBuild.key = some waitingBuild := by
  obtain ⟨es, path, -⟩ := path_dismissed [(.patchJobStatus, "down")]
  have lost : ¬ (dismissed [(.patchJobStatus, "down")]).1.Holds waitingBuild.key := by
    rintro (waits | slot)
    · exact absurd waits (by decide)
    · exact absurd slot (by decide)
  exact ⟨.fresh, Reached.fresh.handled path, rfl, rfl, rfl, lost, rfl⟩

end Gatehouse.Control
