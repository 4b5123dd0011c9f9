import Gatehouse.Proofs.Control.View

/-!
# What passes say about a job

A pass replaces the stored version of its job and tells the queue of another one. Both follow from the
version it found and from the run of the job: only a run that ended, or one that is gone, completes a
job, and only a pending job is said to wait where there is no run.
-/

namespace Gatehouse.Control

open Program Resource

variable {job old : PipelineJob} {es : List Event}

/-- A version of a job that may take the place of an old one while the job has a certain run. -/
structure Version (run? : Option PipelineRun) (old job : PipelineJob) : Prop where
  key : job.key = old.key
  deleting : old.isDeleting = true → job.isDeleting = true
  running : run? = none → job.jobState = .running → old.jobState = .running
  pending : run? = none → job.jobState = .pending → old.jobState = .pending

/-- A version of a job that the queue may be told about while the stored one is another. -/
structure News (run? : Option PipelineRun) (old job : PipelineJob) : Prop
    extends Version run? old job where
  stays : old.isDeleting = false → job.isDeleting = false
  completed : job.isCompleted = true →
    old.isDeleting = true ∨ (∃ run, run? = some run ∧ hasEnded run = true) ∨
      run? = none ∧ old.jobState = .running

theorem Version.same {run? : Option PipelineRun} (key : job.key = old.key)
    (status : job.status = old.status) (deleting : old.isDeleting = true → job.isDeleting = true) :
    Version run? old job := by
  have state : job.jobState = old.jobState := by
    simp only [Object.jobState, Object.jobStatus, status]
  exact ⟨key, deleting, fun _ h => state.symm.trans h, fun _ h => state.symm.trans h⟩

theorem Version.failed {run? : Option PipelineRun} {s : PipelineJobStatus}
    (state : s.state = .failed) : Version run? old (old.withStatus s) := by
  have failed : (old.withStatus s).jobState = .failed := state
  refine ⟨rfl, id, ?_, ?_⟩
  · intro _ running
    rw [failed] at running
    cases running
  · intro _ pending
    rw [failed] at pending
    cases pending

theorem News.deleted {run? : Option PipelineRun} (deleting : old.isDeleting = true) :
    News run? old old where
  toVersion := .same rfl rfl id
  stays := id
  completed := fun _ => .inl deleting

theorem News.failed {run? : Option PipelineRun} (going : old.isCompleted = false) (e : Error) :
    News run? old (old.withStatus (forcedFailure old e)) where
  toVersion := .failed rfl
  stays := id
  completed := by
    intro done
    have same : (old.withStatus (forcedFailure old e)).isCompleted = old.isCompleted := rfl
    rw [same, going] at done
    cases done

/-- Without a run, a job is only completed if it ran before; it neither starts to run nor to wait. -/
theorem News.withoutRun {now : Instant} {pipeline : String} (going : old.isCompleted = false) :
    News none old (old.withStatus (statusWithoutRun now pipeline old.jobStatus)) := by
  have still : old.jobStatus.completionTime.isSome = false := going
  cases state : old.jobStatus.state with
  | running =>
    have ended : (statusWithoutRun now pipeline old.jobStatus).state = .failed := by
      simp [statusWithoutRun, state]
    exact ⟨.failed ended, id, fun _ => .inr (.inr ⟨rfl, state⟩)⟩
  | pending =>
    refine ⟨⟨rfl, id, ?_, fun _ _ => state⟩, id, ?_⟩
    · intro _ running
      simp [Object.jobState, statusWithoutRun, state] at running
    · intro done
      simp [Object.isCompleted, statusWithoutRun, state, still] at done
  | completed | failed | canceled =>
    refine ⟨⟨rfl, id, ?_, ?_⟩, id, ?_⟩
    · intro _ running
      simp [Object.jobState, statusWithoutRun, state] at running
    · intro _ pending
      simp [Object.jobState, statusWithoutRun, state] at pending
    · intro done
      simp [Object.isCompleted, statusWithoutRun, state, still] at done

/-- A job is only completed on word of its run if the run has ended. -/
theorem News.ofRun {now : Instant} {run : PipelineRun} (going : old.isCompleted = false) :
    News (some run) old (old.withStatus (statusOfRun now (run.status.getD {}) old.jobStatus)) := by
  have still : old.jobStatus.completionTime.isSome = false := going
  refine ⟨⟨rfl, id, ?_, ?_⟩, id, ?_⟩
  · intro absent
    cases absent
  · intro absent
    cases absent
  intro done
  -- A completion time is set in the two branches only that read how the run ended.
  refine .inr (.inl ⟨run, rfl, ?_⟩)
  simp only [Object.isCompleted, Object.jobStatus_withStatus, statusOfRun] at done
  unfold hasEnded
  split at done
  · rw [still] at done
    cases done
  · rename_i c found
    simp only [found, Option.any_some]
    split at done
    · rename_i succeeded
      simp [succeeded]
    split at done
    · rename_i failed
      simp [failed]
    · rw [still] at done
      cases done

theorem News.reflected {run? : Option PipelineRun} {now : Instant} {config : RepoConfig}
    {s : PipelineJobStatus} (going : old.isCompleted = false)
    (h : reflectStatus now run? old config = .ok s) : News run? old (old.withStatus s) := by
  rcases reflectStatus_ok h with ⟨rfl, rfl⟩ | ⟨run, rfl, rfl⟩
  · exact .withoutRun going
  · exact .ofRun going

/-- Reflection sees the run that is stored under the key of the job. -/
theorem reflect_follows {now : Instant} {config : RepoConfig} {s : PipelineJobStatus}
    {w w' : World} {reads rest : List Event}
    (reflected : Course (reflect now job) reads (.ok (config, s)))
    (h : Follows World.May w (reads ++ rest) w') :
    reflectStatus now (w.view.run? job.key) job config = .ok s := by
  obtain ⟨run?, looked, computed⟩ := course_reflect_ok reflected
  obtain ⟨w₁, reading, -⟩ := follows_append.mp h
  rw [← (view_lookUp looked reading).2 config run? rfl]
  exact computed

theorem Version.stored {run? : Option PipelineRun} {s : PipelineJobStatus} {o : Except Error Unit}
    (h : Version run? old (old.withStatus s)) :
    Version run? old (stored old ⟨.cluster (.patchJobStatus job s), o⟩) := by
  cases o with
  | error e => exact .same rfl rfl id
  | ok a => exact h

/-- A pass that writes one status and tells the queue of it. -/
theorem written_told {run? : Option PipelineRun} {reads : List Event} (report : List Event)
    {s : PipelineJobStatus} {o : Except Error Unit} (read : ∀ e ∈ reads, e.Aside)
    (reported : ∀ e ∈ report, e.Aside) (news : News run? old (old.withStatus s))
    (shape : es = reads ++ ⟨.cluster (.patchJobStatus old s), o⟩ ::
      (report ++ [⟨.notify (old.withStatus s), ()⟩])) :
    Version run? old (es.foldl stored old) ∧ ∀ p ∈ notifications es, News run? old p := by
  have kept : es.foldl Control.stored old =
      Control.stored old ⟨.cluster (.patchJobStatus old s), o⟩ := by
    rw [shape, List.foldl_append, stored_asides read, List.foldl_cons, List.foldl_append,
      stored_asides reported]
    rfl
  have told : notifications es = notifications (report ++ [⟨.notify (old.withStatus s), ()⟩]) := by
    rw [shape, notifications_append, notifications_aside read]
    rfl
  rw [notifications_append, notifications_aside reported, List.nil_append] at told
  rw [kept, told]
  refine ⟨news.toVersion.stored, ?_⟩
  simpa [notifications, Event.notified?] using news

/-- What a pass stores of its job and what it tells the queue. -/
theorem pass_news {hasStore : Bool} {now : Instant} {w w' : World} {r : Except Error Schedule}
    (h : JobCourse hasStore now job es r) (follows : Follows World.May w es w') :
    Version (w.view.run? job.key) job (es.foldl stored job) ∧
    ∀ p ∈ notifications es, News (w.view.run? job.key) job p := by
  have silent : ∀ p ∈ ([] : List PipelineJob), News (w.view.run? job.key) job p := by simp
  cases h with
  | claimed alive new => exact ⟨.same rfl rfl id, silent⟩
  | unclaimed alive new e o => exact ⟨Version.stored (.failed rfl), silent⟩
  | released deleting own =>
    refine ⟨.same rfl rfl id, ?_⟩
    simpa [notifications, Event.notified?] using News.deleted deleting
  | unreleased deleting own e o =>
    refine ⟨Version.stored (.failed rfl), ?_⟩
    simpa [notifications, Event.notified?] using News.deleted deleting
  | left deleting foreign => exact ⟨.same rfl rfl id, silent⟩
  | completed alive own done => exact ⟨.same rfl rfl id, silent⟩
  | unreflected alive own going failed o =>
    exact written_told [] (aside_reflect failed) (by simp) (.failed going _) rfl
  | unsaved alive own going reflected e =>
    have news := News.reflected going (reflect_follows reflected follows)
    exact written_told [] (aside_reflect reflected) (by simp) news rfl
  | @saved alive own going reads report config s reflected reported =>
    rw [List.append_assoc] at follows ⊢
    have news := News.reflected going (reflect_follows reflected follows)
    exact written_told report (aside_reflect reflected) (course_reportIfNew reported).1 news rfl

end Gatehouse.Control
