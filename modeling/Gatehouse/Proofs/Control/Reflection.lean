import Gatehouse.Proofs.Control.JobCourse
import Gatehouse.Proofs.Control.RunOwner

/-!
# Passes that reflect

A pass that is let through by the finalizer protocol, over a job that has not ended, starts by
reflecting (`Reflects`), and how reflection ends settles what the pass does after it
(`JobCourse.aftermath`). Reflection fails exactly if the job has no namespace, its config or its run
cannot be read, there is no config, or the run is not the job's own (`course_reflect_error`).
-/

namespace Gatehouse.Control

open Program Resource

variable {hasStore : Bool} {now : Instant} {job : PipelineJob} {es reads : List Event} {e : Error}
  {r : Except Error Schedule}

/-! How reflection fails. -/

/-- Every way in which reflection can fail. -/
inductive Unreflected (job : PipelineJob) : List Event → Error → Prop
  | unplaced (nowhere : job.metadata.inNamespace = none) : Unreflected job [] .missingNamespace
  | unread {ns : String} (place : job.metadata.inNamespace = some ns) (e : Error) :
      Unreflected job [⟨.cluster (.getConfig ns job.spec.config), .error e⟩] e
  | unconfigured {ns : String} (place : job.metadata.inNamespace = some ns) :
      Unreflected job [⟨.cluster (.getConfig ns job.spec.config), .ok none⟩]
        (.notFound ("repo config " ++ job.spec.config))
  | unseen {ns : String} (place : job.metadata.inNamespace = some ns) (config : RepoConfig)
      (e : Error) :
      Unreflected job
        [⟨.cluster (.getConfig ns job.spec.config), .ok (some config)⟩,
          ⟨.cluster (.getRun ns (runName job)), .error e⟩]
        e
  | foreign {ns : String} (place : job.metadata.inNamespace = some ns) (config : RepoConfig)
      {run : PipelineRun} (foreign : owns job run = false) :
      Unreflected job
        [⟨.cluster (.getConfig ns job.spec.config), .ok (some config)⟩,
          ⟨.cluster (.getRun ns (runName job)), .ok (some run)⟩]
        (foreignRun job run)

theorem Unreflected.of_course (h : Course (reflect now job) es (.error e)) :
    Unreflected job es e := by
  rcases course_reflect h with ⟨e', same, looked⟩ | ⟨config, run?, looked, outcome⟩
  · cases same
    cases looked with
    | unplaced nowhere => exact .unplaced nowhere
    | unread place e => exact .unread place e
    | unconfigured place => exact .unconfigured place
    | unseen place config e => exact .unseen place config e
  · cases computed : reflectStatus now run? job config with
    | ok s =>
      rw [computed] at outcome
      cases outcome
    | error e' =>
      rw [computed] at outcome
      cases outcome
      obtain ⟨run, rfl, foreign, rfl⟩ := reflectStatus_eq_error_iff.mp computed
      cases looked with
      | seen place => exact .foreign place config foreign

theorem Unreflected.course (h : Unreflected job es e) : Course (reflect now job) es (.error e) := by
  rw [reflect_eq]
  cases h with
  | unplaced nowhere => exact course_bind.mpr (.inl ⟨_, rfl, (LookUp.unplaced nowhere).course⟩)
  | unread place => exact course_bind.mpr (.inl ⟨e, rfl, (LookUp.unread place e).course⟩)
  | unconfigured place =>
    exact course_bind.mpr (.inl ⟨_, rfl, (LookUp.unconfigured place).course⟩)
  | unseen place config =>
    exact course_bind.mpr (.inl ⟨e, rfl, (LookUp.unseen place config e).course⟩)
  | @foreign ns place config run foreign =>
    refine course_bind.mpr
      (.inr ⟨_, (config, some run), [], rfl, (LookUp.seen place config (some run)).course, ?_⟩)
    exact course_lift_bind.mpr (.inl ⟨_, reflectStatus_foreign foreign, rfl, rfl⟩)

/-- Reflection fails in the ways that `Unreflected` lists, and in no other. -/
theorem course_reflect_error : Course (reflect now job) es (.error e) ↔ Unreflected job es e :=
  ⟨.of_course, fun h => h.course⟩

/-! The way to reflection and from there. -/

/-- The pass starts by reflecting, and reflection asks this and ends so. -/
structure Reflects (now : Instant) (job : PipelineJob) (es reads : List Event)
    (o : Except Error (RepoConfig × PipelineJobStatus)) : Prop where
  proceeds : Course (followFinalizer job) [] (.ok .proceed)
  going : job.isCompleted = false
  starts : reads <+: es
  course : Course (reflect now job) reads o

/-- The finalizer protocol lets a pass go on over jobs that have the finalizer and stay. -/
theorem proceeds_iff :
    Course (followFinalizer job) [] (.ok .proceed) ↔
      job.isDeleting = false ∧ jobFinalizer ∈ job.finalizers := by
  cases deleting : job.isDeleting <;> by_cases own : jobFinalizer ∈ job.finalizers
  · simp [followFinalizer_kept deleting own, own]
  · refine iff_of_false (fun proceeds => ?_) fun kept => own kept.2
    rw [followFinalizer_new deleting own] at proceeds
    rcases course_askCluster_bind.mp proceeds with ⟨e, impossible, -⟩ | ⟨a, rest, impossible, -⟩
    · cases impossible
    · cases impossible
  · simp [followFinalizer_deleted deleting own]
  · simp [followFinalizer_left deleting own]

/-- What a pass does once reflection has ended, and how the pass ends. -/
inductive Aftermath (hasStore : Bool) (job : PipelineJob) :
    Except Error (RepoConfig × PipelineJobStatus) → List Event → Except Error Schedule → Prop
  | forced (e : Error) (o : Except Error Unit) :
      Aftermath hasStore job (.error e)
        [⟨.cluster (.patchJobStatus job (forcedFailure job e)), o⟩,
          ⟨.notify (job.withStatus (forcedFailure job e)), ()⟩]
        (.ok .awaitChange)
  | unsaved (config : RepoConfig) (s : PipelineJobStatus) (e : Error) :
      Aftermath hasStore job (.ok (config, s))
        [⟨.cluster (.patchJobStatus job s), .error e⟩, ⟨.notify (job.withStatus s), ()⟩]
        (.error e)
  | saved {config : RepoConfig} {s : PipelineJobStatus} {report : List Event}
      (reported : Course (reportIfNew hasStore job config s) report (.ok ())) :
      Aftermath hasStore job (.ok (config, s))
        (⟨.cluster (.patchJobStatus job s), .ok ()⟩ :: report ++ [⟨.notify (job.withStatus s), ()⟩])
        (.ok .awaitChange)

/-- How reflection ends settles what the pass does after it, up to the answers. -/
theorem JobCourse.aftermath {o : Except Error (RepoConfig × PipelineJobStatus)}
    (h : JobCourse hasStore now job es r) (reflects : Reflects now job es reads o) :
    ∃ rest, es = reads ++ rest ∧ Aftermath hasStore job o rest r := by
  obtain ⟨alive, own⟩ := proceeds_iff.mp reflects.proceeds
  obtain ⟨rest, same⟩ := reflects.starts
  refine ⟨rest, same.symm, ?_⟩
  -- The pass reflects as well, so it asked and found the same.
  cases h with
  | claimed _ new | unclaimed _ new => exact absurd own new
  | released deleting | unreleased deleting | left deleting => cases alive.symm.trans deleting
  | completed _ _ done => cases reflects.going.symm.trans done
  | unreflected _ _ _ failed o =>
    obtain ⟨-, rfl, rfl⟩ := reflects.course.unique failed same
    exact .forced _ o
  | unsaved _ _ _ reflected e =>
    obtain ⟨-, rfl, rfl⟩ := reflects.course.unique reflected same
    exact .unsaved _ _ e
  | saved _ _ _ reflected reported =>
    rw [List.append_assoc] at same
    obtain ⟨-, rfl, rfl⟩ := reflects.course.unique reflected same
    exact .saved reported

end Gatehouse.Control
