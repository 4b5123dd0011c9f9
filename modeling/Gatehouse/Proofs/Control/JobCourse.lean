import Gatehouse.Proofs.Control.LookUp

/-!
# Courses of passes over jobs

All ways in which a pass over a job can go, one constructor each. Everything else about passes over
jobs is read off this list, which is complete (`JobCourse.of_course`) and has nothing to spare
(`JobCourse.course`); so a change to the pass is a change to one constructor.
-/

namespace Gatehouse.Control

open Program Resource

variable {hasStore : Bool} {now : Instant} {job : PipelineJob} {config : RepoConfig}
  {s : PipelineJobStatus} {es : List Event}

/-! The parts of a pass that neither write to the job nor tell the queue. -/

/-- A report never fails a pass. -/
theorem course_reportStatus {r : Except Error Unit}
    (h : Course (reportStatus hasStore job config s) es r) : (∀ e ∈ es, e.Aside) ∧ r = .ok () := by
  unfold reportStatus at h
  split at h
  · obtain ⟨rfl, rfl⟩ := course_pure.mp h
    simp
  obtain ⟨first, o, second, rfl, made, h⟩ := course_attempt_bind.mp h
  have quiet := aside_clientFor made
  split at h
  · rcases course_bind.mp h with ⟨e, -, sent⟩ | ⟨third, a, fourth, rfl, sent, h⟩
    · obtain ⟨-, o, impossible⟩ := course_viaGit sent
      cases impossible
    · obtain ⟨rfl, rfl⟩ := course_pure.mp h
      have git := (course_viaGit sent).1
      refine ⟨?_, rfl⟩
      rw [List.append_nil]
      exact List.forall_mem_append.mpr ⟨quiet, fun e member => (git e member).aside⟩
  · obtain ⟨rfl, rfl⟩ := course_pure.mp h
    exact ⟨by simpa using quiet, rfl⟩

/-- What is reported of a status once it is stored: nothing unless the state is another. -/
def reportIfNew (hasStore : Bool) (job : PipelineJob) (config : RepoConfig)
    (s : PipelineJobStatus) : Pass Unit :=
  if s.state ≠ job.jobState then reportStatus hasStore job config s else pure ()

theorem course_reportIfNew {r : Except Error Unit}
    (h : Course (reportIfNew hasStore job config s) es r) : (∀ e ∈ es, e.Aside) ∧ r = .ok () := by
  unfold reportIfNew at h
  split at h
  · exact course_reportStatus h
  · obtain ⟨rfl, rfl⟩ := course_pure.mp h
    simp

/-- Reflection only reads the cluster. -/
theorem aside_reflect {r : Except Error (RepoConfig × PipelineJobStatus)}
    (h : Course (reflect now job) es r) : ∀ e ∈ es, e.Aside := by
  rcases course_reflect h with ⟨e, -, looked⟩ | ⟨config, run?, looked, -⟩
  · exact looked.aside
  · exact looked.aside

/-- Where reflection succeeds, it found a config and computed the status from the run that it saw. -/
theorem course_reflect_ok (h : Course (reflect now job) es (.ok (config, s))) :
    ∃ run?, LookUp job es (.ok (config, run?)) ∧ reflectStatus now run? job config = .ok s := by
  rcases course_reflect h with ⟨e, impossible, -⟩ | ⟨config, run?, looked, outcome⟩
  · cases impossible
  cases computed : reflectStatus now run? job config with
  | error e =>
    rw [computed] at outcome
    cases outcome
  | ok s =>
    rw [computed] at outcome
    cases outcome
    exact ⟨run?, looked, computed⟩

/-! The pass itself. -/

/-- Every way in which a pass over a job can go: what is asked and answered, and how it ends. -/
inductive JobCourse (hasStore : Bool) (now : Instant) (job : PipelineJob) :
    List Event → Except Error Schedule → Prop
  /-- A new job gets the finalizer. -/
  | claimed (alive : job.isDeleting = false) (new : jobFinalizer ∉ job.finalizers) :
      JobCourse hasStore now job
        [⟨.cluster (.patchJobFinalizers job (job.finalizers ++ [jobFinalizer])), .ok ()⟩]
        (.ok .awaitChange)
  | unclaimed (alive : job.isDeleting = false) (new : jobFinalizer ∉ job.finalizers) (e : Error)
      (o : Except Error Unit) :
      JobCourse hasStore now job
        [⟨.cluster (.patchJobFinalizers job (job.finalizers ++ [jobFinalizer])), .error e⟩,
          ⟨.cluster (.patchJobStatus job (forcedFailure job e)), o⟩]
        (.ok .awaitChange)
  /-- A deleted job gives back its slot and loses the finalizer. -/
  | released (deleting : job.isDeleting = true) (own : jobFinalizer ∈ job.finalizers) :
      JobCourse hasStore now job
        [⟨.notify job, ()⟩,
          ⟨.cluster (.patchJobFinalizers job (job.finalizers.erase jobFinalizer)), .ok ()⟩]
        (.ok .awaitChange)
  | unreleased (deleting : job.isDeleting = true) (own : jobFinalizer ∈ job.finalizers)
      (e : Error) (o : Except Error Unit) :
      JobCourse hasStore now job
        [⟨.notify job, ()⟩,
          ⟨.cluster (.patchJobFinalizers job (job.finalizers.erase jobFinalizer)), .error e⟩,
          ⟨.cluster (.patchJobStatus job (forcedFailure job e)), o⟩]
        (.ok .awaitChange)
  /-- A deleted job without the finalizer is left to others. -/
  | left (deleting : job.isDeleting = true) (foreign : jobFinalizer ∉ job.finalizers) :
      JobCourse hasStore now job [] (.ok .awaitChange)
  | completed (alive : job.isDeleting = false) (own : jobFinalizer ∈ job.finalizers)
      (done : job.isCompleted = true) : JobCourse hasStore now job [] (.ok .awaitChange)
  /-- What the cluster tells about the job could not be had or made no sense. -/
  | unreflected (alive : job.isDeleting = false) (own : jobFinalizer ∈ job.finalizers)
      (going : job.isCompleted = false) {reads : List Event} {e : Error}
      (failed : Course (reflect now job) reads (.error e)) (o : Except Error Unit) :
      JobCourse hasStore now job
        (reads ++ [⟨.cluster (.patchJobStatus job (forcedFailure job e)), o⟩,
          ⟨.notify (job.withStatus (forcedFailure job e)), ()⟩])
        (.ok .awaitChange)
  | unsaved (alive : job.isDeleting = false) (own : jobFinalizer ∈ job.finalizers)
      (going : job.isCompleted = false) {reads : List Event} {config : RepoConfig}
      {s : PipelineJobStatus} (reflected : Course (reflect now job) reads (.ok (config, s)))
      (e : Error) :
      JobCourse hasStore now job
        (reads ++ [⟨.cluster (.patchJobStatus job s), .error e⟩, ⟨.notify (job.withStatus s), ()⟩])
        (.error e)
  /-- The new status is stored, and reported if the state is another. -/
  | saved (alive : job.isDeleting = false) (own : jobFinalizer ∈ job.finalizers)
      (going : job.isCompleted = false) {reads report : List Event} {config : RepoConfig}
      {s : PipelineJobStatus} (reflected : Course (reflect now job) reads (.ok (config, s)))
      (reported : Course (reportIfNew hasStore job config s) report (.ok ())) :
      JobCourse hasStore now job
        (reads ++ ⟨.cluster (.patchJobStatus job s), .ok ()⟩ :: report ++
          [⟨.notify (job.withStatus s), ()⟩])
        (.ok .awaitChange)

/-! The finalizer protocol in its four cases. -/

theorem followFinalizer_new (alive : job.isDeleting = false) (new : jobFinalizer ∉ job.finalizers) :
    followFinalizer job = (do
      askCluster (.patchJobFinalizers job (job.finalizers ++ [jobFinalizer]))
      return .stop) := by
  have own : job.finalizers.contains jobFinalizer = false := by simpa using new
  simp only [followFinalizer, alive, own]

theorem followFinalizer_deleted (deleting : job.isDeleting = true)
    (own : jobFinalizer ∈ job.finalizers) :
    followFinalizer job = (do
      notify job
      askCluster (.patchJobFinalizers job (job.finalizers.erase jobFinalizer))
      return .stop) := by
  have own : job.finalizers.contains jobFinalizer = true := by simpa using own
  simp only [followFinalizer, deleting, own]

theorem followFinalizer_left (deleting : job.isDeleting = true)
    (foreign : jobFinalizer ∉ job.finalizers) : followFinalizer job = pure .stop := by
  have own : job.finalizers.contains jobFinalizer = false := by simpa using foreign
  simp only [followFinalizer, deleting, own]

theorem followFinalizer_kept (alive : job.isDeleting = false)
    (own : jobFinalizer ∈ job.finalizers) : followFinalizer job = pure .proceed := by
  have own : job.finalizers.contains jobFinalizer = true := by simpa using own
  simp only [followFinalizer, alive, own]

/-! The ways of the parts of a pass that write. -/

theorem course_patchFailed {e : Error} {r : Except Error Unit} :
    Course (patchFailed job e) es r ↔
      r = .ok () ∧ ∃ o, es = [⟨.cluster (.patchJobStatus job (forcedFailure job e)), o⟩] := by
  constructor
  · intro h
    obtain ⟨first, o, second, rfl, asked, rest⟩ := course_attempt_bind.mp h
    obtain ⟨rfl, rfl⟩ := course_pure.mp rest
    obtain rfl := course_askCluster.mp asked
    exact ⟨rfl, o, rfl⟩
  · rintro ⟨rfl, o, rfl⟩
    exact course_attempt_bind.mpr
      ⟨_, o, [], rfl, course_askCluster.mpr rfl, course_pure.mpr ⟨rfl, rfl⟩⟩

/-- A pass that fails in the finalizer protocol ends with a forced failure. -/
theorem course_failed {e : Error} {r : Except Error Schedule} :
    Course (do patchFailed job e; return .awaitChange) es r ↔
      r = .ok .awaitChange ∧
        ∃ o, es = [⟨.cluster (.patchJobStatus job (forcedFailure job e)), o⟩] := by
  constructor
  · intro h
    rcases course_bind.mp h with ⟨e, -, failed⟩ | ⟨write, a, rest, rfl, failed, ended⟩
    · cases (course_patchFailed.mp failed).1
    · obtain ⟨-, o, rfl⟩ := course_patchFailed.mp failed
      obtain ⟨rfl, rfl⟩ := course_pure.mp ended
      exact ⟨rfl, o, rfl⟩
  · rintro ⟨rfl, o, rfl⟩
    exact course_bind.mpr (.inr ⟨_, (), [], rfl, course_patchFailed.mpr ⟨rfl, o, rfl⟩,
      course_pure.mpr ⟨rfl, rfl⟩⟩)

theorem course_persist {r : Except Error Unit} :
    Course (persist hasStore job config s) es r ↔
      (∃ e, r = .error e ∧ es = [⟨.cluster (.patchJobStatus job s), .error e⟩]) ∨
      ∃ report, es = ⟨.cluster (.patchJobStatus job s), .ok ()⟩ :: report ∧ r = .ok () ∧
        Course (reportIfNew hasStore job config s) report (.ok ()) := by
  rw [persist, course_askCluster_bind]
  refine or_congr_right ⟨?_, ?_⟩
  · rintro ⟨a, report, rfl, reported⟩
    obtain rfl : r = .ok () := (course_reportIfNew reported).2
    exact ⟨report, rfl, rfl, reported⟩
  · rintro ⟨report, rfl, rfl, reported⟩
    exact ⟨(), report, rfl, reported⟩

theorem course_updateStatus {r : Except Error Unit} (alive : job.isDeleting = false)
    (own : jobFinalizer ∈ job.finalizers) (going : job.isCompleted = false)
    (h : Course (updateStatus hasStore now job) es r) :
    JobCourse hasStore now job es (r.map fun _ => .awaitChange) := by
  unfold updateStatus at h
  obtain ⟨reads, outcome, rest, rfl, reflected, after⟩ := course_attempt_bind.mp h
  split at after
  · rcases course_bind.mp after with ⟨e, -, failed⟩ | ⟨write, a, told, rfl, failed, notified⟩
    · cases (course_patchFailed.mp failed).1
    obtain ⟨-, o, rfl⟩ := course_patchFailed.mp failed
    obtain ⟨rfl, rfl⟩ := course_notify.mp notified
    exact .unreflected alive own going reflected o
  · obtain ⟨written, outcome, told, rfl, persisted, notified⟩ := course_attempt_bind.mp after
    rcases course_bind.mp notified with ⟨e, -, failed⟩ | ⟨first, a, last, rfl, told, passed⟩
    · cases (course_notify.mp failed).2
    obtain ⟨rfl, -⟩ := course_notify.mp told
    obtain ⟨rfl, rfl⟩ := course_lift.mp passed
    rcases course_persist.mp persisted with ⟨e, rfl, rfl⟩ | ⟨report, rfl, rfl, reported⟩
    · exact .unsaved alive own going reflected e
    · rw [List.append_nil, ← List.append_assoc]
      exact .saved alive own going reflected reported

/-- A pass goes in one of the ways that `JobCourse` lists. -/
theorem JobCourse.of_course {r : Except Error Schedule}
    (h : Course (reconcileJob hasStore now job) es r) : JobCourse hasStore now job es r := by
  unfold reconcileJob at h
  obtain ⟨first, flow, rest, rfl, followed, after⟩ := course_attempt_bind.mp h
  -- The four cases of the finalizer protocol; only the first one goes on to the status.
  cases deleting : job.isDeleting <;> by_cases own : jobFinalizer ∈ job.finalizers
  · rw [followFinalizer_kept deleting own] at followed
    obtain ⟨rfl, rfl⟩ := course_pure.mp followed
    rw [List.nil_append]
    dsimp only at after
    split at after
    · rename_i done
      obtain ⟨rfl, rfl⟩ := course_pure.mp after
      exact .completed deleting own done
    · rename_i going
      rw [Bool.not_eq_true] at going
      rcases course_bind.mp after with ⟨e, rfl, failed⟩ | ⟨pass, a, last, rfl, updated, ended⟩
      · exact course_updateStatus deleting own going failed
      · obtain ⟨rfl, rfl⟩ := course_pure.mp ended
        rw [List.append_nil]
        exact course_updateStatus deleting own going updated
  · rw [followFinalizer_new deleting own] at followed
    rcases course_askCluster_bind.mp followed with ⟨e, rfl, rfl⟩ | ⟨a, last, rfl, stopped⟩
    · obtain ⟨rfl, o, rfl⟩ := course_failed.mp after
      exact .unclaimed deleting own e o
    · obtain ⟨rfl, rfl⟩ := course_pure.mp stopped
      obtain ⟨rfl, rfl⟩ := course_pure.mp after
      exact .claimed deleting own
  · rw [followFinalizer_deleted deleting own] at followed
    rcases course_bind.mp followed with ⟨e, -, failed⟩ | ⟨told, a, asked, rfl, notified, patched⟩
    · cases (course_notify.mp failed).2
    obtain ⟨rfl, -⟩ := course_notify.mp notified
    rcases course_askCluster_bind.mp patched with ⟨e, rfl, rfl⟩ | ⟨a, last, rfl, stopped⟩
    · obtain ⟨rfl, o, rfl⟩ := course_failed.mp after
      exact .unreleased deleting own e o
    · obtain ⟨rfl, rfl⟩ := course_pure.mp stopped
      obtain ⟨rfl, rfl⟩ := course_pure.mp after
      exact .released deleting own
  · rw [followFinalizer_left deleting own] at followed
    obtain ⟨rfl, rfl⟩ := course_pure.mp followed
    obtain ⟨rfl, rfl⟩ := course_pure.mp after
    exact .left deleting own

theorem course_of_updateStatus {o : Except Error Unit} (alive : job.isDeleting = false)
    (own : jobFinalizer ∈ job.finalizers) (going : job.isCompleted = false)
    (h : Course (updateStatus hasStore now job) es o) :
    Course (reconcileJob hasStore now job) es (o.map fun _ => .awaitChange) := by
  unfold reconcileJob
  refine course_attempt_bind.mpr ⟨[], .ok .proceed, es, rfl, ?_, ?_⟩
  · rw [followFinalizer_kept alive own]
    exact course_pure.mpr ⟨rfl, rfl⟩
  · simp only [going, Bool.false_eq_true, if_false]
    cases o with
    | error e => exact course_bind.mpr (.inl ⟨e, rfl, h⟩)
    | ok a =>
      exact course_bind.mpr (.inr ⟨es, a, [], by simp, h, course_pure.mpr ⟨rfl, rfl⟩⟩)

theorem course_updateStatus_ok {reads write : List Event} {o : Except Error Unit}
    (reflected : Course (reflect now job) reads (.ok (config, s)))
    (written : Course (persist hasStore job config s) write o) :
    Course (updateStatus hasStore now job)
      (reads ++ (write ++ [⟨.notify (job.withStatus s), ()⟩])) o := by
  unfold updateStatus
  refine course_attempt_bind.mpr ⟨reads, _, _, rfl, reflected, ?_⟩
  refine course_attempt_bind.mpr ⟨write, _, _, rfl, written, ?_⟩
  exact course_bind.mpr
    (.inr ⟨[_], (), [], rfl, course_notify.mpr ⟨rfl, rfl⟩, course_lift.mpr ⟨rfl, rfl⟩⟩)

/-- A pass can go in each of the ways that `JobCourse` lists. -/
theorem JobCourse.course {r : Except Error Schedule} (h : JobCourse hasStore now job es r) :
    Course (reconcileJob hasStore now job) es r := by
  cases h with
  | claimed alive new =>
    refine course_attempt_bind.mpr ⟨[_], .ok .stop, [], rfl, ?_, course_pure.mpr ⟨rfl, rfl⟩⟩
    rw [followFinalizer_new alive new]
    exact course_askCluster_bind.mpr (.inr ⟨(), [], rfl, course_pure.mpr ⟨rfl, rfl⟩⟩)
  | unclaimed alive new e o =>
    refine course_attempt_bind.mpr ⟨[_], .error e, _, rfl, ?_, course_failed.mpr ⟨rfl, o, rfl⟩⟩
    rw [followFinalizer_new alive new]
    exact course_askCluster_bind.mpr (.inl ⟨e, rfl, rfl⟩)
  | released deleting own =>
    refine course_attempt_bind.mpr ⟨[_, _], .ok .stop, [], rfl, ?_, course_pure.mpr ⟨rfl, rfl⟩⟩
    rw [followFinalizer_deleted deleting own]
    refine course_bind.mpr (.inr ⟨[_], (), [_], rfl, course_notify.mpr ⟨rfl, rfl⟩, ?_⟩)
    exact course_askCluster_bind.mpr (.inr ⟨(), [], rfl, course_pure.mpr ⟨rfl, rfl⟩⟩)
  | unreleased deleting own e o =>
    refine course_attempt_bind.mpr
      ⟨[_, _], .error e, _, rfl, ?_, course_failed.mpr ⟨rfl, o, rfl⟩⟩
    rw [followFinalizer_deleted deleting own]
    refine course_bind.mpr (.inr ⟨[_], (), [_], rfl, course_notify.mpr ⟨rfl, rfl⟩, ?_⟩)
    exact course_askCluster_bind.mpr (.inl ⟨e, rfl, rfl⟩)
  | left deleting foreign =>
    refine course_attempt_bind.mpr ⟨[], .ok .stop, [], rfl, ?_, course_pure.mpr ⟨rfl, rfl⟩⟩
    rw [followFinalizer_left deleting foreign]
    exact course_pure.mpr ⟨rfl, rfl⟩
  | completed alive own done =>
    refine course_attempt_bind.mpr ⟨[], .ok .proceed, [], rfl, ?_, ?_⟩
    · rw [followFinalizer_kept alive own]
      exact course_pure.mpr ⟨rfl, rfl⟩
    · simp [done]
  | @unreflected alive own going reads e failed o =>
    refine course_of_updateStatus (o := .ok ()) alive own going ?_
    refine course_attempt_bind.mpr ⟨reads, _, _, rfl, failed, ?_⟩
    exact course_bind.mpr (.inr
      ⟨[_], (), [_], rfl, course_patchFailed.mpr ⟨rfl, o, rfl⟩, course_notify.mpr ⟨rfl, rfl⟩⟩)
  | unsaved alive own going reflected e =>
    refine course_of_updateStatus (o := .error e) alive own going ?_
    exact course_updateStatus_ok reflected (course_persist.mpr (.inl ⟨e, rfl, rfl⟩))
  | @saved alive own going reads report config s reflected reported =>
    rw [List.append_assoc]
    refine course_of_updateStatus (o := .ok ()) alive own going ?_
    exact course_updateStatus_ok reflected (course_persist.mpr (.inr ⟨report, rfl, rfl, reported⟩))

end Gatehouse.Control
