import Gatehouse.Proofs.Control.CheckReport

/-!
# How passes over jobs fail

A pass can be refused at every request, and what comes of it depends on where. It fails only if the
status that it computed cannot be stored, and with just that error; every other failure is put into
the status of the job, or let go of (`failures_reconcileJob`). So a failure never gives rise to more
than one attempt to write finalizers and one to write a status, nor to a status check.
-/

namespace Gatehouse.Control

open Program Resource

variable {hasStore : Bool} {now : Instant} {job : PipelineJob} {es reads : List Event} {e : Error}
  {r : Except Error Schedule}

/-- A pass that fails has reflected, and the cluster refused to store what it computed. -/
theorem JobCourse.of_error (h : JobCourse hasStore now job es (.error e)) :
    ∃ reads config s, Reflects now job es reads (.ok (config, s)) ∧
      reads ++ [⟨.cluster (.patchJobStatus job s), .error e⟩] <+: es := by
  cases h with
  | @unsaved alive own going reads config s reflected e =>
    refine ⟨reads, config, s, ⟨proceeds_iff.mpr ⟨alive, own⟩, going, ?_, reflected⟩, ?_⟩
    · exact List.prefix_append _ _
    · exact ⟨[⟨.notify (job.withStatus s), ()⟩], by simp⟩

/-- If the status that was computed cannot be stored, the pass fails for that reason. -/
theorem JobCourse.error_of_refused {config : RepoConfig} {s : PipelineJobStatus}
    (h : JobCourse hasStore now job es r) (reflects : Reflects now job es reads (.ok (config, s)))
    (refused : reads ++ [⟨.cluster (.patchJobStatus job s), .error e⟩] <+: es) :
    r = .error e := by
  obtain ⟨rest, rfl, after⟩ := h.aftermath reflects
  obtain ⟨last, same⟩ := refused
  rw [List.append_assoc] at same
  have same := List.append_cancel_left same
  cases after with
  | unsaved =>
    cases same
    rfl
  | saved => cases same

/-- A pass that fails has posted no status check. -/
theorem JobCourse.unposted_of_error (h : JobCourse hasStore now job es (.error e)) :
    checks es = [] := by
  refine h.reportable.resolve_right ?_
  rintro ⟨client, s, reportable⟩
  cases (reportable.posted h).2.1

theorem JobCourse.awaits_or_fails (h : JobCourse hasStore now job es r) :
    r = .ok .awaitChange ∨ ∃ e, r = .error e := by
  cases h with
  | unsaved _ _ _ _ e => exact .inr ⟨e, rfl⟩
  | claimed | unclaimed | released | unreleased | left | completed | unreflected | saved =>
    exact .inl rfl

/-! What a pass writes. -/

/-- A status is all that is written between reading and telling the queue. -/
theorem writes_between {s : PipelineJobStatus} (quiet : ∀ e ∈ reads, e.Aside)
    (report : List Event) (aside : ∀ e ∈ report, e.Aside) (o : Except Error Unit)
    (told : PipelineJob) :
    let es := reads ++ ⟨.cluster (.patchJobStatus job s), o⟩ :: (report ++ [⟨.notify told, ()⟩])
    finalizerWrites es = [] ∧ finalizerRefusals es = [] ∧ statusWrites es = [s] := by
  refine ⟨?_, ?_, ?_⟩
  · rw [finalizerWrites_append, finalizerWrites_aside quiet]
    change finalizerWrites (report ++ [_]) = []
    rw [finalizerWrites_append, finalizerWrites_aside aside]
    rfl
  · rw [finalizerRefusals_append, finalizerRefusals_aside quiet]
    change finalizerRefusals (report ++ [_]) = []
    rw [finalizerRefusals_append, finalizerRefusals_aside aside]
    rfl
  · rw [statusWrites_append, statusWrites_aside quiet]
    change s :: statusWrites (report ++ [_]) = [s]
    rw [statusWrites_append, statusWrites_aside aside]
    rfl

/-- A pass writes finalizers, or a status, or a forced failure after finalizers that were refused,
or nothing. -/
theorem JobCourse.writes (h : JobCourse hasStore now job es r) :
    (∃ fs, finalizerWrites es = [fs] ∧ finalizerRefusals es = [] ∧ statusWrites es = []) ∨
    (∃ s, finalizerWrites es = [] ∧ finalizerRefusals es = [] ∧ statusWrites es = [s]) ∨
    (∃ fs e, finalizerWrites es = [fs] ∧ finalizerRefusals es = [e] ∧
      statusWrites es = [forcedFailure job e]) ∨
    finalizerWrites es = [] ∧ finalizerRefusals es = [] ∧ statusWrites es = [] := by
  cases h with
  | claimed | released => exact .inl ⟨_, rfl, rfl, rfl⟩
  | unclaimed _ _ e | unreleased _ _ e => exact .inr (.inr (.inl ⟨_, e, rfl, rfl, rfl⟩))
  | left | completed => exact .inr (.inr (.inr ⟨rfl, rfl, rfl⟩))
  | unreflected _ _ _ failed o =>
    exact .inr (.inl ⟨_, writes_between (aside_reflect failed) [] (by simp) o _⟩)
  | unsaved _ _ _ reflected e =>
    exact .inr (.inl ⟨_, writes_between (aside_reflect reflected) [] (by simp) (.error e) _⟩)
  | saved _ _ _ reflected reported =>
    rw [List.append_assoc]
    exact .inr (.inl ⟨_, writes_between (aside_reflect reflected) _
      (course_reportIfNew reported).1 (.ok ()) _⟩)

/-- So no pass writes twice, and one that writes both was refused the finalizers. -/
theorem JobCourse.writes_few (h : JobCourse hasStore now job es r) :
    (finalizerWrites es).length ≤ 1 ∧ (statusWrites es).length ≤ 1 ∧
    (finalizerWrites es ≠ [] ∧ statusWrites es ≠ [] ↔ finalizerRefusals es ≠ []) := by
  rcases h.writes with ⟨fs, listed, refused, written⟩ | ⟨s, listed, refused, written⟩ |
    ⟨fs, e, listed, refused, written⟩ | ⟨listed, refused, written⟩
  all_goals simp [listed, refused, written]

/-- A pass that could not reflect writes the failure into the status, and no other one. -/
theorem JobCourse.writes_of_unreflected (h : JobCourse hasStore now job es r)
    (failed : Reflects now job es reads (.error e)) : statusWrites es = [forcedFailure job e] := by
  obtain ⟨rest, rfl, after⟩ := h.aftermath failed
  cases after with
  | forced _ o => exact (writes_between (aside_reflect failed.course) [] (by simp) o _).2.2

/-- A pass fails exactly if the finalizer protocol lets it go on, the job has not ended, reflection
succeeds and the cluster then refuses to store the status, and it fails with that refusal. It has
not posted a status check then. In all other cases it waits for the job to change. It writes
finalizers at most once and a status at most once, and both only after the finalizers were refused.
Reflection fails exactly where one of its look-ups does or finds something else than it should, and then
the one status that is written says that the job failed and why, and keeps its times. -/
theorem failures_reconcileJob (h : Course (reconcileJob hasStore now job) es r) :
    (∀ e, r = .error e ↔ ∃ reads config s, Reflects now job es reads (.ok (config, s)) ∧
      reads ++ [⟨.cluster (.patchJobStatus job s), .error e⟩] <+: es) ∧
    (∀ e, r = .error e → checks es = []) ∧
    (r = .ok .awaitChange ∨ ∃ e, r = .error e) ∧
    (finalizerWrites es).length ≤ 1 ∧ (statusWrites es).length ≤ 1 ∧
    (finalizerWrites es ≠ [] ∧ statusWrites es ≠ [] ↔ finalizerRefusals es ≠ []) ∧
    ∀ reads e, (Course (reflect now job) reads (.error e) ↔ Unreflected job reads e) ∧
      (Course (followFinalizer job) [] (.ok .proceed) → job.isCompleted = false → reads <+: es →
        Unreflected job reads e → ∃ s, statusWrites es = [s] ∧ s.state = .failed ∧
          s.message = e.message ∧ s.startTime = job.jobStatus.startTime ∧
          s.completionTime = job.jobStatus.completionTime) := by
  have course : JobCourse hasStore now job es r := .of_course h
  obtain ⟨finalizersOnce, statusOnce, both⟩ := course.writes_few
  refine ⟨?_, ?_, course.awaits_or_fails, finalizersOnce, statusOnce, both, ?_⟩
  · intro e
    constructor
    · rintro rfl
      exact course.of_error
    · rintro ⟨reads, config, s, reflects, refused⟩
      exact course.error_of_refused reflects refused
  · rintro e rfl
    exact course.unposted_of_error
  · refine fun reads e => ⟨course_reflect_error, fun proceeds going starts failed => ?_⟩
    have reflects : Reflects now job es reads (.error e) := ⟨proceeds, going, starts, failed.course⟩
    exact ⟨forcedFailure job e, course.writes_of_unreflected reflects, rfl, rfl, rfl, rfl⟩

/-- The waiting build has no run yet, and its status cannot be stored. -/
theorem failures_reconcileJob_unsaved :
    ∃ es, Course (reconcileJob false default waitingBuild) es (.error (.store "conflict")) ∧
      (∃ reads config s, Reflects default waitingBuild es reads (.ok (config, s)) ∧
        reads ++ [⟨.cluster (.patchJobStatus waitingBuild s), .error (.store "conflict")⟩] <+: es) ∧
      checks es = [] := by
  let s := statusWithoutRun default "build" waitingBuild.jobStatus
  let reads : List Event :=
    [⟨.cluster (.getConfig "ci" "repo"), .ok (some buildConfig)⟩,
      ⟨.cluster (.getRun "ci" "a"), .ok none⟩]
  let es : List Event := reads ++
    [⟨.cluster (.patchJobStatus waitingBuild s), .error (.store "conflict")⟩,
      ⟨.notify (waitingBuild.withStatus s), ()⟩]
  have reflected : Course (reflect default waitingBuild) reads (.ok (buildConfig, s)) :=
    .ask _ _ (.ask _ _ (.done _))
  have course : Course (reconcileJob false default waitingBuild) es (.error (.store "conflict")) :=
    (JobCourse.unsaved rfl (by decide) rfl reflected _).course
  obtain ⟨fails, unposted, -⟩ := failures_reconcileJob course
  exact ⟨es, course, (fails _).mp rfl, unposted _ rfl⟩

end Gatehouse.Control
