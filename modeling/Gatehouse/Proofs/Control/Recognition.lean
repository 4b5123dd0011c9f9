import Gatehouse.Proofs.Control.LifeCycle
import Gatehouse.Proofs.Control.News

/-!
# A run that was made for a job

Making a run, starting a job and reflecting it agree on namespace, name and owner of a run. So the job
in all its later versions finds the run that was made for it, whatever the engine reports on it, and
no second one is asked for. A run of another owner is refused, and what a pass then stores of
the job is a forced failure of the version that it found.
-/

namespace Gatehouse.Control

open Program Resource

variable {hasStore : Bool} {now : Instant} {job later : PipelineJob} {config : RepoConfig}
  {run : PipelineRun} {w w' : World} {es : List Event}

/-- A version of a job at another time. -/
structure SameJob (job later : PipelineJob) : Prop where
  place : later.metadata.inNamespace = job.metadata.inNamespace
  name : later.metadata.name = job.metadata.name
  uid : later.metadata.uid = job.metadata.uid

theorem SameJob.runName_eq {name : String} (same : SameJob job later)
    (named : job.metadata.name = some name) : runName later = runName job := by
  simp [runName, Object.name, Metadata.knownName, same.name, named]

theorem SameJob.key_eq {name : String} (same : SameJob job later)
    (named : job.metadata.name = some name) : later.key = job.key := by
  have names : later.name = job.name := same.runName_eq named
  simp [Object.key, Metadata.knownNamespace, same.place, names]

theorem start_looksFor {ns : String} {o : Except Error Unit}
    (place : job.metadata.inNamespace = some ns) (started : Course (start job) es o) :
    LooksFor ns (runName job) es o := by
  rcases course_start started with ⟨e, rfl, look⟩ | ⟨config, run, rfl, look⟩ |
    ⟨config, reads, look, ⟨e, -, rfl, rfl⟩ | ⟨run, made, rfl⟩⟩
  · exact (look.looksFor place).error
  · exact .inl (look.looksFor place).ok
  · exact .inl (look.looksFor place).ok
  · have asked : runLookups reads = [(ns, runName job)] := (look.looksFor place).ok
    refine .inl ?_
    rw [runLookups, List.filterMap_append, ← runLookups, asked]
    rfl

theorem reflect_looksFor {ns : String} {r : Except Error (RepoConfig × PipelineJobStatus)}
    (place : job.metadata.inNamespace = some ns) (reflected : Course (reflect now job) es r) :
    LooksFor ns (runName job) es r := by
  rcases course_reflect reflected with ⟨e, rfl, look⟩ | ⟨config, run?, look, rfl⟩
  · exact (look.looksFor place).error
  · exact .inl (look.looksFor place).ok

/-- Where there is a run under the key of a job, starting the job asks for no run. -/
theorem start_once {o : Except Error Unit} (there : w.view.run? job.key = some run)
    (started : Course (start job) es o) (h : Follows World.May w es w') :
    runRequests es = [] ∧ w'.view = w.view := by
  have reads {looked : List Event} {r : Except Error (RepoConfig × Option PipelineRun)}
      (look : LookUp job looked r) (h : Follows World.May w looked w') :
      runRequests looked = [] ∧ w'.view = w.view :=
    ⟨runRequests_aside look.aside, (view_lookUp look h).1⟩
  rcases course_start started with ⟨e, -, look⟩ | ⟨config, run, -, look⟩ |
    ⟨config, looked, look, ⟨e, -, -, rfl⟩ | ⟨run, made, rfl⟩⟩
  · exact reads look h
  · exact reads look h
  · exact reads look h
  · -- A run is asked for only after the look found none.
    obtain ⟨w₁, looking, -⟩ := follows_append.mp h
    have absent : none = w.view.run? job.key := (view_lookUp look looking).2 config none rfl
    rw [there] at absent
    cases absent

/-- The job finds the run as its own. -/
structure Recognises (job : PipelineJob) (run : PipelineRun) : Prop where
  place : ∃ ns name, run.metadata.inNamespace = some ns ∧ run.metadata.name = some name ∧
    (∀ es o, Course (start job) es o → LooksFor ns name es o) ∧
    ∀ now es r, Course (reflect now job) es r → LooksFor ns name es r
  accepted : ∀ now config status, ∃ s,
    reflectStatus now (some { run with status }) job config = .ok s
  once : ∀ w w' es o, (w.view.run? run.key).isSome = true → Course (start job) es o →
    Follows World.May w es w' → runRequests es = [] ∧ w'.view = w.view

theorem recognises_generateRun {ns : String} (place : job.metadata.inNamespace = some ns)
    (made : generateRun job config = .ok run) (same : SameJob job later) :
    Recognises later run := by
  obtain ⟨named, placed⟩ := generateRun_metadata made
  obtain ⟨name, -, -, known, -⟩ := generateRun_owner made
  have later_place : later.metadata.inNamespace = some ns := same.place.trans place
  have later_name : runName later = runName job := same.runName_eq known
  have later_key : later.key = run.key := (same.key_eq known).trans (key_generateRun made).symm
  refine ⟨⟨ns, runName job, placed.trans place, named, ?_, ?_⟩, ?_, ?_⟩
  · intro es o started
    rw [← later_name]
    exact start_looksFor later_place started
  · intro now es r reflected
    rw [← later_name]
    exact reflect_looksFor later_place reflected
  · intro now config status
    -- The engine writes the status only, and the owner is in the metadata.
    have before : owns later run = true := owns_generateRun made same.uid
    have own : owns later { run with status } = true := before
    exact ⟨_, reflectStatus_own own⟩
  · intro w w' es o there started h
    obtain ⟨run', found⟩ := Option.isSome_iff_exists.mp there
    rw [← later_key] at found
    exact start_once found started h

/-- A pass over a job whose run is not its own stores and tells nothing but forced failures of the job
as it found it, which have the times that it had. -/
theorem pass_foreign {r : Except Error Schedule} (there : w.view.run? job.key = some run)
    (foreign : owns job run = false) (course : Course (reconcileJob hasStore now job) es r)
    (h : Follows World.May w es w') :
    (∀ s ∈ statusWrites es, ∃ e, s = forcedFailure job e) ∧
    ∀ p ∈ notifications es, p = job ∨ ∃ e, p = job.withStatus (forcedFailure job e) := by
  have unreflected {config : RepoConfig} {s : PipelineJobStatus} {reads rest : List Event}
      (reflected : Course (reflect now job) reads (.ok (config, s)))
      (h : Follows World.May w (reads ++ rest) w') : False := by
    have computed := reflect_follows reflected h
    rw [there, reflectStatus_foreign foreign] at computed
    cases computed
  cases JobCourse.of_course course with
  | claimed alive new => simp [statusWrites, notifications, Event.statusWrite?, Event.notified?]
  | unclaimed alive new e o =>
    simp [statusWrites, notifications, Event.statusWrite?, Event.notified?]
  | released deleting own =>
    simp [statusWrites, notifications, Event.statusWrite?, Event.notified?]
  | unreleased deleting own e o =>
    simp [statusWrites, notifications, Event.statusWrite?, Event.notified?]
  | left deleting elsewhere => simp [statusWrites, notifications]
  | completed alive own done => simp [statusWrites, notifications]
  | @unreflected alive own going reads e failed o =>
    have quiet := aside_reflect failed
    rw [statusWrites_append, statusWrites_aside quiet, notifications_append,
      notifications_aside quiet, List.nil_append, List.nil_append]
    refine ⟨by simp [statusWrites, Event.statusWrite?], ?_⟩
    intro p member
    obtain rfl : job.withStatus (forcedFailure job e) = p := by
      simpa [notifications, Event.notified?] using member
    exact .inr ⟨e, rfl⟩
  | unsaved alive own going reflected e => exact (unreflected reflected h).elim
  | saved alive own going reflected reported =>
    rw [List.append_assoc] at h
    exact (unreflected reflected h).elim

/-- A run is made for every job with a namespace, a name and an id, and every version of the job finds
it, takes it for its own whatever its status, and asks for no other. Reflection fails exactly on a run
without a reference to the id of the job, so on every run if the job has none; and the pass goes on
with the job as it was. -/
theorem generated_run_recognised :
    (∀ (job : PipelineJob) (config : RepoConfig) (ns name uid : String),
      job.metadata.inNamespace = some ns → job.metadata.name = some name →
      job.metadata.uid = some uid →
      ∃ run, generateRun job config = .ok run ∧
        run.metadata.inNamespace = some ns ∧ run.metadata.name = some name ∧
        ∀ later, SameJob job later → Recognises later run) ∧
    (∀ (now : Instant) (run? : Option PipelineRun) (job : PipelineJob) (config : RepoConfig),
      (∃ e, reflectStatus now run? job config = .error e) ↔
        ∃ run, run? = some run ∧
          ∀ owner ∈ run.metadata.owners, job.metadata.uid ≠ some owner.uid) ∧
    (∀ (now : Instant) (run : PipelineRun) (job : PipelineJob) (config : RepoConfig),
      job.metadata.uid = none →
      reflectStatus now (some run) job config = .error (foreignRun job run)) ∧
    ∀ (hasStore : Bool) (now : Instant) (job : PipelineJob) (run : PipelineRun) (w w' : World)
      (es : List Event) (r : Except Error Schedule),
      w.view.run? job.key = some run → owns job run = false →
      Course (reconcileJob hasStore now job) es r → Follows World.May w es w' →
      (∀ s ∈ statusWrites es, ∃ e, s = forcedFailure job e) ∧
      ∀ p ∈ notifications es, p = job ∨ ∃ e, p = job.withStatus (forcedFailure job e) := by
  refine ⟨?_, ?_, ?_, ?_⟩
  · intro job config ns name uid place named known
    obtain ⟨run, made⟩ := exists_generateRun named known config
    obtain ⟨run_name, run_place⟩ := generateRun_metadata made
    have name_eq : runName job = name := by
      simp [runName, Object.name, Metadata.knownName, named]
    refine ⟨run, made, run_place.trans place, ?_, ?_⟩
    · rw [run_name, name_eq]
    · exact fun later same => recognises_generateRun place made same
  · intro now run? job config
    constructor
    · rintro ⟨e, failed⟩
      obtain ⟨run, rfl, foreign, -⟩ := reflectStatus_eq_error_iff.mp failed
      exact ⟨run, rfl, owns_eq_false_iff.mp foreign⟩
    · rintro ⟨run, rfl, foreign⟩
      exact ⟨_, reflectStatus_foreign (owns_eq_false_iff.mpr foreign)⟩
  · intro now run job config unknown
    refine reflectStatus_foreign (owns_eq_false_iff.mpr ?_)
    simp [unknown]
  · intro hasStore now job run w w' es r there foreign course h
    exact pass_foreign there foreign course h

/-- The waiting build knows its run while that is going on; a run of another job makes it fail. -/
theorem generated_run_recognised_waiting :
    (∃ run, generateRun waitingBuild buildConfig = .ok run ∧ run.key = "ci/a" ∧
      Recognises runningBuild run) ∧
    owns waitingBuild (buildRun "b-uid" []) = false ∧
    (reviewed [] (some (buildRun "b-uid" [])) waitingBuild).jobStatus =
      forcedFailure waitingBuild (foreignRun waitingBuild (buildRun "b-uid" [])) ∧
    ∃ es r w', Course (reconcileJob false default waitingBuild) es r ∧
      Follows World.May (workshop [] (some (buildRun "b-uid" [])) waitingBuild) es w' ∧
      ∀ s ∈ statusWrites es, ∃ e, s = forcedFailure waitingBuild e := by
  obtain ⟨made, -, -, untouched⟩ := generated_run_recognised
  refine ⟨?_, by decide, by decide, ?_⟩
  · obtain ⟨run, ready, place, named, known⟩ :=
      made waitingBuild buildConfig "ci" "a" "a-uid" rfl rfl rfl
    refine ⟨run, ready, ?_, known runningBuild ⟨by decide, by decide, by decide⟩⟩
    simp [Object.key, Object.name, Metadata.knownName, Metadata.knownNamespace, place, named, keyOf]
  · obtain ⟨es, path, follows⟩ := path_run World.May (World.answer default)
      (World.may_answer default) (reconcileJob false default waitingBuild).run
      (workshop [] (some (buildRun "b-uid" [])) waitingBuild)
    refine ⟨es, _, _, path, follows, ?_⟩
    exact (untouched false default waitingBuild (buildRun "b-uid" []) _ _ es _ rfl (by decide) path
      follows).1

end Gatehouse.Control
