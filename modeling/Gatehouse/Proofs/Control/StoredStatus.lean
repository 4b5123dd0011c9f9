import Gatehouse.Proofs.Cluster.Document
import Gatehouse.Proofs.Control.ConfigCourse
import Gatehouse.Proofs.Control.LifeCycle
import Gatehouse.Proofs.Resource.StatusDocument

/-!
# What is stored of a status

The status that is computed for a job or a config is sent as a merge patch. A merge cannot take
anything away, so it stores the status as computed only because no computation takes back a time
that the object has. Then reading the patched document gives the object with exactly the new status
(`status_stored`), whatever else the document has, and however its old status was written.
-/

namespace Gatehouse

open Resource Json

namespace Control

open Program Cluster

variable {now : Instant} {job : PipelineJob} {config : RepoConfig} {run : Option PipelineRun}
  {s : PipelineJobStatus} {r : PipelineRunStatus} {members : List (String × Json)}

/-- The times that the run of a job tells, if there is one. -/
def runTimes (run : Option PipelineRun) : List Instant :=
  run.toList.flatMap fun run => (run.status.getD {}).times

/-! Jobs. -/

theorem keepsTimes_forcedFailure (job : PipelineJob) (e : Error) :
    job.jobStatus.KeepsTimes (forcedFailure job e) := ⟨id, id⟩

theorem keepsTimes_statusWithoutRun (now : Instant) (pipeline : String) (s : PipelineJobStatus) :
    s.KeepsTimes (statusWithoutRun now pipeline s) := by
  unfold statusWithoutRun
  split
  · exact ⟨id, nofun⟩
  · exact ⟨id, id⟩
  · exact ⟨id, id⟩

theorem keepsTimes_statusOfRun (now : Instant) (r : PipelineRunStatus) (s : PipelineJobStatus) :
    s.KeepsTimes (statusOfRun now r s) := by
  obtain ⟨start, outcome⟩ := statusOfRun_cases now r s
  constructor
  · intro unset
    rw [start] at unset
    cases unset
  · intro unset
    rcases outcome with ⟨-, same⟩ | ⟨-, ended⟩
    · exact same.symm.trans unset
    · rw [ended] at unset
      cases unset

/-- What a run tells takes back no time of its job. -/
theorem keepsTimes_reflectStatus (computed : reflectStatus now run job config = .ok s) :
    job.jobStatus.KeepsTimes s := by
  rcases reflectStatus_ok computed with ⟨-, rfl⟩ | ⟨r, -, rfl⟩
  · exact keepsTimes_statusWithoutRun now _ _
  · exact keepsTimes_statusOfRun now _ _

theorem inRange_getD {time : Option Instant} {otherwise : Instant}
    (inRange : ∀ t ∈ time, t.date.inRange = true) (default : otherwise.date.inRange = true) :
    (time.getD otherwise).date.inRange = true := by
  cases time with
  | none => exact default
  | some t => exact inRange t rfl

theorem inRange_statusWithoutRun (clock : now.date.inRange = true) (pipeline : String)
    (known : Instant.InRange s.times) :
    Instant.InRange (statusWithoutRun now pipeline s).times := by
  obtain ⟨start, completion⟩ := Instant.inRange_append.mp known
  unfold statusWithoutRun
  split
  · refine Instant.inRange_append.mpr ⟨start, ?_⟩
    rintro t ⟨rfl⟩
    exact clock
  · exact known
  · exact known

theorem inRange_statusOfRun (clock : now.date.inRange = true) (told : Instant.InRange r.times)
    (known : Instant.InRange s.times) : Instant.InRange (statusOfRun now r s).times := by
  obtain ⟨start, outcome⟩ := statusOfRun_cases now r s
  obtain ⟨runStart, runCompletion⟩ := Instant.inRange_append.mp told
  obtain ⟨oldStart, oldCompletion⟩ := Instant.inRange_append.mp known
  refine Instant.inRange_append.mpr ⟨?_, ?_⟩
  · rw [start]
    rintro t ⟨rfl⟩
    exact inRange_getD oldStart (inRange_getD runStart clock)
  · rcases outcome with ⟨-, same⟩ | ⟨-, ended⟩
    · rw [same]
      exact oldCompletion
    · rw [ended]
      rintro t ⟨rfl⟩
      exact inRange_getD runCompletion clock

theorem inRange_reflectStatus (clock : now.date.inRange = true)
    (told : Instant.InRange (runTimes run)) (known : Instant.InRange job.jobStatus.times)
    (computed : reflectStatus now run job config = .ok s) : Instant.InRange s.times := by
  rcases reflectStatus_ok computed with ⟨-, rfl⟩ | ⟨r, rfl, rfl⟩
  · exact inRange_statusWithoutRun clock _ known
  · refine inRange_statusOfRun clock ?_ known
    simpa [runTimes] using told

/-- A status that is computed for a stored job can be stored as it is. -/
theorem job_status_stored (clock : now.date.inRange = true)
    (told : Instant.InRange (runTimes run))
    (stored : PipelineJob.ofJson? (.obj members) = some job)
    (computed : reflectStatus now run job config = .ok s ∨ ∃ e, s = forcedFailure job e) :
    PipelineJob.ofJson? (mergePatch (.obj members) (statusPatch s.toJson)) =
      some (job.withStatus s) := by
  have known := PipelineJob.inRange_of_ofJson? stored
  rcases computed with computed | ⟨e, rfl⟩
  · exact PipelineJob.ofJson?_statusPatch stored (keepsTimes_reflectStatus computed)
      (inRange_reflectStatus clock told known computed)
  · exact PipelineJob.ofJson?_statusPatch stored (keepsTimes_forcedFailure job e) known

/-! Configs. -/

theorem time_of_mem_setIn {c d : Condition} {cs : List Condition}
    (member : d ∈ RepoConfigStatus.setIn c cs) :
    d.lastTransitionTime = c.lastTransitionTime ∨
      ∃ old ∈ cs, d.lastTransitionTime = old.lastTransitionTime := by
  induction cs with
  | nil => exact .inl (congrArg _ (List.mem_singleton.mp member))
  | cons first rest ih =>
    rw [RepoConfigStatus.setIn] at member
    split at member
    · rcases List.mem_cons.mp member with rfl | member
      · unfold RepoConfigStatus.replacing
        split
        · exact .inr ⟨first, List.mem_cons_self .., rfl⟩
        · exact .inl rfl
      · exact .inr ⟨d, List.mem_cons_of_mem _ member, rfl⟩
    · rcases List.mem_cons.mp member with rfl | member
      · exact .inr ⟨d, List.mem_cons_self .., rfl⟩
      · refine (ih member).imp_right ?_
        rintro ⟨old, listed, same⟩
        exact ⟨old, List.mem_cons_of_mem _ listed, same⟩

theorem inRange_set {c : Condition} {old : RepoConfigStatus}
    (new : ∀ t ∈ c.lastTransitionTime, t.date.inRange = true)
    (known : Instant.InRange old.times) : Instant.InRange (old.set c).times := by
  intro t member
  obtain ⟨d, listed, time⟩ := List.mem_filterMap.mp member
  rcases time_of_mem_setIn listed with same | ⟨before, listed, same⟩
  · exact new t (same ▸ time)
  · exact known t (List.mem_filterMap.mpr ⟨before, listed, same ▸ time⟩)

theorem inRange_renewed (clock : now.date.inRange = true) (f : Finding) {old : RepoConfigStatus}
    (known : Instant.InRange old.times) : Instant.InRange (renewed now f old).times := by
  have dated : ∀ t ∈ some now, t.date.inRange = true := by
    rintro t ⟨rfl⟩
    exact clock
  have readied (registered : Bool) :
      (readyCondition now registered).lastTransitionTime = some now := by
    cases registered <;> rfl
  have ready {s : RepoConfigStatus} (inRange : Instant.InRange s.times) :
      Instant.InRange (withReady now s).times := by
    refine inRange_set ?_ inRange
    rw [readied]
    exact dated
  by_cases registered : old.isTrue webhookRegistered = true
  · rw [renewed_registered f registered]
    exact ready known
  · rw [renewed_unregistered f registered]
    exact ready (inRange_set dated known)

/-- A pass over a config writes its status in the light of a finding, and no other. -/
theorem written_config {env : Surroundings} {es : List Event} {r : Except Error Schedule}
    {c : RepoConfig} {s : RepoConfigStatus} {o : Except Error Unit}
    (course : Course (reconcileConfig env now config) es r)
    (asked : ⟨.cluster (.patchConfigStatus c s), o⟩ ∈ es) :
    c = config ∧ ∃ f, s = renewed now f (knownStatus config) := by
  have quiet {es : List Event} (aside : ∀ e ∈ es, e.Aside)
      (asked : ⟨.cluster (.patchConfigStatus c s), o⟩ ∈ es) : False := by
    cases aside _ asked
  cases ConfigCourse.of_course course with
  | unplaced nowhere => cases asked
  | claimed place alive new o' => cases List.mem_singleton.mp asked
  | released place deleting own deleted o' =>
    rcases List.mem_append.mp asked with asked | asked
    · exact (quiet (course_deleteHooks deleted).1 asked).elim
    · cases List.mem_singleton.mp asked
  | left place deleting foreign => cases asked
  | upToDate place alive own inspected same =>
    exact (quiet (aside_inspect inspected) asked).elim
  | @renewed ns place alive own reads f inspected changed o' =>
    rcases List.mem_append.mp asked with asked | asked
    · exact (quiet (aside_inspect inspected) asked).elim
    · cases List.mem_singleton.mp asked
      exact ⟨rfl, f, rfl⟩

/-- What the cluster keeps at a path after a request whose message is answered with `r`, if it takes
the patch. -/
def keptAfter (path : String) (d : Json) (q : Cluster.Query) (r : Http.Response) : Json :=
  (exchange q r).2.foldl (Message.applied path) d

/-- When the status that was computed for a stored job or config has been sent, the document that is
kept stands for the same object with exactly that status; metadata and spec are as before. For a job
this holds of the status that its run tells, or that there is none, and of the status of a failure,
and for a config of any status that a pass wants to store. The clock and the run tell times in the
years that a time may have; the object does so because it was read. -/
theorem status_stored (clock : now.date.inRange = true) :
    (∀ members job run config s, PipelineJob.ofJson? (.obj members) = some job →
      Instant.InRange (runTimes run) →
      (reflectStatus now run job config = .ok s ∨ ∃ e, s = forcedFailure job e) →
      PipelineJob.ofJson? (mergePatch (.obj members) (statusPatch s.toJson)) =
        some (job.withStatus s) ∧
      ∀ path r, placeOf pipelineJobKind job = .ok path →
        keptAfter path (.obj members) (.patchJobStatus job s) r =
          mergePatch (.obj members) (statusPatch s.toJson)) ∧
    (∀ members config env es r, RepoConfig.ofJson? (.obj members) = some config →
      Course (reconcileConfig env now config) es r →
      ∀ c s o, ⟨.cluster (.patchConfigStatus c s), o⟩ ∈ es →
        c = config ∧
        RepoConfig.ofJson? (mergePatch (.obj members) (statusPatch s.toJson)) =
          some (config.withStatus s) ∧
        ∀ path r, placeOf repoConfigKind config = .ok path →
          keptAfter path (.obj members) (.patchConfigStatus config s) r =
            mergePatch (.obj members) (statusPatch s.toJson)) := by
  constructor
  · intro members job run config s stored told computed
    refine ⟨job_status_stored clock told stored computed, ?_⟩
    intro path r place
    rw [keptAfter, exchange_patchJobStatus, place]
    exact applied_patched_of_part path _ _ (.inr rfl) _
  · intro members config env es r stored course c s o asked
    obtain ⟨rfl, f, rfl⟩ := written_config course asked
    have inRange := inRange_renewed clock f (RepoConfig.inRange_of_ofJson? stored)
    refine ⟨rfl, RepoConfig.ofJson?_statusPatch stored inRange, ?_⟩
    intro path r place
    rw [keptAfter, exchange_patchConfigStatus, place]
    exact applied_patched_of_part path _ _ (.inr rfl) _

/-- A build that began to run half a second after five past three. -/
def begunBuild : PipelineJob :=
  let began : Instant :=
    { Instant.ofEpochSeconds 1704164700 with nanos := 500000000, nanos_lt := by decide }
  (queuedBuild "a").withStatus { state := .running, startTime := some began }

/-- The build as the cluster keeps it, with more fields than the controller knows. -/
def keptBuild : List (String × Json) :=
  [("kind", .str "PipelineJob"),
    ("metadata", .obj [("name", .str "a"), ("namespace", .str "ci"), ("uid", .str "a")]),
    ("spec", .obj [("configRef", .obj [("name", .str "repo")]),
      ("refs", .obj [("repository", .str "org/repo"), ("ref", .str "main"), ("sha", .str "")])]),
    ("status", .obj [("observed", .int 1), ("startTime", .str "2024-01-02T03:05:00.5Z"),
      ("state", .obj [("Running", .null)])]),
    ("extra", .bool true)]

/-- A config whose webhook is registered, and that is not known to be ready. -/
def hookedConfig : RepoConfig where
  metadata := {
    name := some "repo", inNamespace := some "ci"
    finalizers := some [configFinalizer] }
  spec := { git := { provider := .github, repository := "org/repo" }, pipelineRef := "build" }
  status := some ⟨[{ type := webhookRegistered, status := .holds }]⟩

/-- The config as the cluster keeps it. -/
def keptConfig : List (String × Json) :=
  [("metadata", .obj [("name", .str "repo"), ("namespace", .str "ci"),
      ("finalizers", .arr [.str configFinalizer])]),
    ("spec", .obj [("pipelineRef", .str "build"),
      ("git", .obj [("type", .str "github"), ("repository", .str "org/repo")])]),
    ("status", .obj [("conditions", .arr [.obj [("type", .str webhookRegistered),
      ("status", .str "True"), ("since", .int 3)]])])]

/-- The run of the build was deleted, and the config turns out to be ready. -/
theorem status_stored_deleted :
    (default : Instant).date.inRange = true ∧
    PipelineJob.ofJson? (.obj keptBuild) = some begunBuild ∧
    (∃ s, reflectStatus default none begunBuild hookedConfig = .ok s ∧ s.state = .failed ∧
      s.startTime = begunBuild.jobStatus.startTime ∧ s.completionTime = some default ∧
      PipelineJob.ofJson? (mergePatch (.obj keptBuild) (statusPatch s.toJson)) =
        some (begunBuild.withStatus s)) ∧
    RepoConfig.ofJson? (.obj keptConfig) = some hookedConfig ∧
    ∃ s es, Course (reconcileConfig ⟨{}, false⟩ default hookedConfig) es (.ok .awaitChange) ∧
      ⟨.cluster (.patchConfigStatus hookedConfig s), .ok ()⟩ ∈ es ∧ s.isTrue ready = true ∧
      RepoConfig.ofJson? (mergePatch (.obj keptConfig) (statusPatch s.toJson)) =
        some (hookedConfig.withStatus s) := by
  have clock : (default : Instant).date.inRange = true := by decide
  obtain ⟨jobs, configs⟩ := status_stored clock
  have job : PipelineJob.ofJson? (.obj keptBuild) = some begunBuild := rfl
  have config : RepoConfig.ofJson? (.obj keptConfig) = some hookedConfig := rfl
  have told : Instant.InRange (runTimes none) := nofun
  have computed : reflectStatus default none begunBuild hookedConfig = .ok _ := rfl
  have course : Course (reconcileConfig ⟨{}, false⟩ default hookedConfig)
      [⟨.cluster (.patchConfigStatus hookedConfig (withReady default (knownStatus hookedConfig))),
        .ok ()⟩] (.ok .awaitChange) := .ask _ _ (.done _)
  refine ⟨clock, job, ⟨_, computed, rfl, rfl, rfl, ?_⟩, config, _, _, course,
    List.mem_singleton_self _, by decide, ?_⟩
  · exact (jobs _ _ _ _ _ job told (.inl computed)).1
  · exact (configs _ _ _ _ _ config course _ _ _ (List.mem_singleton_self _)).2.1

end Control

end Gatehouse
