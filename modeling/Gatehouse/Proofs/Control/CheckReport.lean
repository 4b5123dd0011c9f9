import Gatehouse.Proofs.Control.LifeCycle
import Gatehouse.Proofs.Control.Reflection

/-!
# What is reported of a job

A pass that has stored a new status posts a status check on the commit of its job, if the state is
another than before, the job has a commit and there is a client (`Report`). So of the states that
passes store, those that reflection told are shown at the commit, once each, and what the provider
answers does not matter (`checks_reconcileJob`). A failure that the pass itself forces on a job is
stored and never shown (`forced_failure_unreported`).
-/

namespace Gatehouse.Control

open Program Resource

variable {hasStore : Bool} {now : Instant} {job : PipelineJob} {config : RepoConfig}
  {client : Git.Client} {s : PipelineJobStatus} {es : List Event} {r : Except Error Schedule}

/-! Status checks among events. -/

/-- A status check that a commit was to get, and the client that it was posted through. -/
structure PostedCheck where
  client : Git.Client
  sha : String
  check : Git.CommitStatus

/-- The status check that a commit was to get, whatever came of it. -/
def Event.check? : Event → Option PostedCheck
  | ⟨.git client (.setCommitStatus sha check), _⟩ => some ⟨client, sha, check⟩
  | _ => none

/-- The status checks that commits were to get, in order. -/
def checks (es : List Event) : List PostedCheck := es.filterMap Event.check?

/-- The status that a job got. -/
def Event.statusStored? : Event → Option PipelineJobStatus
  | ⟨.cluster (.patchJobStatus _ s), .ok _⟩ => some s
  | _ => none

/-- The statuses that jobs got, in order. -/
def statusesStored (es : List Event) : List PipelineJobStatus := es.filterMap Event.statusStored?

/-- The event as it would be if the provider had answered otherwise to a status check. -/
def Event.answered (o : Except Git.Error Unit) : Event → Event
  | ⟨.git client (.setCommitStatus sha check), _⟩ => ⟨.git client (.setCommitStatus sha check), o⟩
  | e => e

@[simp] theorem checks_append (first second : List Event) :
    checks (first ++ second) = checks first ++ checks second :=
  List.filterMap_append

theorem checks_eq_nil_iff : checks es = [] ↔ ∀ e ∈ es, e.check? = none :=
  List.filterMap_eq_nil_iff

theorem map_answered (o : Except Git.Error Unit) (unposted : checks es = []) :
    es.map (Event.answered o) = es := by
  have same : ∀ e ∈ es, e.answered o = id e := by
    intro e member
    have other := checks_eq_nil_iff.mp unposted e member
    unfold Event.answered
    split
    · cases other
    · rfl
  rw [List.map_congr_left same, List.map_id]

/-- The answer to a status check does not matter to what is stored. -/
theorem stored_answered (o : Except Git.Error Unit) (es : List Event) (cur : PipelineJob) :
    (es.map (Event.answered o)).foldl stored cur = es.foldl stored cur := by
  rw [List.foldl_map]
  congr 1
  funext cur e
  unfold Event.answered
  split <;> rfl

theorem checks_reads (reads : ∀ e ∈ es, Reads e.1) : checks es = [] := by
  refine checks_eq_nil_iff.mpr ?_
  rintro ⟨q, r⟩ member
  have asked : Reads q := reads _ member
  cases asked <;> rfl

theorem LookUp.unchecked {o : Except Error (RepoConfig × Option PipelineRun)}
    (h : LookUp job es o) : checks es = [] := by
  cases h <;> rfl

theorem checks_reflect {o : Except Error (RepoConfig × PipelineJobStatus)}
    (h : Course (reflect now job) es o) : checks es = [] := by
  rcases course_reflect h with ⟨e, -, looked⟩ | ⟨config, run?, looked, -⟩
  · exact looked.unchecked
  · exact looked.unchecked

/-! Reports. -/

theorem course_viaGit_ask {q : Git.Query} {o : Except Error q.Outcome} :
    Course (viaGit client (Git.ask q)) es o ↔ ∃ a, es = [⟨.git client q, a⟩] ∧ o = .ok a := by
  constructor
  · intro course
    obtain ⟨a, rest, rfl, ended⟩ := path_ask.mp course
    obtain ⟨rfl, rfl⟩ := path_done.mp ended
    exact ⟨a, rfl, rfl⟩
  · rintro ⟨a, rfl, rfl⟩
    exact Path.ask (A := Query.Outcome) (Query.git client q) a (.done _)

/-- Every way in which a status can be reported. -/
inductive Report (hasStore : Bool) (job : PipelineJob) (config : RepoConfig)
    (s : PipelineJobStatus) : List Event → Prop
  | uncommitted (bare : job.spec.refs.sha = "") : Report hasStore job config s []
  | clientless {made : List Event} {o : Except Error (Option Git.Client)}
      (commit : job.spec.refs.sha ≠ "") (tried : Course (clientFor hasStore config) made o)
      (none : ∀ client, o ≠ .ok (some client)) : Report hasStore job config s made
  | posted {made : List Event} {client : Git.Client} (commit : job.spec.refs.sha ≠ "")
      (connected : Course (clientFor hasStore config) made (.ok (some client)))
      (o : Except Git.Error Unit) :
      Report hasStore job config s
        (made ++ [⟨.git client (.setCommitStatus job.spec.refs.sha (statusCheck job s)), o⟩])

theorem Report.of_course {o : Except Error Unit}
    (h : Course (reportStatus hasStore job config s) es o) : Report hasStore job config s es := by
  unfold reportStatus at h
  split at h
  · rename_i bare
    obtain ⟨rfl, -⟩ := course_pure.mp h
    exact .uncommitted bare
  rename_i commit
  obtain ⟨made, client?, rest, rfl, tried, h⟩ := course_attempt_bind.mp h
  split at h
  · rcases course_bind.mp h with ⟨e, -, sent⟩ | ⟨sending, a, last, rfl, sent, ended⟩
    · obtain ⟨o, -, impossible⟩ := course_viaGit_ask.mp sent
      cases impossible
    · obtain ⟨o, rfl, -⟩ := course_viaGit_ask.mp sent
      obtain ⟨rfl, -⟩ := course_pure.mp ended
      exact .posted commit tried o
  · rename_i other
    obtain ⟨rfl, -⟩ := course_pure.mp h
    rw [List.append_nil]
    exact .clientless commit tried fun client same => other client same

theorem Report.course (h : Report hasStore job config s es) :
    Course (reportStatus hasStore job config s) es (.ok ()) := by
  unfold reportStatus
  cases h with
  | uncommitted bare =>
    rw [if_pos bare]
    exact course_pure.mpr ⟨rfl, rfl⟩
  | @clientless _ o commit tried none =>
    rw [if_neg commit]
    refine course_attempt_bind.mpr ⟨es, o, [], by simp, tried, ?_⟩
    split
    · rename_i client
      exact absurd rfl (none client)
    · exact course_pure.mpr ⟨rfl, rfl⟩
  | @posted made client commit connected o =>
    rw [if_neg commit]
    refine course_attempt_bind.mpr ⟨made, _, _, rfl, connected, ?_⟩
    exact course_bind.mpr (.inr ⟨[_], o, [], rfl, course_viaGit_ask.mpr ⟨o, rfl, rfl⟩,
      course_pure.mpr ⟨rfl, rfl⟩⟩)

/-- A report posts one status check if there is a client, and none if there is not. -/
theorem checks_report (h : Report hasStore job config s es) :
    checks es = [] ∨ ∃ client made o, job.spec.refs.sha ≠ "" ∧
      Course (clientFor hasStore config) made (.ok (some client)) ∧
      es = made ++ [⟨.git client (.setCommitStatus job.spec.refs.sha (statusCheck job s)), o⟩] := by
  cases h with
  | uncommitted bare => exact .inl rfl
  | clientless commit tried none => exact .inl (checks_reads (asks_clientFor.path tried))
  | posted commit connected o => exact .inr ⟨_, _, o, commit, connected, rfl⟩

/-- Where there is a commit and a client can be made, one status check is posted. -/
theorem Report.of_client {made rest last : List Event} (h : Report hasStore job config s es)
    (commit : job.spec.refs.sha ≠ "")
    (connected : Course (clientFor hasStore config) made (.ok (some client)))
    (starts : made ++ rest = es ++ last) :
    checks es = [⟨client, job.spec.refs.sha, statusCheck job s⟩] := by
  cases h with
  | uncommitted bare => exact absurd bare commit
  | clientless _ tried none =>
    obtain ⟨-, same, -⟩ := connected.unique tried starts
    exact absurd same.symm (none client)
  | posted _ connected' o =>
    rw [List.append_assoc] at starts
    obtain ⟨-, same, -⟩ := connected.unique connected' starts
    cases same
    rw [checks_append, checks_reads (asks_clientFor.path connected')]
    rfl

theorem Report.answered (o : Except Git.Error Unit) (h : Report hasStore job config s es) :
    Report hasStore job config s (es.map (Event.answered o)) := by
  cases h with
  | uncommitted bare => exact .uncommitted bare
  | clientless commit tried none =>
    rw [map_answered o (checks_reads (asks_clientFor.path tried))]
    exact .clientless commit tried none
  | posted commit connected _ =>
    rw [List.map_append, map_answered o (checks_reads (asks_clientFor.path connected))]
    exact .posted commit connected o

/-! The pass. -/

/-- The pass has stored a status that reflection told, with a state that the job was not in before,
and there are a commit and a client to report it with. -/
structure Reportable (hasStore : Bool) (now : Instant) (job : PipelineJob) (es : List Event)
    (client : Git.Client) (s : PipelineJobStatus) : Prop where
  commit : job.spec.refs.sha ≠ ""
  moved : s.state ≠ job.jobState
  way : ∃ reads config made, Reflects now job es reads (.ok (config, s)) ∧
    Course (clientFor hasStore config) made (.ok (some client)) ∧
    reads ++ ⟨.cluster (.patchJobStatus job s), .ok ()⟩ :: made <+: es

theorem Reportable.stored (h : Reportable hasStore now job es client s) :
    s ∈ statusesStored es := by
  obtain ⟨reads, config, made, -, -, rest, rfl⟩ := h.way
  exact List.mem_filterMap.mpr ⟨⟨.cluster (.patchJobStatus job s), .ok ()⟩, by simp, rfl⟩

/-- What there is to report is reported once, and the pass ends well with the status stored. -/
theorem Reportable.posted (h : Reportable hasStore now job es client s)
    (course : JobCourse hasStore now job es r) :
    checks es = [⟨client, job.spec.refs.sha, statusCheck job s⟩] ∧ r = .ok .awaitChange ∧
      (es.foldl Control.stored job).status = some s := by
  obtain ⟨reads, config, made, reflects, connected, rest, same⟩ := h.way
  obtain ⟨after, rfl, ending⟩ := course.aftermath reflects
  rw [List.append_assoc] at same
  have same := List.append_cancel_left same
  cases ending with
  | unsaved => cases same
  | @saved _ _ report reported =>
    have starts : made ++ rest = report ++ [⟨.notify (job.withStatus s), ()⟩] :=
      (List.cons.inj same).2
    have aside := (course_reportIfNew reported).1
    rw [reportIfNew, if_pos h.moved] at reported
    have posted := (Report.of_course reported).of_client h.commit connected starts
    refine ⟨?_, rfl, ?_⟩
    · rw [checks_append, checks_reflect reflects.course]
      change checks (report ++ [_]) = _
      rw [checks_append, posted]
      rfl
    · rw [List.foldl_append, stored_asides (aside_reflect reflects.course), List.cons_append,
        List.foldl_cons, List.foldl_append, stored_asides aside]
      rfl

/-- A pass that posts a status check has something to report. -/
theorem JobCourse.reportable (course : JobCourse hasStore now job es r) :
    checks es = [] ∨ ∃ client s, Reportable hasStore now job es client s := by
  cases course with
  | claimed | unclaimed | released | unreleased | left | completed => exact .inl rfl
  | unreflected alive own going failed o =>
    refine .inl ?_
    rw [checks_append, checks_reflect failed]
    rfl
  | unsaved alive own going reflected e =>
    refine .inl ?_
    rw [checks_append, checks_reflect reflected]
    rfl
  | @saved alive own going reads report config s reflected reported =>
    have proceeds := proceeds_iff.mpr ⟨alive, own⟩
    rw [List.append_assoc, checks_append, checks_reflect reflected]
    change checks (report ++ [_]) = [] ∨ _
    rw [checks_append]
    unfold reportIfNew at reported
    split at reported
    · rename_i moved
      rcases checks_report (.of_course reported) with
        none | ⟨client, made, o, commit, connected, rfl⟩
      · exact .inl (by rw [none]; rfl)
      · refine .inr ⟨client, s, commit, moved, reads, config, made, ?_, connected, ?_⟩
        · exact ⟨proceeds, going, List.prefix_append _ _, reflected⟩
        · simp
    · obtain ⟨rfl, -⟩ := course_pure.mp reported
      exact .inl rfl

/-- Whatever else the provider answers to a status check, the pass does and ends the same. -/
theorem JobCourse.answered (o : Except Git.Error Unit) (course : JobCourse hasStore now job es r) :
    JobCourse hasStore now job (es.map (Event.answered o)) r := by
  cases course with
  | claimed alive new => exact .claimed alive new
  | unclaimed alive new e o' => exact .unclaimed alive new e o'
  | released deleting own => exact .released deleting own
  | unreleased deleting own e o' => exact .unreleased deleting own e o'
  | left deleting foreign => exact .left deleting foreign
  | completed alive own done => exact .completed alive own done
  | unreflected alive own going failed o' =>
    rw [List.map_append, map_answered o (checks_reflect failed)]
    exact .unreflected alive own going failed o'
  | unsaved alive own going reflected e =>
    rw [List.map_append, map_answered o (checks_reflect reflected)]
    exact .unsaved alive own going reflected e
  | @saved alive own going reads report config s reflected reported =>
    have again : Course (reportIfNew hasStore job config s) (report.map (Event.answered o))
        (.ok ()) := by
      unfold reportIfNew at reported ⊢
      split at reported
      · rename_i moved
        rw [if_pos moved]
        exact ((Report.of_course reported).answered o).course
      · rename_i same
        obtain ⟨rfl, -⟩ := course_pure.mp reported
        rw [if_neg same]
        exact course_pure.mpr ⟨rfl, rfl⟩
    rw [List.map_append, List.map_append, map_answered o (checks_reflect reflected)]
    exact .saved alive own going reflected again

/-- A state that reflection told, that is stored and is another than before, is shown at the commit
of the job if there are a commit and a client: one status check is posted, in the name of the job
and with what the state stands for. Nothing is posted otherwise; so not if no other state is stored,
and not if reflection failed, whatever state was forced on the job then. What the provider answers
changes neither the outcome of the pass nor what is stored. -/
theorem checks_reconcileJob (h : Course (reconcileJob hasStore now job) es r) :
    (∀ client s, Reportable hasStore now job es client s →
      ∃ check, checks es = [⟨client, job.spec.refs.sha, check⟩] ∧
        check.context = "prflow/" ++ job.name ∧ check.state = checkState s.state ∧
        r = .ok .awaitChange ∧ (es.foldl stored job).status = some s) ∧
    ((∀ client s, ¬ Reportable hasStore now job es client s) → checks es = []) ∧
    ((∀ s ∈ statusesStored es, s.state = job.jobState) → checks es = []) ∧
    (∀ reads e, Reflects now job es reads (.error e) → checks es = []) ∧
    ∀ o, Course (reconcileJob hasStore now job) (es.map (Event.answered o)) r ∧
      (es.map (Event.answered o)).foldl stored job = es.foldl stored job := by
  have course : JobCourse hasStore now job es r := .of_course h
  have unposted (none : ∀ client s, ¬ Reportable hasStore now job es client s) :
      checks es = [] := by
    refine course.reportable.resolve_right ?_
    rintro ⟨client, s, reportable⟩
    exact none client s reportable
  refine ⟨?_, unposted, ?_, ?_, ?_⟩
  · intro client s reportable
    obtain ⟨posted, ended, stored⟩ := reportable.posted course
    exact ⟨statusCheck job s, posted, rfl, rfl, ended, stored⟩
  · intro unmoved
    exact unposted fun client s reportable => reportable.moved (unmoved s reportable.stored)
  · intro reads e failed
    refine unposted fun client s reportable => ?_
    obtain ⟨reads', config, made, reflects, -, -⟩ := reportable.way
    obtain ⟨rest, same⟩ := failed.starts
    obtain ⟨rest', same'⟩ := reflects.starts
    obtain ⟨-, impossible, -⟩ := failed.course.unique reflects.course (same.trans same'.symm)
    cases impossible
  · intro o
    exact ⟨(course.answered o).course, stored_answered o es job⟩

/-- The waiting build, at a commit. -/
def committedBuild : PipelineJob :=
  { waitingBuild with spec.refs.sha := "abc123" }

/-- Its config, with a token for a provider in memory. -/
def connectedConfig : RepoConfig :=
  { buildConfig with spec.git.provider := .fake, spec.git.token := some ⟨"git", "token"⟩ }

/-- The build has ended well; the provider refuses the status check that says so. -/
theorem checks_reconcileJob_refused :
    ∃ es s, Course (reconcileJob true default committedBuild) es (.ok .awaitChange) ∧
      Reportable true default committedBuild es (.inMemory "org/repo") s ∧ s.state = .completed ∧
      (es.foldl stored committedBuild).status = some s ∧
      ∃ check, checks es = [⟨.inMemory "org/repo", "abc123", check⟩] ∧
        check.context = "prflow/a" ∧ check.state = .success := by
  let run := buildRun "a-uid" [{ type := "Succeeded", status := "True" }]
  let s := statusOfRun default (run.status.getD {}) committedBuild.jobStatus
  let reads : List Event :=
    [⟨.cluster (.getConfig "ci" "repo"), .ok (some connectedConfig)⟩,
      ⟨.cluster (.getRun "ci" "a"), .ok (some run)⟩]
  let made : List Event := [⟨.cluster (.readSecret "ci" "git" "token"), .ok (some "t")⟩]
  let post : Event := ⟨.git (.inMemory "org/repo")
    (.setCommitStatus "abc123" (statusCheck committedBuild s)), .error (.notFound "org/repo")⟩
  let es : List Event := reads ++ ⟨.cluster (.patchJobStatus committedBuild s), .ok ()⟩ ::
    (made ++ [post]) ++ [⟨.notify (committedBuild.withStatus s), ()⟩]
  have reflected : Course (reflect default committedBuild) reads (.ok (connectedConfig, s)) :=
    .ask _ _ (.ask _ _ (.done _))
  have connected : Course (clientFor true connectedConfig) made
      (.ok (some (.inMemory "org/repo"))) := .ask _ _ (.done _)
  have reported : Course (reportIfNew true committedBuild connectedConfig s) (made ++ [post])
      (.ok ()) := .ask _ _ (.ask _ _ (.done _))
  have course : Course (reconcileJob true default committedBuild) es (.ok .awaitChange) :=
    (JobCourse.saved rfl (by decide) rfl reflected reported).course
  have reportable : Reportable true default committedBuild es (.inMemory "org/repo") s := by
    refine ⟨by decide, by decide, reads, connectedConfig, made, ?_, connected, ?_⟩
    · exact ⟨proceeds_iff.mpr ⟨rfl, by decide⟩, rfl, List.prefix_append _ _, reflected⟩
    · exact ⟨[post, ⟨.notify (committedBuild.withStatus s), ()⟩], rfl⟩
  obtain ⟨check, posted, context, state, -, stored⟩ := (checks_reconcileJob course).1 _ _ reportable
  exact ⟨es, s, course, reportable, rfl, stored, check, posted, context, state⟩

/-- The committed build, running. -/
def runningCommit : PipelineJob :=
  committedBuild.withStatus { state := .running, startTime := some default }

/-- A cluster with the running build, its config and the token, where runs cannot be read, and a
provider with the repository. -/
def sightless : World where
  cluster := ((Cluster.Memory.putConfig { failures := [(.getRun, "down")] } connectedConfig).putJob
    runningCommit).putSecret "ci" "git" "token" "t"
  servers := { store := { repositories := (∅ : Table String Git.RepoState).insert "org/repo" {} } }

/-- The running build is marked as failed there, which its commit is not told: the config is there
and makes a client, but no status check is posted. -/
theorem forced_failure_unreported :
    let after := sightless.perform default (reconcileJob true default runningCommit).run
    let es := (reconcileJob true default runningCommit).run.trace (World.answer default) sightless
    runningCommit.spec.refs.sha = "abc123" ∧ runningCommit.jobState = .running ∧
    sightless.cluster.configs.get? "ci/repo" = some connectedConfig ∧
    (sightless.perform default (clientFor true connectedConfig).run).1 =
      .ok (some (.inMemory "org/repo")) ∧
    after.1 = .ok .awaitChange ∧
    (after.2.cluster.jobs.get? "ci/a").map (·.jobState) = some .failed ∧
    checks es = [] := by
  refine ⟨rfl, rfl, rfl, rfl, rfl, by decide, rfl⟩

end Gatehouse.Control
