import Gatehouse.Proofs.Control.Delivery
import Gatehouse.Proofs.Git.NamedCommit

/-!
# The commits that jobs build

A job is created for what an event asks for, and for nothing else (`Creates.asks`). That is a push, or an
open pull request that was opened, reopened or given commits (`jobRefs?_eq_some_iff`). Pushes without a
commit are known by the empty object id and by one that is forty zeros long; the head of a pull request is
not looked at. So a job builds a commit if and only if the delivery names one
(`triggered_jobs_build_commits`), and some jobs build none (`jobs_without_commit`).
-/

namespace Gatehouse.Control

open Git Program Resource

variable {hasStore : Bool} {now : Instant} {ns name method path repository : String} {d : Delivery}
  {config : RepoConfig} {client : Git.Client} {w : Webhook} {refs : JobRefs} {es : List Event}
  {e : Event} {job : PipelineJob} {answer : Http.Response}

/-- Does an object id name a commit? One that names none is empty or made of zeros. -/
def isCommit (sha : String) : Bool := sha.toList.any (· != '0')

/-- What an event asks to build. -/
inductive AsksFor (w : Webhook) (repository : String) : JobRefs → Prop
  | pushed {push : Push} (type : w.eventType = .push) (here : w.push = some push)
      (present : push.sha ≠ "") (kept : push.sha ≠ nullSha) :
      AsksFor w repository { repository, ref := push.ref, sha := push.sha }
  | changed {pr : PullRequest} (type : w.eventType = .pullRequestChanged)
      (here : w.pullRequest = some pr) (stands : pr.isOpen = true)
      (news : pr.action ∈ [.opened, .reopened, .synchronized]) :
      AsksFor w repository
        { repository, ref := pr.head.ref, sha := pr.head.sha, pullRequest := some pr.id }

theorem asksForBuild_iff {action : PullRequestAction} :
    asksForBuild action = true ↔ action ∈ [.opened, .reopened, .synchronized] := by
  cases action <;> decide

theorem jobRefs?_eq_some_iff : jobRefs? w repository = some refs ↔ AsksFor w repository refs := by
  constructor
  · intro asked
    unfold jobRefs? at asked
    split at asked
    · rename_i type
      obtain ⟨push, here, made⟩ := Option.bind_eq_some_iff.mp asked
      split at made
      · cases made
      · rename_i something
        obtain ⟨present, kept⟩ := not_or.mp something
        obtain rfl := Option.some.inj made
        exact .pushed type here present kept
    · rename_i type
      obtain ⟨pr, here, made⟩ := Option.bind_eq_some_iff.mp asked
      split at made
      · rename_i builds
        obtain ⟨news, stands⟩ := Bool.and_eq_true_iff.mp builds
        obtain rfl := Option.some.inj made
        exact .changed type here stands (asksForBuild_iff.mp news)
      · cases made
    · cases asked
  · rintro (⟨type, here, present, kept⟩ | ⟨type, here, stands, news⟩)
    · simp [jobRefs?, type, here, present, kept]
    · simp [jobRefs?, type, here, stands, asksForBuild_iff.mpr news]

/-- What is built is what the event is about. -/
theorem AsksFor.commit (asks : AsksFor w repository refs) : w.commit? = some refs.sha := by
  cases asks with
  | pushed type here => simp [Webhook.commit?, type, here]
  | changed type here => simp [Webhook.commit?, type, here]

/-- The event names a commit, or it is a push of which it is known that it names none. -/
def Definite (w : Webhook) : Prop :=
  ∀ sha, w.commit? = some sha →
    isCommit sha = true ∨ w.eventType = .push ∧ (sha = "" ∨ sha = nullSha)

theorem AsksFor.isCommit_iff (asks : AsksFor w repository refs) :
    isCommit refs.sha = true ↔ Definite w := by
  constructor
  · intro commit sha about
    obtain rfl := Option.some.inj (asks.commit.symm.trans about)
    exact .inl commit
  · intro definite
    rcases definite refs.sha asks.commit with commit | ⟨type, empty⟩
    · exact commit
    · cases asks with
      | pushed _ _ present kept => exact absurd empty (not_or.mpr ⟨present, kept⟩)
      | changed other => cases type.symm.trans other

/-! Jobs that are created. -/

/-- The job that is to be created. -/
def Event.creation? : Event → Option PipelineJob
  | ⟨.cluster (.createJob job), _⟩ => some job
  | _ => none

theorem Reads.creation? (reads : Reads e.1) : e.creation? = none := by
  obtain ⟨q, r⟩ := e
  cases reads <;> rfl

/-- A job is only triggered to build what the event asks for. -/
theorem asksFor_of_triggered {made : Except Error (Option PipelineJob)}
    (course : Course (triggerJob config w) es made) (member : e ∈ es)
    (created : e.creation? = some job) :
    AsksFor w config.spec.git.repository job.spec.refs := by
  unfold triggerJob at course
  cases asked : jobRefs? w config.spec.git.repository with
  | none =>
    rw [asked] at course
    obtain ⟨rfl, -⟩ := course_pure.mp course
    cases member
  | some refs =>
    rw [asked] at course
    rcases course_lift_bind.mp course with ⟨_, -, -, rfl⟩ | ⟨ns, -, course⟩
    · cases member
    have asks : ∃ r, e = ⟨.cluster (.createJob (newJob ns config refs)), r⟩ := by
      rcases course_askCluster_bind.mp course with ⟨_, -, rfl⟩ | ⟨_, rest, rfl, ended⟩
      · exact ⟨_, List.mem_singleton.mp member⟩
      · obtain ⟨rfl, -⟩ := course_pure.mp ended
        exact ⟨_, List.mem_singleton.mp member⟩
    obtain ⟨r, rfl⟩ := asks
    obtain rfl := Option.some.inj created
    exact jobRefs?_eq_some_iff.mp asked

/-- Serving a request may create a job. -/
def Creates (hasStore : Bool) (now : Instant) (method path : String) (d : Delivery)
    (job : PipelineJob) : Prop :=
  ∃ (es : List Event) (answer : Http.Response) (e : Event),
    Path (serve hasStore now method path d) es answer ∧ e ∈ es ∧ e.creation? = some job

/-- No job is created but one that an event asks for which came out of the body. -/
theorem Creates.asks (creates : Creates hasStore now method path d job) :
    ∃ (config : RepoConfig) (client : Git.Client) (w : Webhook),
      client.parseWebhook now d.headers d.body = .ok (some w) ∧
      AsksFor w config.spec.git.repository job.spec.refs := by
  obtain ⟨es, answer, e, served, member, created⟩ := creates
  rcases path_serve served with ⟨rfl, -⟩ | ⟨ns, name, -, -, served⟩
  · cases member
  obtain ⟨reads, received, rest, rfl, receives, -, handles⟩ := path_serveWebhook served
  rcases List.mem_append.mp member with member | member
  · rw [(asks_receive.path receives e member).creation?] at created
    cases created
  rcases handles with ⟨config, client, w, rfl, handles⟩ | ⟨rfl, -⟩
  · obtain ⟨triggered, made, handled, -, rfl, triggers, -⟩ := path_handleEvent.mp handles
    rcases List.mem_append.mp member with member | member
    · exact ⟨config, client, w, (obtained_of_event receives).2,
        asksFor_of_triggered triggers member created⟩
    · obtain ⟨g, -, rfl⟩ := List.mem_map.mp member
      cases created
  · cases member

/-- An event only asks to build a push or news of an open pull request, and what it asks to build is a
commit if and only if it is definite. The jobs that serving a delivery creates build what its event
names, which is a commit if and only if the delivery names one. -/
theorem triggered_jobs_build_commits (w : Webhook) (repository : String) (hasStore : Bool)
    (now : Instant) (method path : String) (d : Delivery) :
    (∀ refs, jobRefs? w repository = some refs →
      AsksFor w repository refs ∧ (isCommit refs.sha = true ↔ Definite w)) ∧
    ∀ job, Creates hasStore now method path d job →
      ∃ (config : RepoConfig) (client : Git.Client) (event : Webhook),
        client.parseWebhook now d.headers d.body = .ok (some event) ∧
        AsksFor event config.spec.git.repository job.spec.refs ∧
        (client.isRemote = true → (isCommit job.spec.refs.sha = true ↔
          ∃ sha, client.named? d.headers d.body = some sha ∧ isCommit sha = true)) := by
  refine ⟨fun refs asked => ?_, fun job creates => ?_⟩
  · have asks := jobRefs?_eq_some_iff.mp asked
    exact ⟨asks, asks.isCommit_iff⟩
  · obtain ⟨config, client, event, parsed, asks⟩ := creates.asks
    refine ⟨config, client, event, parsed, asks, fun remote => ?_⟩
    rw [parseWebhook_commit remote parsed asks.commit]
    cases client.named? d.headers d.body with
    | none => simp [isCommit]
    | some sha => simp

/-! Deliveries of GitLab. -/

/-- A world with a config whose repository is at GitLab. -/
def gitlabHost : World where
  cluster := (Cluster.Memory.putConfig {}
    { hosted with spec.git := { hosted.spec.git with provider := .gitlab } }).putSecret
      "ci" "git" "token" "s3cret"

/-- The object ids of the jobs that are created when a delivery is served there. -/
def builtFor (d : Delivery) : List String :=
  ((serve true default "POST" "/webhook/ci/repo" d).trace (World.answer default) gitlabHost).filterMap
    fun e : Event => e.creation?.map (·.spec.refs.sha)

theorem creates_of_builtFor {sha : String} (built : sha ∈ builtFor d) :
    ∃ job, Creates true default "POST" "/webhook/ci/repo" d job ∧ job.spec.refs.sha = sha := by
  obtain ⟨e, member, named⟩ := List.mem_filterMap.mp built
  obtain ⟨job, created, same⟩ := Option.map_eq_some_iff.mp named
  obtain ⟨path, -⟩ := path_trace World.May (World.answer default) (World.may_answer default)
    (serve true default "POST" "/webhook/ci/repo" d) gitlabHost
  exact ⟨job, ⟨_, _, e, path, member, created⟩, same⟩

/-- A merge request was opened; its last commit may be left out. -/
def mergeRequestOpened (commit : Option String) : Delivery where
  headers := [("x-gitlab-event", asciiBytes "Merge Request Hook".toList)]
  body := asciiBytes <| Json.chars <| .obj [
    ("user", .obj [("username", .str "alice")]),
    ("project", .obj [("path_with_namespace", .str "org/repo")]),
    ("object_attributes", .obj ([("iid", .int 42), ("title", .str "Fix bug"),
      ("state", .str "opened"), ("action", .str "open"), ("source_branch", .str "feature"),
      ("target_branch", .str "main")] ++
        (commit.map fun sha => ("last_commit", Json.obj [("id", .str sha)])).toList))]

/-- A branch was deleted in a repository whose object ids are 64 digits long. -/
def branchDeleted : Delivery where
  headers := [("x-gitlab-event", asciiBytes "Push Hook".toList)]
  body := asciiBytes <| Json.chars <| .obj [
    ("ref", .str "refs/heads/feature"),
    ("after", .str (String.ofList (List.replicate 64 '0'))),
    ("project", .obj [("path_with_namespace", .str "org/repo")])]

set_option maxRecDepth 10000 in
theorem builtFor_mergeRequestOpened :
    "abc123" ∈ builtFor (mergeRequestOpened (some "abc123")) ∧
      "" ∈ builtFor (mergeRequestOpened none) := by
  decide +kernel

set_option maxRecDepth 10000 in
theorem builtFor_branchDeleted :
    String.ofList (List.replicate 64 '0') ∈ builtFor branchDeleted := by
  decide +kernel

theorem triggered_jobs_build_commits_opened :
    ∃ (job : PipelineJob) (config : RepoConfig) (client : Git.Client) (w : Webhook),
      Creates true default "POST" "/webhook/ci/repo" (mergeRequestOpened (some "abc123")) job ∧
      job.spec.refs.sha = "abc123" ∧
      client.parseWebhook default (mergeRequestOpened (some "abc123")).headers
        (mergeRequestOpened (some "abc123")).body = .ok (some w) ∧
      jobRefs? w config.spec.git.repository = some job.spec.refs ∧ Definite w := by
  obtain ⟨job, creates, sha⟩ := creates_of_builtFor builtFor_mergeRequestOpened.1
  obtain ⟨config, client, w, parsed, asks⟩ := creates.asks
  obtain ⟨refs, -⟩ := triggered_jobs_build_commits w config.spec.git.repository true default "POST"
    "/webhook/ci/repo" (mergeRequestOpened (some "abc123"))
  have asked := jobRefs?_eq_some_iff.mpr asks
  have commit : isCommit job.spec.refs.sha = true := by
    rw [sha]
    decide
  exact ⟨job, config, client, w, creates, sha, parsed, asked, (refs _ asked).2.mp commit⟩

/-- One job is to build a branch that was deleted, and another one builds no commit at all. -/
theorem jobs_without_commit :
    (∃ job, Creates true default "POST" "/webhook/ci/repo" branchDeleted job ∧
      isCommit job.spec.refs.sha = false) ∧
    ∃ job, Creates true default "POST" "/webhook/ci/repo" (mergeRequestOpened none) job ∧
      job.spec.refs.sha = "" := by
  obtain ⟨job, creates, sha⟩ := creates_of_builtFor builtFor_branchDeleted
  refine ⟨⟨job, creates, ?_⟩, creates_of_builtFor builtFor_mergeRequestOpened.2⟩
  rw [sha]
  decide

end Gatehouse.Control
