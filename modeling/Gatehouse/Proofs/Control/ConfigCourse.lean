import Gatehouse.Control.ConfigPass
import Gatehouse.Proofs.Control.Course

/-!
# Courses of passes over configs

All ways in which a pass over a config can go, one constructor each (`ConfigCourse.of_course`). What
a pass finds out about the webhook (`inspect`) has nothing to do with the clock; the clock only
comes in when the findings are put into words (`renewed`).
-/

namespace Gatehouse.Control

open Program Resource

variable {env : Surroundings} {now : Instant} {config : RepoConfig} {ns : String} {es : List Event}

/-- What a pass finds out about the webhook of a config. -/
inductive Finding where
  | noHost
  | noClient (e : Error)
  | noToken
  | there
  | registered
  | failed (e : Git.Error)

namespace Finding

/-- Is the webhook registered? -/
def status : Finding → ConditionStatus
  | .there | .registered => .holds
  | _ => .fails

def reason : Finding → String
  | .noHost => "noExternalHost"
  | .noClient _ => "gitCliErr"
  | .noToken => "noGitToken"
  | .there | .registered => "Registered"
  | .failed _ => "webhookRegisterFailed"

def message : Finding → String
  | .noHost => "Skipped to register webhook, no external hostname is configured"
  | .noClient e => e.message
  | .noToken => "Skipped to register webhook"
  | .there => "Webhook is already registered"
  | .registered => "Webhook is registered"
  | .failed e => e.message

/-- The finding as a condition. -/
def condition (now : Instant) (f : Finding) : Condition :=
  hookCondition now f.status f.reason f.message

/-- When to look again. -/
def schedule (now : Instant) : Finding → Schedule
  | .failed e => retryAfter now e
  | _ => .awaitChange

end Finding

/-- Find out about the webhook, registering it if need be. -/
def findHook (env : Surroundings) (ns : String) (config : RepoConfig) : Work Finding :=
  match hookUrl env ns config with
  | none => .done .noHost
  | some url => (clientFor env.hasStore config).run.bind fun
    | .error e => .done (.noClient e)
    | .ok none => .done .noToken
    | .ok (some client) => (through client (ensureRegistered url).run).bind fun
      | .ok true => .done .there
      | .ok false => .done .registered
      | .error e => .done (.failed e)

theorem run_bind {α β : Type} (pass : Pass α) (f : α → Pass β) :
    (pass >>= f).run = pass.run.bind fun
      | .ok a => (f a).run
      | .error e => .done (.error e) := by
  refine congrArg pass.run.bind (funext fun o => ?_)
  cases o <;> rfl

theorem run_attempt_bind {α β : Type} (pass : Pass α) (f : Except Error α → Pass β) :
    (attempt pass >>= f).run = pass.run.bind fun o => (f o).run :=
  Program.bind_assoc pass.run _ _

theorem run_viaGit_bind {α β : Type} (client : Git.Client) (action : Git.Action α)
    (f : Except Git.Error α → Pass β) :
    (viaGit client action >>= f).run = (through client action.run).bind fun o => (f o).run :=
  Program.bind_assoc (through client action.run) _ _

theorem registerWebhook_eq (env : Surroundings) (now : Instant) (ns : String)
    (config : RepoConfig) :
    (registerWebhook env now ns config).run =
      (findHook env ns config).bind fun f => .done (.ok (f.condition now, f.schedule now)) := by
  unfold registerWebhook findHook
  cases hookUrl env ns config with
  | none => rfl
  | some url =>
    simp only [run_attempt_bind, Program.bind_assoc]
    congr 1
    funext o
    rcases o with e | _ | client
    · rfl
    · rfl
    · simp only [run_viaGit_bind, Program.bind_assoc]
      congr 1
      funext o
      rcases o with e | _ | _ <;> rfl

/-- What is known of the status of a config. -/
def knownStatus (config : RepoConfig) : RepoConfigStatus := config.status.getD {}

/-- Find out about the webhook unless the status says that it is registered. -/
def inspect (env : Surroundings) (ns : String) (config : RepoConfig) : Work Finding :=
  if (knownStatus config).isTrue webhookRegistered then .done .there else findHook env ns config

/-- A status in the light of a finding. -/
def renewed (now : Instant) (f : Finding) (old : RepoConfigStatus) : RepoConfigStatus :=
  withReady now (if old.isTrue webhookRegistered then old else old.set (f.condition now))

theorem renewed_registered {old : RepoConfigStatus} (f : Finding)
    (registered : old.isTrue webhookRegistered = true) : renewed now f old = withReady now old := by
  rw [renewed, if_pos registered]

theorem renewed_unregistered {old : RepoConfigStatus} (f : Finding)
    (unregistered : ¬old.isTrue webhookRegistered = true) :
    renewed now f old = withReady now (old.set (f.condition now)) := by
  rw [renewed, if_neg unregistered]

/-- Store a status unless the config has it. -/
def saveStatus (config : RepoConfig) (s : RepoConfigStatus) (schedule : Schedule) :
    Pass Schedule := do
  if config.status ≠ some s then askCluster (.patchConfigStatus config s)
  return schedule

theorem maintainConfig_eq (env : Surroundings) (now : Instant) (ns : String) (config : RepoConfig) :
    (maintainConfig env now ns config).run = (inspect env ns config).bind fun f =>
      (saveStatus config (renewed now f (knownStatus config)) (f.schedule now)).run := by
  unfold maintainConfig inspect
  by_cases registered : (knownStatus config).isTrue webhookRegistered = true
  · rw [if_pos registered, Program.done_bind, renewed_registered _ registered]
    unfold knownStatus at registered ⊢
    rw [if_pos registered]
    rfl
  · rw [if_neg registered]
    simp only [renewed_unregistered _ registered]
    unfold knownStatus at registered ⊢
    rw [if_neg registered]
    simp only [pure_bind]
    rw [run_bind, registerWebhook_eq, Program.bind_assoc]
    rfl

/-! The parts of a pass that change no config. -/

/-- The inspection reads secrets and works with the git provider. -/
theorem aside_inspect {f : Finding} (h : Path (inspect env ns config) es f) :
    ∀ e ∈ es, e.Aside := by
  unfold inspect findHook at h
  split at h
  · obtain ⟨rfl, -⟩ := path_done.mp h
    simp
  split at h
  · obtain ⟨rfl, -⟩ := path_done.mp h
    simp
  obtain ⟨first, o, second, rfl, made, h⟩ := path_bind.mp h
  have quiet := aside_clientFor made
  split at h
  · obtain ⟨rfl, -⟩ := path_done.mp h
    simpa using quiet
  · obtain ⟨rfl, -⟩ := path_done.mp h
    simpa using quiet
  · obtain ⟨third, o, fourth, rfl, tried, h⟩ := path_bind.mp h
    obtain rfl : fourth = [] := by
      split at h <;> exact (path_done.mp h).1
    rw [List.append_nil]
    exact List.forall_mem_append.mpr ⟨quiet, fun e member => (isGit_through tried e member).aside⟩

theorem course_deleteAll {client : Git.Client} {ids : List Int} {r : Except Error Unit}
    (h : Course (deleteAll client ids) es r) : (∀ e ∈ es, e.Aside) ∧ r = .ok () := by
  induction ids generalizing es with
  | nil =>
    obtain ⟨rfl, rfl⟩ := course_pure.mp h
    simp
  | cons id rest ih =>
    rcases course_bind.mp h with ⟨e, -, sent⟩ | ⟨first, o, second, rfl, sent, h⟩
    · obtain ⟨-, o, impossible⟩ := course_viaGit sent
      cases impossible
    · obtain ⟨others, rfl⟩ := ih h
      have git := (course_viaGit sent).1
      exact ⟨List.forall_mem_append.mpr ⟨fun e member => (git e member).aside, others⟩, rfl⟩

/-- Deleting the hooks of a config never fails a pass. -/
theorem course_deleteHooks {r : Except Error Unit} (h : Course (deleteHooks env ns config) es r) :
    (∀ e ∈ es, e.Aside) ∧ r = .ok () := by
  unfold deleteHooks at h
  split at h
  · obtain ⟨rfl, rfl⟩ := course_pure.mp h
    simp
  obtain ⟨first, o, second, rfl, made, h⟩ := course_attempt_bind.mp h
  have quiet := aside_clientFor made
  split at h
  · rcases course_bind.mp h with ⟨e, -, listed⟩ | ⟨third, hooks, fourth, rfl, listed, h⟩
    · obtain ⟨-, o, impossible⟩ := course_viaGit listed
      cases impossible
    have git := (course_viaGit listed).1
    have rest : (∀ e ∈ fourth, e.Aside) ∧ r = .ok () := by
      split at h
      · exact course_deleteAll h
      · obtain ⟨rfl, rfl⟩ := course_pure.mp h
        simp
    refine ⟨List.forall_mem_append.mpr ⟨quiet, ?_⟩, rest.2⟩
    exact List.forall_mem_append.mpr ⟨fun e member => (git e member).aside, rest.1⟩
  · obtain ⟨rfl, rfl⟩ := course_pure.mp h
    simpa using quiet

/-! The pass itself. -/

/-- Every way in which a pass over a config can go: what is asked and answered, and how it ends. -/
inductive ConfigCourse (env : Surroundings) (now : Instant) (config : RepoConfig) :
    List Event → Except Error Schedule → Prop
  | unplaced (nowhere : config.metadata.inNamespace = none) :
      ConfigCourse env now config [] (.error .missingNamespace)
  /-- A new config gets the finalizer. -/
  | claimed {ns : String} (place : config.metadata.inNamespace = some ns)
      (alive : config.isDeleting = false) (new : configFinalizer ∉ config.finalizers)
      (o : Except Error Unit) :
      ConfigCourse env now config
        [⟨.cluster (.patchConfigFinalizers config (config.finalizers ++ [configFinalizer])), o⟩]
        (o.map fun _ => .awaitChange)
  /-- A deleted config loses its hooks and then the finalizer. -/
  | released {ns : String} (place : config.metadata.inNamespace = some ns)
      (deleting : config.isDeleting = true) (own : configFinalizer ∈ config.finalizers)
      {cleanup : List Event} (deleted : Course (deleteHooks env ns config) cleanup (.ok ()))
      (o : Except Error Unit) :
      ConfigCourse env now config
        (cleanup ++
          [⟨.cluster (.patchConfigFinalizers config (config.finalizers.erase configFinalizer)), o⟩])
        (o.map fun _ => .awaitChange)
  | left {ns : String} (place : config.metadata.inNamespace = some ns)
      (deleting : config.isDeleting = true) (foreign : configFinalizer ∉ config.finalizers) :
      ConfigCourse env now config [] (.ok .awaitChange)
  /-- There is nothing new to say. -/
  | upToDate {ns : String} (place : config.metadata.inNamespace = some ns)
      (alive : config.isDeleting = false) (own : configFinalizer ∈ config.finalizers)
      {reads : List Event} {f : Finding} (inspected : Path (inspect env ns config) reads f)
      (same : config.status = some (renewed now f (knownStatus config))) :
      ConfigCourse env now config reads (.ok (f.schedule now))
  | renewed {ns : String} (place : config.metadata.inNamespace = some ns)
      (alive : config.isDeleting = false) (own : configFinalizer ∈ config.finalizers)
      {reads : List Event} {f : Finding} (inspected : Path (inspect env ns config) reads f)
      (changed : config.status ≠ some (renewed now f (knownStatus config)))
      (o : Except Error Unit) :
      ConfigCourse env now config
        (reads ++
          [⟨.cluster (.patchConfigStatus config (renewed now f (knownStatus config))), o⟩])
        (o.map fun _ => f.schedule now)

/-- What is asked before the last step, and how that ends. -/
theorem course_askCluster_then {q : Cluster.Query} {a : Schedule} {r : Except Error Schedule} :
    Course (do let _ ← askCluster q; return a) es r ↔
      ∃ o : q.Outcome, es = [⟨.cluster q, o⟩] ∧ r = o.map fun _ => a := by
  rw [course_askCluster_bind]
  constructor
  · rintro (⟨e, rfl, rfl⟩ | ⟨v, rest, rfl, h⟩)
    · exact ⟨.error e, rfl, rfl⟩
    · obtain ⟨rfl, rfl⟩ := course_pure.mp h
      exact ⟨.ok v, rfl, rfl⟩
  · rintro ⟨o, rfl, rfl⟩
    cases o with
    | error e => exact .inl ⟨e, rfl, rfl⟩
    | ok v => exact .inr ⟨v, [], rfl, course_pure.mpr ⟨rfl, rfl⟩⟩

/-- A pass goes in one of the ways that `ConfigCourse` lists. -/
theorem ConfigCourse.of_course {r : Except Error Schedule}
    (h : Course (reconcileConfig env now config) es r) : ConfigCourse env now config es r := by
  unfold reconcileConfig at h
  rcases course_lift_bind.mp h with ⟨e, missing, rfl, rfl⟩ | ⟨ns, found, h⟩
  · unfold namespaceOf at missing
    split at missing
    · cases missing
    · rename_i nowhere
      cases missing
      exact .unplaced nowhere
  have place := namespaceOf_ok found
  split at h
  · rename_i deleting
    unfold retireConfig at h
    split at h
    · rename_i own
      have own : configFinalizer ∈ config.finalizers := by simpa using own
      rcases course_bind.mp h with ⟨e, -, failed⟩ | ⟨cleanup, _, rest, rfl, deleted, h⟩
      · cases (course_deleteHooks failed).2
      obtain ⟨o, rfl, rfl⟩ := course_askCluster_then.mp h
      exact .released place deleting own deleted o
    · rename_i foreign
      have foreign : configFinalizer ∉ config.finalizers := by simpa using foreign
      obtain ⟨rfl, rfl⟩ := course_pure.mp h
      exact .left place deleting foreign
  rename_i alive
  have alive : config.isDeleting = false := by simpa using alive
  split at h
  · rename_i own
    have own : configFinalizer ∈ config.finalizers := by simpa using own
    have h : Path (maintainConfig env now ns config).run es r := h
    rw [maintainConfig_eq] at h
    obtain ⟨reads, f, rest, rfl, inspected, h⟩ := path_bind.mp h
    unfold saveStatus at h
    split at h
    · rename_i changed
      obtain ⟨o, rfl, rfl⟩ := course_askCluster_then.mp h
      exact .renewed place alive own inspected changed o
    · rename_i same
      obtain ⟨rfl, rfl⟩ := course_pure.mp h
      rw [List.append_nil]
      exact .upToDate place alive own inspected (Decidable.not_not.mp same)
  · rename_i new
    have new : configFinalizer ∉ config.finalizers := by simpa using new
    obtain ⟨o, rfl, rfl⟩ := course_askCluster_then.mp h
    exact .claimed place alive new o

end Gatehouse.Control
