import Gatehouse.Proofs.Control.HookWork
import Gatehouse.Proofs.Control.View
import Gatehouse.Proofs.Git.Hooks

/-!
# One hook for a config

A pass over a config looks for its hook before it registers one, so passes one after the other register
no second hook (`upkeep_keeps_one_hook`), also where a pass breaks off at any point or the status that
tells of the registration is lost. Hooks with other URLs stay as they are. `Upkeep` are all sequences of
such passes; between them the config may change in any way.
-/

namespace Gatehouse.Control

open Program Resource
open Git (Store HookStep)

variable {env : Surroundings} {now : Instant} {config : RepoConfig} {ns name url repository : String}
  {own : Option String} {client : Git.Client} {es : List Event}
  {gs rest : List (Program.Event Git.Query.Outcome)} {s s' : Store} {w w' : World}

/-! Hooks with a URL, and hooks with others. -/

/-- Is it a hook for the URL, if there is one? -/
def isFor (own : Option String) (hook : Git.Hook) : Bool := own == some hook.url

/-- The hooks of a repository that are not for the URL. -/
def others (own : Option String) (s : Store) (place : String) : List Git.Hook :=
  (s.hookList place).filter (! isFor own ·)

/-- The number of hooks of a repository that are for the URL. -/
def ownCount (own : Option String) (s : Store) (place : String) : Nat :=
  (s.hookList place).countP (isFor own)

/-- What an operation that only touches hooks for the URL leaves of the others. -/
theorem others_step {q : Git.Query} {r : q.Outcome} (numbered : s.Numbered)
    (step : HookStep repository s s' q r)
    (registers : ∀ url, q = .registerWebhook url → own = some url)
    (deletes : ∀ id, q = .deleteWebhook id → ∃ url, own = some url ∧ s.Stands repository id url)
    (place : String) : others own s' place = others own s place := by
  unfold others
  rcases Git.hookList_step numbered step place with same | ⟨url, asked, -, more⟩ | ⟨id, asked, rfl, rest⟩
  · rw [same]
  · rw [more, List.filter_append, registers url asked]
    simp [isFor]
  · obtain ⟨url, rfl, -, stands⟩ := deletes id asked
    rw [rest, List.filter_filter]
    refine List.filter_congr fun hook member => ?_
    by_cases same : hook.id = id
    · have listed := (numbered.get?_of_mem member).1
      rw [same] at listed
      simp [isFor, stands hook listed]
    · simp [same]

/-- No operation but a registration makes the hooks for the URL more. -/
theorem ownCount_step {q : Git.Query} {r : q.Outcome} (numbered : s.Numbered)
    (step : HookStep repository s s' q r) (quiet : ∀ url, q ≠ .registerWebhook url) (place : String) :
    ownCount own s' place ≤ ownCount own s place := by
  unfold ownCount
  rcases Git.hookList_step numbered step place with same | ⟨url, asked, -⟩ | ⟨id, -, -, rest⟩
  · rw [same]
  · exact absurd asked (quiet url)
  · rw [rest]
    exact List.filter_sublist.countP_le

theorem ownCount_follows (numbered : s.Numbered)
    (follows : Follows (Store.May repository) s gs s')
    (quiet : ∀ g ∈ gs, ∀ url, g.1 ≠ .registerWebhook url) (place : String) :
    ownCount own s' place ≤ ownCount own s place := by
  refine (follows.keeps (P := fun s' => s'.Numbered ∧ ownCount own s' place ≤ ownCount own s place)
    ?_ ⟨numbered, Nat.le_refl _⟩).2
  rintro g member s₁ s₂ may ⟨numbered, le⟩
  have step := Git.hookStep_of_may may
  exact ⟨numbered.step step, (ownCount_step numbered step (quiet g member) place).trans le⟩

/-! What the hook work of a pass does, wherever it breaks off. -/

/-- A pass registers at most one hook, and only if there is none with its URL. -/
theorem Begun.ownCount_le (begun : Begun own gs) (numbered : s.Numbered)
    (follows : Follows (Store.May repository) s gs s') (place : String) :
    ownCount own s' place ≤ max 1 (ownCount own s place) := by
  have quietly (quiet : ∀ g ∈ gs, ∀ url, g.1 ≠ .registerWebhook url) :
      ownCount own s' place ≤ max 1 (ownCount own s place) :=
    (ownCount_follows numbered follows quiet place).trans (Nat.le_max_right _ _)
  cases begun with
  | nothing => exact quietly (by simp)
  | looked r => exact quietly (by simp)
  | tried known each =>
    refine quietly fun g member url => ?_
    rcases List.mem_cons.mp member with rfl | member
    · simp
    · obtain ⟨hook, -, -, asked⟩ := each g member
      simp [asked]
  | @registered url known hooks new r =>
    obtain ⟨s₁, listed, follows⟩ := follows_cons.mp follows
    obtain ⟨s₂, registered, ended⟩ := follows_cons.mp follows
    obtain rfl := follows_nil.mp ended
    have looked := Git.hookStep_of_may listed
    have shown : hooks = s.hookList repository := Git.hookList_listed looked
    have fewer : ownCount own s₁ place ≤ ownCount own s place :=
      ownCount_step numbered looked (by simp) place
    have step := Git.hookStep_of_may registered
    rcases Git.hookList_step (numbered.step looked) step place with
      same | ⟨u, asked, rfl, more⟩ | ⟨id, impossible, -⟩
    · rw [ownCount, same]
      exact fewer.trans (Nat.le_max_right _ _)
    · -- What was listed shows that there was none.
      have none_before : ownCount own s place = 0 := by
        rw [ownCount, ← shown, List.countP_eq_zero]
        intro hook member
        simp [isFor, known, (new hook member).symm]
      have one : ownCount own s' place ≤ ownCount own s₁ place + 1 := by
        rw [ownCount, more, List.countP_append, ownCount]
        exact Nat.add_le_add_left (List.countP_le_length) _
      omega
    · cases impossible

/-- A pass leaves hooks with other URLs as they are, also if it deletes. -/
theorem Begun.others_eq (begun : Begun own gs) (numbered : s.Numbered)
    (follows : Follows (Store.May repository) s gs s') (place : String) :
    others own s' place = others own s place := by
  have upheld (registers : ∀ g ∈ gs, g.1 = .listWebhooks ∨
      ∃ url, own = some url ∧ g.1 = .registerWebhook url) :
      others own s' place = others own s place := by
    refine (follows.keeps (P := fun s' => s'.Numbered ∧ others own s' place = others own s place)
      ?_ ⟨numbered, rfl⟩).2
    rintro g member s₁ s₂ may ⟨numbered, same⟩
    have step := Git.hookStep_of_may may
    refine ⟨numbered.step step, (others_step numbered step ?_ ?_ place).trans same⟩
    · intro url asked
      rcases registers g member with listed | ⟨u, known, asked'⟩
      · rw [asked] at listed
        cases listed
      · rw [asked] at asked'
        cases asked'
        exact known
    · intro id asked
      rcases registers g member with other | ⟨u, -, other⟩
      all_goals
        rw [asked] at other
        cases other
  cases begun with
  | nothing => exact upheld (by simp)
  | looked r => exact upheld (by simp)
  | registered known new r => exact upheld (by simp [known])
  | @tried url known hooks attempts each =>
    obtain ⟨s₁, listed, follows⟩ := follows_cons.mp follows
    have looked := Git.hookStep_of_may listed
    have shown : hooks = s.hookList repository := Git.hookList_listed looked
    -- The numbers that were listed with the URL keep standing for it.
    have stands : ∀ hook ∈ hooks, hook.url = url → s₁.Stands repository hook.id url := by
      intro hook member is
      rw [shown] at member
      have now := Git.stands_listed numbered member
      rw [is] at now
      exact now.step looked
    have same : others own s₁ place = others own s place :=
      others_step numbered looked (by simp) (by simp) place
    refine (follows.keeps (P := fun s' => s'.Numbered ∧
      (∀ hook ∈ hooks, hook.url = url → s'.Stands repository hook.id url) ∧
      others own s' place = others own s place) ?_ ⟨numbered.step looked, stands, same⟩).2.2
    rintro g member s₂ s₃ may ⟨numbered, stands, same⟩
    have step := Git.hookStep_of_may may
    obtain ⟨hook, listed, is, asked⟩ := each g member
    refine ⟨numbered.step step, fun hook member is => (stands hook member is).step step, ?_⟩
    refine (others_step numbered step ?_ ?_ place).trans same
    · intro u register
      rw [asked] at register
      cases register
    · intro id delete
      rw [asked] at delete
      cases delete
      exact ⟨url, known, stands hook listed is⟩

/-! Worlds with a provider in memory. -/

/-- How a question may be answered where the provider is in memory: the cluster refuses a request,
which changes nothing, or serves it, and clients answer as they do at some time. -/
def World.Hosts : (q : Query) → World → q.Outcome → World → Prop
  | .git client q, w, r, w' => World.Serves (.git client q) w r w'
  | q, w, r, w' => World.May q w r w'

theorem World.hosts_answer (now : Instant) (q : Query) (w : World) :
    World.Hosts q w (w.answer now q).1 (w.answer now q).2 := by
  cases q with
  | git client q => exact ⟨now, rfl⟩
  | cluster q => exact World.may_answer now (.cluster q) w
  | notify job => exact World.may_answer now (.notify job) w

/-- One answer leaves the store as it is or is an operation on a repository in memory. -/
theorem World.Hosts.store {q : Query} {r : q.Outcome} (hosts : World.Hosts q w r w') :
    w'.servers.store = w.servers.store ∨
    ∃ (repository : String) (q' : Git.Query) (r' : q'.Outcome),
      (⟨q, r⟩ : Event) = ⟨.git (.inMemory repository) q', r'⟩ ∧
      Store.May repository q' w.servers.store r' w'.servers.store := by
  cases q with
  | cluster q =>
    rcases hosts with ⟨e, -, rfl⟩ | ⟨-, rfl⟩
    · exact .inl rfl
    · exact .inl rfl
  | notify job =>
    cases hosts
    exact .inl rfl
  | git client q =>
    cases client with
    | inMemory repository => exact .inr ⟨repository, q, r, rfl, hosts.inMemory⟩
    | github c | gitlab c =>
      obtain ⟨now, answered⟩ := hosts
      obtain ⟨-, rfl⟩ := Prod.mk.inj answered
      exact .inl rfl

/-- Work through one client leaves the store as it is or does its operations on one repository. -/
theorem follows_via (via : ∀ e ∈ es, e.Via client) (follows : Follows World.Hosts w es w') :
    w'.servers.store = w.servers.store ∨
    ∃ repository, Follows (Store.May repository) w.servers.store (operations es) w'.servers.store := by
  by_cases inMemory : ∃ repository, client = .inMemory repository
  · obtain ⟨repository, rfl⟩ := inMemory
    refine .inr ⟨repository, ?_⟩
    induction follows with
    | nil w => exact .nil _
    | @cons q r w w₁ w₂ es hosts follows ih =>
      have rest := ih fun e member => via e (List.mem_cons_of_mem _ member)
      have first := via ⟨q, r⟩ (by simp)
      cases q with
      | git c q =>
        obtain rfl : c = .inMemory repository := first
        exact .cons hosts.inMemory rest
      | cluster q | notify job =>
        rcases hosts.store with same | ⟨_, _, _, impossible, -⟩
        · rw [same] at rest
          exact rest
        · cases impossible
  · left
    refine follows.keeps (P := fun w' => w'.servers.store = w.servers.store) ?_ rfl
    intro e member w₁ w₂ hosts same
    obtain ⟨q, r⟩ := e
    rcases hosts.store with kept | ⟨repository, q', r', asked, -⟩
    · exact kept.trans same
    · have through := via _ member
      rw [show (⟨q, r⟩ : Event) = ⟨.git (.inMemory repository) q', r'⟩ from asked] at through
      exact absurd ⟨repository, through.symm⟩ inMemory

/-- The hooks stay numbered. -/
theorem numbered_hosts {q : Query} {r : q.Outcome} (hosts : World.Hosts q w r w')
    (numbered : w.servers.store.Numbered) : w'.servers.store.Numbered := by
  rcases hosts.store with same | ⟨repository, q', r', -, may⟩
  · rw [same]
    exact numbered
  · exact numbered.step (Git.hookStep_of_may may)

/-! Passes over one config. -/

/-- The config is the one of that name as it is stored. -/
structure Current (ns name : String) (w : World) (config : RepoConfig) : Prop where
  stored : w.cluster.configs.get? config.key = some config
  place : config.metadata.inNamespace = some ns
  name : config.name = name

/-- A sequence of passes over one config, each over the config as it is stored then and perhaps broken
off. Between two passes the cluster may change in any way. -/
inductive Upkeep (env : Surroundings) (ns name : String) (w : World) : World → Prop
  | start : Upkeep env ns name w w
  | pass {w₁ w₂ : World} {config : RepoConfig} {now : Instant} {es rest : List Event}
      {r : Except Error Schedule} (before : Upkeep env ns name w w₁)
      (current : Current ns name w₁ config)
      (course : Course (reconcileConfig env now config) (es ++ rest) r)
      (follows : Follows World.Hosts w₁ es w₂) : Upkeep env ns name w w₂
  | changed {w₁ : World} (before : Upkeep env ns name w w₁) (cluster : Cluster.Memory) :
      Upkeep env ns name w { w₁ with cluster }

/-- What one pass does to the hooks, wherever it breaks off. -/
theorem pass_hooks {later : List Event} {r : Except Error Schedule}
    (course : Course (reconcileConfig env now config) (es ++ later) r)
    (follows : Follows World.Hosts w es w') (numbered : w.servers.store.Numbered)
    (place : String) :
    ownCount (ownUrl env config) w'.servers.store place ≤
        max 1 (ownCount (ownUrl env config) w.servers.store place) ∧
      others (ownUrl env config) w'.servers.store place =
        others (ownUrl env config) w.servers.store place := by
  obtain ⟨work, client, via⟩ := HookWork.of_course course
  rw [operations_append] at work
  have via : ∀ e ∈ es, e.Via client := fun e member => via e (List.mem_append_left later member)
  rcases follows_via via follows with same | ⟨repository, follows⟩
  · rw [same]
    exact ⟨Nat.le_max_right _ _, rfl⟩
  · exact ⟨work.begun.ownCount_le numbered follows place,
      work.begun.others_eq numbered follows place⟩

theorem Current.ownUrl (current : Current ns name w config) :
    ownUrl env config = env.settings.webhookUrl ns name := by
  rw [ownUrl_placed current.place, hookUrl, current.name]

theorem Upkeep.ownCount_le (upkeep : Upkeep env ns name w w') (numbered : w.servers.store.Numbered)
    (place : String) :
    w'.servers.store.Numbered ∧
      ownCount (env.settings.webhookUrl ns name) w'.servers.store place ≤
        max 1 (ownCount (env.settings.webhookUrl ns name) w.servers.store place) := by
  induction upkeep with
  | start => exact ⟨numbered, Nat.le_max_right _ _⟩
  | changed before cluster ih => exact ih
  | pass before current course follows ih =>
    obtain ⟨numbered, le⟩ := ih
    refine ⟨follows.keeps (fun _ _ _ _ => numbered_hosts) numbered, ?_⟩
    have more := (pass_hooks course follows numbered place).1
    rw [current.ownUrl] at more
    omega

/-- However often passes over a config are made, and wherever they break off or fail to store what they
found out: a repository never has more than one hook for the config unless it had more before. No pass
adds or removes a hook with another URL, and a hook is only registered for a config that carries the
finalizer and is not being deleted. -/
theorem upkeep_keeps_one_hook (upkeep : Upkeep env ns name w w')
    (numbered : w.servers.store.Numbered) :
    let own := env.settings.webhookUrl ns name
    (∀ place, ownCount own w'.servers.store place ≤ max 1 (ownCount own w.servers.store place)) ∧
    ∀ (now : Instant) (config : RepoConfig) (es later : List Event) (r : Except Error Schedule)
      (w'' : World), Current ns name w' config →
      Course (reconcileConfig env now config) (es ++ later) r → Follows World.Hosts w' es w'' →
      (∀ place, others own w''.servers.store place = others own w'.servers.store place) ∧
      ∀ client url o, ⟨.git client (.registerWebhook url), o⟩ ∈ es →
        own = some url ∧ configFinalizer ∈ config.finalizers ∧ config.isDeleting = false := by
  intro own
  refine ⟨fun place => (upkeep.ownCount_le numbered place).2, ?_⟩
  intro now config es later r w'' current course follows
  have same : ownUrl env config = own := current.ownUrl
  constructor
  · intro place
    have kept := (pass_hooks course follows (upkeep.ownCount_le numbered place).1 place).2
    rwa [same] at kept
  · intro client url o member
    obtain ⟨known, tended⟩ := registers_of_course course (List.mem_append_left later member)
    exact ⟨same.symm.trans known, tended⟩

/-- A pass that runs is one of a sequence. -/
theorem Upkeep.perform {w₁ : World} (before : Upkeep env ns name w w₁)
    (current : Current ns name w₁ config) (now : Instant) :
    Upkeep env ns name w (w₁.perform now (reconcileConfig env now config).run).2 := by
  obtain ⟨path, follows⟩ := path_trace World.Hosts (World.answer now) (World.hosts_answer now)
    (reconcileConfig env now config).run w₁
  rw [← List.append_nil (trace _ _ _)] at path
  exact before.pass current path follows

/-- A config that carries the finalizer, of a repository in memory. -/
def tended : RepoConfig :=
  { hosted with metadata := { hosted.metadata with finalizers := some [configFinalizer] } }

/-- A world with that config, where a hook was registered at the repository. -/
def hooked (url : String) : World where
  cluster := (Cluster.Memory.putConfig {} tended).putSecret "ci" "git" "token" "s3cret"
  servers.store := (Store.answer default "org/repo" (.registerWebhook url)
    { repositories := .ofList [("org/repo", {})] }).2

theorem numbered_hooked (url : String) : (hooked url).servers.store.Numbered := by
  have hookless (place : String) :
      Store.hooks { repositories := .ofList [("org/repo", {})] } place = ∅ := by
    simp only [Store.hooks, Table.ofList, List.foldl_cons, List.foldl_nil, Table.get?_insert]
    split <;> rfl
  exact (Git.numbered_hookless hookless).step (Git.hookStep_answer _ _ _ _)

/-- Between two passes the status of the first one gets lost; there is one hook all the same. -/
theorem upkeep_keeps_one_hook_lost :
    let env : Surroundings := ⟨{ externalHostname := some "ci.example.com" }, true⟩
    let w := hooked "http://elsewhere.example.com"
    let once := (w.perform default (reconcileConfig env default tended).run).2
    let lost := { once with cluster := w.cluster }
    let twice := (lost.perform default (reconcileConfig env default tended).run).2
    let own := env.settings.webhookUrl "ci" "repo"
    Upkeep env "ci" "repo" w twice ∧ w.servers.store.Numbered ∧
    ownCount own twice.servers.store "org/repo" ≤ max 1 (ownCount own w.servers.store "org/repo") ∧
    twice.servers.store.hookList "org/repo" = [⟨1, "http://elsewhere.example.com"⟩,
      ⟨2, "http://ci.example.com/webhook/ci/repo"⟩] := by
  intro env w once lost twice own
  have numbered : w.servers.store.Numbered := numbered_hooked _
  have stored : Current "ci" "repo" w tended := ⟨rfl, rfl, rfl⟩
  have again : Current "ci" "repo" lost tended := ⟨rfl, rfl, rfl⟩
  have first : Upkeep env "ci" "repo" w once := Upkeep.start.perform stored default
  have upkeep : Upkeep env "ci" "repo" w twice := (first.changed w.cluster).perform again default
  exact ⟨upkeep, numbered, (upkeep_keeps_one_hook upkeep numbered).1 "org/repo",
    by decide +kernel⟩

end Gatehouse.Control
