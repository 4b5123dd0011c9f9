import Gatehouse.Proofs.Control.View

/-!
# What a client is made of

The client of a config is made of its token and its webhook secret, which are read in the namespace of
the config. Reading changes nothing (`follows_reads`), and a client is only made if all that is
referred to can be read (`granted_clientFor`).
-/

namespace Gatehouse.Control

open Program Resource

variable {hasStore : Bool} {config : RepoConfig} {client : Git.Client} {ns : String}
  {es : List Event} {w w' : World}

theorem follows_reads (reads : ∀ e ∈ es, Reads e.1) (follows : Follows World.May w es w') :
    w' = w := by
  refine follows.keeps (P := fun w' => w' = w) ?_ rfl
  rintro ⟨q, r⟩ member w₁ w₂ answered rfl
  have asked : Reads q := reads _ member
  cases asked with
  | config ns name | secret ns name key =>
    rcases answered with ⟨e, -, rfl⟩ | ⟨-, rfl⟩
    · rfl
    · rfl

/-- What gives access to the repository of a config. -/
structure Credentials where
  home : String
  token : String
  webhookSecret : Option String

/-- The cluster has the credentials that a config refers to. -/
structure Credentials.Readable (c : Credentials) (m : Cluster.Memory) (config : RepoConfig) :
    Prop where
  home : config.metadata.inNamespace = some c.home
  token : ∃ key, config.spec.git.token = some key ∧
    m.secrets.get? (Cluster.Memory.secretKey c.home key.name key.key) = some c.token
  webhookSecret : c.webhookSecret.isSome = config.spec.webhookSecret.isSome ∧
    ∀ key, config.spec.webhookSecret = some key →
      m.secrets.get? (Cluster.Memory.secretKey c.home key.name key.key) = c.webhookSecret

/-- What the client of a config is made from. -/
def Credentials.settings (c : Credentials) (hasStore : Bool) (config : RepoConfig) :
    Git.ClientSettings where
  provider := config.spec.git.provider
  repository := config.spec.git.repository
  apiUrl := config.spec.git.apiUrl
  token := some c.token
  webhookSecret := c.webhookSecret
  hasStore

theorem secret_read {name key : String} {value : Option String}
    (answered : World.May (.cluster (.readSecret ns name key)) w (.ok value) w') :
    w' = w ∧ w.cluster.secrets.get? (Cluster.Memory.secretKey ns name key) = value := by
  rcases answered with ⟨e, impossible, -⟩ | ⟨served, rfl⟩
  · cases impossible
  · exact ⟨rfl, (Except.ok.inj served).symm⟩

theorem read_webhookSecret {secret : Option String}
    (course : Course (webhookSecret ns config) es (.ok secret))
    (follows : Follows World.May w es w') :
    secret.isSome = config.spec.webhookSecret.isSome ∧
      ∀ key, config.spec.webhookSecret = some key →
        w.cluster.secrets.get? (Cluster.Memory.secretKey ns key.name key.key) = secret := by
  unfold webhookSecret at course
  cases referred : config.spec.webhookSecret with
  | none =>
    rw [referred] at course
    obtain ⟨-, read⟩ := course_pure.mp course
    cases read
    simp
  | some key =>
    rw [referred] at course
    rcases course_askCluster_bind.mp course with ⟨e, impossible, -⟩ | ⟨value, rest, rfl, after⟩
    · cases impossible
    · obtain ⟨w₁, answered, -⟩ := follows_cons.mp follows
      obtain ⟨-, found⟩ := secret_read answered
      cases value with
      | none =>
        obtain ⟨-, impossible⟩ := course_throw.mp after
        cases impossible
      | some value =>
        obtain ⟨-, read⟩ := course_pure.mp after
        cases read
        refine ⟨rfl, ?_⟩
        intro key' same
        obtain rfl := Option.some.inj same
        exact found

/-- The way in which a client is made. -/
theorem course_clientFor (course : Course (clientFor hasStore config) es (.ok (some client))) :
    ∃ (c : Credentials) (key : SecretKey) (rest : List Event),
      config.metadata.inNamespace = some c.home ∧ config.spec.git.token = some key ∧
      es = ⟨.cluster (.readSecret c.home key.name key.key), .ok (some c.token)⟩ :: rest ∧
      Course (webhookSecret c.home config) rest (.ok c.webhookSecret) ∧
      connect (c.settings hasStore config) = .ok client := by
  unfold clientFor at course
  rcases course_lift_bind.mp course with ⟨e, -, impossible, -⟩ | ⟨home, placed, course₁⟩
  · cases impossible
  cases referred : config.spec.git.token with
  | none =>
    rw [referred] at course₁
    obtain ⟨-, impossible⟩ := course_pure.mp course₁
    cases impossible
  | some key =>
    rw [referred] at course₁
    rcases course_askCluster_bind.mp course₁ with ⟨e, impossible, -⟩ | ⟨token, rest, rfl, course₂⟩
    · cases impossible
    cases token with
    | none =>
      obtain ⟨-, impossible⟩ := course_pure.mp course₂
      cases impossible
    | some token =>
      rcases course_bind.mp course₂ with
        ⟨e, impossible, -⟩ | ⟨first, secret, second, rfl, read, course₃⟩
      · cases impossible
      rcases course_lift_bind.mp course₃ with ⟨e, -, impossible, -⟩ | ⟨made, connected, course₄⟩
      · cases impossible
      obtain ⟨rfl, same⟩ := course_pure.mp course₄
      cases same
      rw [List.append_nil]
      exact ⟨⟨home, token, secret⟩, key, first, namespaceOf_ok placed, rfl, rfl, read, connected⟩

/-- A client is made of credentials that can be read. -/
theorem granted_clientFor (course : Course (clientFor hasStore config) es (.ok (some client)))
    (follows : Follows World.May w es w') :
    ∃ c : Credentials, c.Readable w.cluster config ∧
      connect (c.settings hasStore config) = .ok client := by
  obtain ⟨c, key, rest, place, referred, rfl, read, connected⟩ := course_clientFor course
  obtain ⟨w₁, answered, later⟩ := follows_cons.mp follows
  obtain ⟨rfl, found⟩ := secret_read answered
  exact ⟨c, ⟨place, ⟨key, referred, found⟩, read_webhookSecret read later⟩, connected⟩

end Gatehouse.Control
