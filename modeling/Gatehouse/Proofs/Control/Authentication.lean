import Mathlib.Data.List.DropRight
import Gatehouse.Proofs.Cluster.Exchange
import Gatehouse.Proofs.Control.Access
import Gatehouse.Proofs.Program.Fixed
import Gatehouse.Proofs.Text.Utf8

/-!
# Deliveries without credentials

A config that refers to a webhook secret is to have a client that turns down all deliveries without
credentials. The secret comes out of the cluster as bytes, is decoded and loses the blanks at its
ends, and what is left may be empty. A missing signature is never right. A missing token passes for
the empty one, and that is right where the secret is empty (`unsigned_deliveries`).
-/

namespace Gatehouse.Text

theorem trimWhere_eq_nil (p : Char → Bool) (s : List Char) :
    trimWhere p s = [] ↔ ∀ c ∈ s, p c = true := by
  have front : (s.dropWhile p).all p = s.all p := by
    rw [List.all_eq_not_any_not, List.any_dropWhile, Bool.not_not]
  rw [show trimWhere p s = (s.dropWhile p).rdropWhile p from rfl, List.rdropWhile_eq_nil_iff,
    ← List.all_eq_true, front, List.all_eq_true]

theorem trimmed_eq_empty (s : String) : trimmed s = "" ↔ ∀ c ∈ s.toList, isBlank c = true := by
  rw [trimmed, ← trimWhere_eq_nil isBlank]
  exact String.ofList_eq_empty_iff

theorem encode_eq_nil (s : String) : encode s = [] ↔ s = "" := by
  have some_ (c : Char) : String.utf8EncodeChar c ≠ [] := by
    intro none
    have size := congrArg List.length none
    have positive := c.utf8Size_pos
    rw [String.length_utf8EncodeChar, List.length_nil] at size
    omega
  rw [encode_eq, List.flatMap_eq_nil_iff, ← String.toList_eq_nil_iff]
  exact ⟨fun nothing => List.eq_nil_iff_forall_not_mem.mpr fun c there => some_ c (nothing c there),
    fun empty c there => by simp [empty] at there⟩

end Gatehouse.Text

namespace Gatehouse.Control

open Program Resource

variable {hasStore : Bool} {config : RepoConfig} {client : Git.Client} {key : SecretKey}
  {es : List Event}

/-- A question to the cluster is answered as its server answers the message for it. -/
def Event.Served (respond : Cluster.Query → Http.Response) : Event → Prop
  | ⟨.cluster q, o⟩ => o = (Cluster.exchange q (respond q)).1
  | _ => True

/-- The header field with the credentials of a delivery. -/
def credentialHeader : Git.Provider → String
  | .github => "x-hub-signature-256"
  | .gitlab => "x-gitlab-token"
  | .fake => ""

/-- The client turns down every delivery without a header field, whatever its event and body. -/
def TurnsDown (client : Git.Client) (header : String) : Prop :=
  ∀ now (headers : Http.Headers) body, headers.find? header = none →
    ∃ message, client.parseWebhook now headers body = .error (.invalidWebhook message)

theorem github_turnsDown {c : Github.Client} {secret : String}
    (guarded : c.webhookSecret = some secret) :
    TurnsDown (.github c) (credentialHeader .github) := by
  intro now headers body unsigned
  have missing : headers.text? "x-hub-signature-256" = none := by
    rw [Http.Headers.text?, show headers.find? "x-hub-signature-256" = none from unsigned]
    rfl
  have unverified : Github.verifies (Text.encode secret) body none = false := rfl
  refine ⟨"signature mismatch", ?_⟩
  simp only [Git.Client.parseWebhook, guarded, Github.parseWebhook, missing, unverified,
    Bool.false_eq_true, if_false]

/-- Without a token a delivery passes for one that carries the empty one. -/
theorem gitlab_turnsDown {c : Gitlab.Client} {secret : String}
    (guarded : c.webhookSecret = some secret) :
    TurnsDown (.gitlab c) (credentialHeader .gitlab) ↔ secret ≠ "" := by
  rw [Ne, ← Text.encode_eq_nil secret]
  constructor
  · intro strict empty
    obtain ⟨message, rejected⟩ := strict default [] [] rfl
    simp only [Git.Client.parseWebhook, guarded, Gitlab.parseWebhook, empty] at rejected
    cases rejected
  · intro something now headers body untokened
    have missing : headers.find? "x-gitlab-token" = none := untokened
    have other : (([] : Bytes) == Text.encode secret) = false := by
      simpa using Ne.symm something
    refine ⟨"token mismatch", ?_⟩
    simp only [Git.Client.parseWebhook, guarded, Gitlab.parseWebhook, missing, Option.getD_none,
      other, Bool.false_eq_true, if_false]

theorem connect_ok {s : Git.ClientSettings} (made : connect s = .ok client) :
    s.connect = .ok client := by
  unfold connect at made
  split at made
  · rename_i connected
    cases made
    exact connected
  · cases made

/-- A client has the webhook secret that it is made with. -/
theorem connect_github {s : Git.ClientSettings} (provider : s.provider = .github)
    (made : connect s = .ok client) :
    ∃ c : Github.Client, client = .github c ∧ c.webhookSecret = s.webhookSecret := by
  have made := connect_ok made
  simp only [Git.ClientSettings.connect, provider, Github.Client.connect] at made
  split at made
  · cases made
  · cases fields : Http.clientHeaders "application/vnd.github+json" s.token with
    | error e =>
      rw [fields] at made
      cases made
    | ok fields' =>
      rw [fields] at made
      cases made
      exact ⟨_, rfl, rfl⟩

theorem connect_gitlab {s : Git.ClientSettings} (provider : s.provider = .gitlab)
    (made : connect s = .ok client) :
    ∃ c : Gitlab.Client, client = .gitlab c ∧ c.webhookSecret = s.webhookSecret := by
  have made := connect_ok made
  simp only [Git.ClientSettings.connect, provider, Gitlab.Client.connect] at made
  split at made
  · cases made
  · cases fields : Http.clientHeaders "application/json" s.token with
    | error e =>
      rw [fields] at made
      cases made
    | ok fields' =>
      rw [fields] at made
      cases made
      exact ⟨_, rfl, rfl⟩

/-- The secret of a client is what the cluster shows, without blanks at the ends. -/
theorem served_webhookSecret {respond : Cluster.Query → Http.Response} {ns : String}
    {secret : Option String} (referred : config.spec.webhookSecret = some key)
    (course : Course (webhookSecret ns config) es (.ok secret))
    (served : ∀ e ∈ es, e.Served respond) :
    ∃ value text,
      Cluster.secretValue? key.key (respond (.readSecret ns key.name key.key)) = some value ∧
      Text.decode value = .ok text ∧ secret = some (Text.trimmed text) := by
  unfold webhookSecret at course
  rw [referred] at course
  rcases course_askCluster_bind.mp course with ⟨e, impossible, -⟩ | ⟨found, rest, rfl, after⟩
  · cases impossible
  cases found with
  | none =>
    obtain ⟨-, impossible⟩ := course_throw.mp after
    cases impossible
  | some found =>
    obtain ⟨-, same⟩ := course_pure.mp after
    cases same
    have answered : Event.Served respond
        ⟨.cluster (.readSecret ns key.name key.key), .ok (some found)⟩ :=
      served _ List.mem_cons_self
    obtain ⟨value, text, shown, decoded, rfl⟩ := Cluster.exchange_readSecret (Eq.symm answered)
    exact ⟨value, text, shown, decoded, rfl⟩

/-- Of a config that refers to a webhook secret, however the cluster answers: where a client is
made, the secret is there and is a text. The client turns down all deliveries without credentials,
unless the provider is GitLab and the secret has nothing but blanks in it. -/
theorem unsigned_deliveries (respond : Cluster.Query → Http.Response)
    (referred : config.spec.webhookSecret = some key)
    (remote : config.spec.git.provider ≠ .fake)
    (course : Course (clientFor hasStore config) es (.ok (some client)))
    (served : ∀ e ∈ es, e.Served respond) :
    ∃ ns value text, config.metadata.inNamespace = some ns ∧
      Cluster.secretValue? key.key (respond (.readSecret ns key.name key.key)) = some value ∧
      Text.decode value = .ok text ∧
      (TurnsDown client (credentialHeader config.spec.git.provider) ↔
        ¬(config.spec.git.provider = .gitlab ∧ ∀ c ∈ text.toList, Text.isBlank c = true)) := by
  obtain ⟨c, token, rest, place, -, rfl, read, made⟩ := course_clientFor course
  obtain ⟨value, text, shown, decoded, secret⟩ :=
    served_webhookSecret referred read fun e member => served e (List.mem_cons_of_mem _ member)
  refine ⟨c.home, value, text, place, shown, decoded, ?_⟩
  cases provider : config.spec.git.provider with
  | fake => exact absurd provider remote
  | github =>
    obtain ⟨g, rfl, guarded⟩ := connect_github (s := c.settings hasStore config) provider made
    have strict := github_turnsDown (guarded.trans secret)
    exact iff_of_true strict fun impossible => nomatch impossible.1
  | gitlab =>
    obtain ⟨g, rfl, guarded⟩ := connect_gitlab (s := c.settings hasStore config) provider made
    rw [gitlab_turnsDown (guarded.trans secret), Ne, Text.trimmed_eq_empty]
    simp only [true_and]

/-- The answers of a server, where nobody else is asked. -/
def servedAnswer (respond : Cluster.Query → Http.Response) : (q : Query) → q.Outcome
  | .cluster q => (Cluster.exchange q (respond q)).1
  | .git _ _ => .error (.request "unreachable")
  | .notify _ => ()

theorem served_asked {α : Type} (respond : Cluster.Query → Http.Response) (pass : Pass α) :
    ∀ e ∈ pass.run.asked (servedAnswer respond), Event.Served respond e := by
  intro e member
  have answered := answer_of_mem_asked (servedAnswer respond) pass.run e member
  obtain ⟨q, o⟩ := e
  cases q with
  | cluster q => exact answered
  | git client q | notify job => trivial

/-- A project on GitLab whose deliveries are to carry a token. -/
def guardedConfig : RepoConfig where
  metadata := { name := some "repo", inNamespace := some "ci" }
  spec := {
    git := { provider := .gitlab, repository := "org/repo", token := some ⟨"git", "token"⟩ }
    webhookSecret := some ⟨"hook", "secret"⟩
    pipelineRef := "build" }

/-- A cluster with an access token and a webhook secret, which is given in base 64. -/
def vault (secret : String) : Cluster.Query → Http.Response
  | .readSecret _ "git" _ =>
    { status := 200, body := "\x7b\"data\": \x7b\"token\": \"dA==\"\x7d\x7d" }
  | .readSecret _ "hook" _ =>
    { status := 200, body := "\x7b\"data\": \x7b\"secret\": \"" ++ secret ++ "\"\x7d\x7d" }
  | _ => Cluster.noAnswer

theorem made_of_join {α : Type} {o : Except Error (Option α)} {a : α}
    (h : o.toOption.join = some a) : o = .ok (some a) := by
  cases o with
  | error e => cases h
  | ok o => exact congrArg Except.ok h

theorem unsigned_deliveries_guarded :
    guardedConfig.spec.webhookSecret = some ⟨"hook", "secret"⟩ ∧
    guardedConfig.spec.git.provider ≠ .fake ∧
    ∃ es client, Course (clientFor false guardedConfig) es (.ok (some client)) ∧
      (∀ e ∈ es, e.Served (vault "aHVudGVyMg==")) ∧ TurnsDown client "x-gitlab-token" := by
  refine ⟨rfl, by decide, ?_⟩
  have works : ((clientFor false guardedConfig).run.eval
      (servedAnswer (vault "aHVudGVyMg=="))).toOption.join.isSome = true := by decide +kernel
  obtain ⟨client, there⟩ := Option.isSome_iff_exists.mp works
  have course :=
    path_asked (servedAnswer (vault "aHVudGVyMg==")) (clientFor false guardedConfig).run
  rw [made_of_join there] at course
  have served := served_asked (vault "aHVudGVyMg==") (clientFor false guardedConfig)
  obtain ⟨ns, value, text, place, shown, decoded, strict⟩ :=
    unsigned_deliveries _ rfl (by decide) course served
  obtain rfl : "ci" = ns := Option.some.inj place
  have bytes : Cluster.secretValue? "secret"
      (vault "aHVudGVyMg==" (.readSecret "ci" "hook" "secret")) =
        some (Text.encode "hunter2") := by decide +kernel
  obtain rfl := Option.some.inj (bytes.symm.trans shown)
  have hunter : Text.decode (Text.encode "hunter2") = .ok "hunter2" := by decide +kernel
  obtain rfl := Except.ok.inj (hunter.symm.trans decoded)
  have blank : Text.isBlank 'h' = false := by decide
  refine ⟨_, client, course, served, strict.mpr fun blanks => ?_⟩
  rw [blanks.2 'h' (by decide)] at blank
  cases blank

/-- A push. -/
def pushBody : Bytes := Text.encode <|
  "\x7b\"ref\": \"refs/heads/main\", \"after\": \"abc123\", \"user_id\": 9, " ++
  "\"user_username\": \"mallory\", \"project\": " ++
  "\x7b\"path_with_namespace\": \"org/repo\", \"web_url\": \"https://gitlab.com/org/repo\"\x7d\x7d"

/-- Where the webhook secret is a blank and a line feed, anyone may deliver pushes without a token.
-/
theorem unsigned_push_accepted :
    ∃ es client, Course (clientFor false guardedConfig) es (.ok (some client)) ∧
      (∀ e ∈ es, e.Served (vault "IAo=")) ∧
      (client.parseWebhook default [("x-gitlab-event", Text.encode "Push Hook")] pushBody).map
          (fun event => event.map fun webhook => (webhook.sender.name, webhook.push)) =
        .ok (some ("mallory", some ⟨"refs/heads/main", "abc123"⟩)) := by
  have served := served_asked (vault "IAo=") (clientFor false guardedConfig)
  have course := path_asked (servedAnswer (vault "IAo=")) (clientFor false guardedConfig).run
  have pushed : ((clientFor false guardedConfig).run.eval
      (servedAnswer (vault "IAo="))).toOption.join.map (fun client =>
        (client.parseWebhook default [("x-gitlab-event", Text.encode "Push Hook")] pushBody).map
          fun event => event.map fun webhook => (webhook.sender.name, webhook.push)) =
      some (.ok (some ("mallory", some ⟨"refs/heads/main", "abc123"⟩))) := by decide +kernel
  obtain ⟨client, there, accepted⟩ := Option.map_eq_some_iff.mp pushed
  rw [made_of_join there] at course
  exact ⟨_, client, course, served, accepted⟩

end Gatehouse.Control
