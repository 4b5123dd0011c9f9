import Gatehouse.Git.Codec
import Gatehouse.Json.Render
import Gatehouse.Proofs.Control.Access
import Gatehouse.Proofs.Control.Task
import Gatehouse.Proofs.Git.Body

/-!
# What a request to the webhook server leads to

A delivery is received by reading a config and secrets and by parsing the body, and can end at each of
these stages (`Receives`); all of that asks only to read (`asks_receive`). It is answered by what it turned
out to be. If that is an event, then a job is triggered and the event dispatched, once each and in this
order; else nothing more is asked. So the world stays as it is unless there was an event, and for that
everything has to be there (`webhook_effects`).
-/

namespace Gatehouse.Control

open Git Program Resource

variable {hasStore : Bool} {now : Instant} {ns name method path : String} {d : Delivery}
  {config : RepoConfig} {client : Git.Client} {event : Webhook} {es reads : List Event}
  {answer : Http.Response} {w w' : World}

/-- What a delivery turns out to be once its body is parsed. -/
def Received.ofParse (config : RepoConfig) (client : Git.Client) :
    Except Git.Error (Option Webhook) → Except Error Received
  | .error e => .error (.git e)
  | .ok none => .ok .ignored
  | .ok (some w) => .ok (.event config client w)

/-- All ways in which a delivery is received: what is asked and answered, and what it turns out to be. -/
inductive Receives (hasStore : Bool) (now : Instant) (ns name : String) (d : Delivery) :
    List Event → Except Error Received → Prop
  | unread (e : Error) :
    Receives hasStore now ns name d [⟨.cluster (.getConfig ns name), .error e⟩] (.error e)
  | unknown : Receives hasStore now ns name d [⟨.cluster (.getConfig ns name), .ok none⟩]
      (.error (.notFound ("repo config " ++ ns ++ "/" ++ name)))
  /-- The config is there, but its secrets cannot be read or make no client. -/
  | noClient {config : RepoConfig} {reads : List Event} {e : Error}
    (made : Course (clientFor hasStore config) reads (.error e)) :
    Receives hasStore now ns name d
      (⟨.cluster (.getConfig ns name), .ok (some config)⟩ :: reads) (.error e)
  | noToken {config : RepoConfig} {reads : List Event}
    (made : Course (clientFor hasStore config) reads (.ok none)) :
    Receives hasStore now ns name d
      (⟨.cluster (.getConfig ns name), .ok (some config)⟩ :: reads) (.ok .inert)
  | parsed {config : RepoConfig} {reads : List Event} {client : Git.Client}
    (made : Course (clientFor hasStore config) reads (.ok (some client))) :
    Receives hasStore now ns name d
      (⟨.cluster (.getConfig ns name), .ok (some config)⟩ :: reads)
      (Received.ofParse config client (client.parseWebhook now d.headers d.body))

/-- A config was found under a name, and its client was made. -/
def Obtained (hasStore : Bool) (ns name : String) (config : RepoConfig) (client : Git.Client)
    (es : List Event) : Prop :=
  ∃ reads, es = ⟨.cluster (.getConfig ns name), .ok (some config)⟩ :: reads ∧
    Course (clientFor hasStore config) reads (.ok (some client))

theorem receive_eq (hasStore : Bool) (now : Instant) (ns name : String) (d : Delivery) :
    receive hasStore now ns name d = (do
      match ← askCluster (.getConfig ns name) with
      | none => throw (.notFound ("repo config " ++ ns ++ "/" ++ name))
      | some config =>
        match ← clientFor hasStore config with
        | none => return .inert
        | some client =>
          liftM (Received.ofParse config client (client.parseWebhook now d.headers d.body))) := by
  unfold receive
  congr 1
  funext config?
  cases config? with
  | none => rfl
  | some config =>
    refine congrArg (clientFor hasStore config >>= ·) (funext fun client? => ?_)
    cases client? with
    | none => rfl
    | some client =>
      cases parsed : client.parseWebhook now d.headers d.body with
      | error e =>
        simp only [parsed]
        rfl
      | ok event? =>
        simp only [parsed]
        cases event? <;> rfl

theorem asks_receive : (receive hasStore now ns name d).run.Asks Reads := by
  rw [receive_eq]
  refine Asks.andThen ⟨.config ns name, fun _ => trivial⟩ fun config? => ?_
  cases config? with
  | none => trivial
  | some config =>
    refine Asks.andThen asks_clientFor fun client? => ?_
    cases client? with
    | none => trivial
    | some client => exact asks_lift _

/-- A delivery is received in one of the ways that `Receives` lists. -/
theorem course_receive {received : Except Error Received} :
    Course (receive hasStore now ns name d) reads received ↔
      Receives hasStore now ns name d reads received := by
  rw [receive_eq, course_askCluster_bind]
  constructor
  · rintro (⟨e, rfl, rfl⟩ | ⟨config?, rest, rfl, course⟩)
    · exact .unread e
    cases config? with
    | none =>
      obtain ⟨rfl, rfl⟩ := course_throw.mp course
      exact .unknown
    | some config =>
      rcases course_bind.mp course with ⟨e, rfl, made⟩ | ⟨making, client?, last, rfl, made, course⟩
      · exact .noClient made
      cases client? with
      | none =>
        obtain ⟨rfl, rfl⟩ := course_pure.mp course
        rw [List.append_nil]
        exact .noToken made
      | some client =>
        obtain ⟨rfl, rfl⟩ := course_lift.mp course
        rw [List.append_nil]
        exact .parsed made
  · intro receives
    cases receives with
    | unread e => exact .inl ⟨e, rfl, rfl⟩
    | unknown => exact .inr ⟨none, [], rfl, course_throw.mpr ⟨rfl, rfl⟩⟩
    | @noClient config making e made =>
      exact .inr ⟨some config, making, rfl, course_bind.mpr (.inl ⟨e, rfl, made⟩)⟩
    | @noToken config making made =>
      refine .inr ⟨some config, making, rfl, course_bind.mpr (.inr ?_)⟩
      exact ⟨making, none, [], (List.append_nil _).symm, made, course_pure.mpr ⟨rfl, rfl⟩⟩
    | @parsed config making client made =>
      refine .inr ⟨some config, making, rfl, course_bind.mpr (.inr ?_)⟩
      exact ⟨making, some client, [], (List.append_nil _).symm, made, course_lift.mpr ⟨rfl, rfl⟩⟩

theorem Obtained.receive (obtained : Obtained hasStore ns name config client reads) :
    Course (receive hasStore now ns name d) reads
      (Received.ofParse config client (client.parseWebhook now d.headers d.body)) := by
  obtain ⟨rest, rfl, made⟩ := obtained
  exact course_receive.mpr (.parsed made)

theorem ofParse_event {config' : RepoConfig} {client' : Git.Client}
    {parsed : Except Git.Error (Option Webhook)}
    (h : .ok (.event config client event) = Received.ofParse config' client' parsed) :
    config' = config ∧ client' = client ∧ parsed = .ok (some event) := by
  cases parsed with
  | error e => cases h
  | ok event? =>
    cases event? with
    | none => cases h
    | some event' =>
      cases h
      exact ⟨rfl, rfl, rfl⟩

/-- An event only comes out of a body that a client parsed. -/
theorem obtained_of_event
    (course : Course (receive hasStore now ns name d) es (.ok (.event config client event))) :
    Obtained hasStore ns name config client es ∧
      client.parseWebhook now d.headers d.body = .ok (some event) := by
  generalize ended : (Except.ok (.event config client event) : Except Error Received) = received at course
  cases course_receive.mp course with
  | unread | unknown | noClient | noToken => cases ended
  | parsed made =>
    obtain ⟨rfl, rfl, parsed⟩ := ofParse_event ended
    exact ⟨⟨_, rfl, made⟩, parsed⟩

/-- All is there that it takes for the event of a delivery to be handled. -/
structure Accepted (hasStore : Bool) (now : Instant) (m : Cluster.Memory) (ns name : String)
    (d : Delivery) (config : RepoConfig) (client : Git.Client) (event : Webhook) : Prop where
  found : m.configs.get? (keyOf ns name) = some config
  credentials : ∃ c : Credentials, c.Readable m config ∧
    connect (c.settings hasStore config) = .ok client
  parsed : client.parseWebhook now d.headers d.body = .ok (some event)

theorem Obtained.accepted (obtained : Obtained hasStore ns name config client es)
    (follows : Follows World.May w es w')
    (parsed : client.parseWebhook now d.headers d.body = .ok (some event)) :
    Accepted hasStore now w.cluster ns name d config client event := by
  obtain ⟨rest, rfl, making⟩ := obtained
  obtain ⟨w₁, answered, later⟩ := follows_cons.mp follows
  rcases answered with ⟨e, impossible, -⟩ | ⟨served, rfl⟩
  · cases impossible
  · exact ⟨(Except.ok.inj served).symm, granted_clientFor making later, parsed⟩

/-- Nothing is asked for a request that does not post to a webhook. -/
theorem path_serve (served : Path (serve hasStore now method path d) es answer) :
    (es = [] ∧ ∀ ns name, Route.ofPath path = .webhook ns name → method ≠ "POST") ∨
    ∃ ns name, Route.ofPath path = .webhook ns name ∧ method = "POST" ∧
      Path (serveWebhook hasStore now ns name d) es answer := by
  unfold serve at served
  cases route : Route.ofPath path with
  | webhook ns name =>
    rw [route] at served
    by_cases post : method = "POST"
    · simp only [if_pos post] at served
      exact .inr ⟨ns, name, rfl, post, served⟩
    · simp only [if_neg post] at served
      exact .inl ⟨(path_done.mp served).1, fun _ _ _ => post⟩
  | _ =>
    rw [route] at served
    exact .inl ⟨(path_done.mp served).1, by simp⟩

/-- A delivery is received, and then its event is handled if there is one. -/
theorem path_serveWebhook (served : Path (serveWebhook hasStore now ns name d) es answer) :
    ∃ reads received rest, es = reads ++ rest ∧
      Course (receive hasStore now ns name d) reads received ∧ answer = answerTo received ∧
      ((∃ config client event, received = .ok (.event config client event) ∧
          Path (handleEvent config client event) rest ()) ∨
        rest = [] ∧ ∀ config client event, received ≠ .ok (.event config client event)) := by
  obtain ⟨reads, received, rest, rfl, receives, path⟩ := path_bind.mp served
  refine ⟨reads, received, rest, rfl, receives, ?_⟩
  cases received with
  | error e =>
    obtain ⟨rfl, rfl⟩ := path_done.mp path
    exact ⟨rfl, .inr ⟨rfl, by simp⟩⟩
  | ok received =>
    cases received with
    | inert | ignored =>
      obtain ⟨rfl, rfl⟩ := path_done.mp path
      exact ⟨rfl, .inr ⟨rfl, by simp⟩⟩
    | event config client event =>
      obtain ⟨handling, _, none, rfl, handles, ended⟩ := path_bind.mp path
      obtain ⟨rfl, rfl⟩ := path_done.mp ended
      rw [List.append_nil]
      exact ⟨rfl, .inl ⟨config, client, event, rfl, handles⟩⟩

theorem status_response (r : Refusal) : r.response.status ∈ [400, 401, 404, 500] := by
  cases r <;> simp [Refusal.response, Refusal.status]

theorem status_answerTo (received : Except Error Received) :
    (answerTo received).status ∈ [200, 202, 400, 401, 404, 500] := by
  cases received with
  | error e =>
    have refused := status_response (Refusal.ofError e)
    simp only [answerTo, List.mem_cons] at refused ⊢
    tauto
  | ok received => cases received <;> simp [answerTo]

/-- Which answer tells of which failure of the parser. -/
theorem status_ofParse (config : RepoConfig) (client : Git.Client)
    (parsed : Except Git.Error (Option Webhook)) :
    ((answerTo (Received.ofParse config client parsed)).status = 401 ↔
      ∃ text, parsed = .error (.invalidWebhook text)) ∧
    ((answerTo (Received.ofParse config client parsed)).status = 400 ↔
      ∃ text, parsed = .error (.decode text)) := by
  cases parsed with
  | error e =>
    cases e <;>
      simp [Received.ofParse, answerTo, Refusal.ofError, Refusal.ofGit, Refusal.response,
        Refusal.status]
  | ok event? => cases event? <;> simp [Received.ofParse, answerTo]

/-- Serving a request. A request that does not post to a webhook asks nothing. One that does is received
by reading only and answered by what it turned out to be, and that is the event of a config that is there,
whose credentials can be read, or no event at all. Without an event nothing more is asked and the world
stays as it is; with one, triggering a job and then dispatching the event are all that comes after reading,
whatever comes of them. If the config and its client are obtained, the answer tells how parsing went. -/
theorem webhook_effects (served : Path (serve hasStore now method path d) es answer)
    (follows : Follows World.May w es w') :
    ((∀ ns name, Route.ofPath path = .webhook ns name → method ≠ "POST") → es = [] ∧ w' = w) ∧
    ∀ ns name, Route.ofPath path = .webhook ns name → method = "POST" →
      ∃ reads received rest, es = reads ++ rest ∧
        Course (receive hasStore now ns name d) reads received ∧
        Receives hasStore now ns name d reads received ∧ (∀ e ∈ reads, Reads e.1) ∧
        answer = answerTo received ∧ answer.status ∈ [200, 202, 400, 401, 404, 500] ∧
        ((∀ config client event, received ≠ .ok (.event config client event)) →
          rest = [] ∧ w' = w) ∧
        (∀ config client event, received = .ok (.event config client event) →
          answer.status = 200 ∧ Accepted hasStore now w.cluster ns name d config client event ∧
          ∃ triggered made handled outcome, rest = triggered ++ handled.map (onGit client) ∧
            Course (triggerJob config event) triggered made ∧
            Path ((Chat.defaultDispatcher client.repository).dispatch event) handled outcome) ∧
        ∀ config client, Obtained hasStore ns name config client reads →
          (answer.status = 401 ↔ ∃ text,
            client.parseWebhook now d.headers d.body = .error (.invalidWebhook text)) ∧
          (answer.status = 400 ↔ ∃ text,
            client.parseWebhook now d.headers d.body = .error (.decode text)) := by
  refine ⟨fun unposted => ?_, fun ns name route post => ?_⟩
  · rcases path_serve served with ⟨rfl, -⟩ | ⟨ns, name, route, post, -⟩
    · exact ⟨rfl, follows_nil.mp follows⟩
    · exact absurd post (unposted ns name route)
  · rcases path_serve served with ⟨-, unposted⟩ | ⟨ns', name', route', -, served⟩
    · exact absurd post (unposted ns name route)
    obtain ⟨rfl, rfl⟩ := Route.webhook.inj (route.symm.trans route')
    obtain ⟨reads, received, rest, rfl, receives, rfl, handles⟩ := path_serveWebhook served
    have quiet := asks_receive.path receives
    refine ⟨reads, received, rest, rfl, receives, course_receive.mp receives, quiet, rfl,
      status_answerTo received, ?_, ?_, ?_⟩
    · intro none
      rcases handles with ⟨config, client, event, same, -⟩ | ⟨rfl, -⟩
      · exact absurd same (none config client event)
      · rw [List.append_nil] at follows
        exact ⟨rfl, follows_reads quiet follows⟩
    · rintro config client event rfl
      obtain ⟨w₁, before, -⟩ := follows_append.mp follows
      obtain ⟨obtained, parsed⟩ := obtained_of_event receives
      refine ⟨rfl, obtained.accepted before parsed, ?_⟩
      rcases handles with ⟨_, _, _, same, handles⟩ | ⟨-, none⟩
      · cases same
        exact path_handleEvent.mp handles
      · exact absurd rfl (none config client event)
    · intro config client obtained
      -- One list of events cannot be split into a reception and its sequel in two ways.
      obtain ⟨-, rfl, -⟩ := receives.unique obtained.receive (rfl : reads ++ [] = reads ++ [])
      exact status_ofParse config client (client.parseWebhook now d.headers d.body)

/-- Bob's approval as it is delivered. -/
def bobsApproval : Delivery where
  headers := []
  body := asciiBytes (Json.chars (Chat.remarked "/approve").toJson)

/-- What comes of it. -/
def approvalServed : Http.Response × World :=
  (host [] [] []).perform default
    (serve true default "POST" "/webhook/ci/repo" bobsApproval)

set_option maxRecDepth 10000 in
theorem labels_approvalServed :
    approvalServed.2.servers.store.view.labels "org/repo" 42 = some {Chat.approvedLabel} := by
  decide +kernel

theorem webhook_effects_approval :
    approvalServed.1.status = 200 ∧ ∃ config client event,
      Accepted true default (host [] [] []).cluster "ci" "repo" bobsApproval config client event := by
  obtain ⟨path, follows⟩ := path_trace World.May (World.answer default) (World.may_answer default)
    (serve true default "POST" "/webhook/ci/repo" bobsApproval) (host [] [] [])
  have route : Route.ofPath "/webhook/ci/repo" = .webhook "ci" "repo" := by decide +kernel
  obtain ⟨-, posted⟩ := webhook_effects path follows
  obtain ⟨reads, received, rest, -, -, -, -, -, -, silent, handled, -⟩ :=
    posted "ci" "repo" route rfl
  by_cases event? : ∃ config client event, received = .ok (.event config client event)
  · obtain ⟨config, client, event, here⟩ := event?
    obtain ⟨status, accepted, -⟩ := handled config client event here
    exact ⟨status, config, client, event, accepted⟩
  · -- Without an event the world would be as it was, and the label is new.
    obtain ⟨-, same⟩ := silent fun config client event here => event? ⟨config, client, event, here⟩
    have labels := labels_approvalServed
    rw [approvalServed, World.perform, same] at labels
    exact absurd labels (by decide)

end Gatehouse.Control
