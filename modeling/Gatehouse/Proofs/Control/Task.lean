import Gatehouse.Control.Endpoint
import Gatehouse.Control.World
import Gatehouse.Proofs.Chat.Handling
import Gatehouse.Proofs.Control.Course

/-!
# What handling an event asks

The webhook server handles an event after it has answered. First a job is created if the event asks
for one; then the dispatcher has its operations done through the client of the config, however the job
ended (`path_handleEvent`). Where the client works on a store in memory, the world changes as that
store does (`follows_onGit`).
-/

namespace Gatehouse.Control

open Program Resource

variable {α : Type} {client : Git.Client} {config : RepoConfig} {event : Git.Webhook}
  {es : List Event} {repository : String} {w w' : World}

/-- An operation that is done through a client. -/
def onGit (client : Git.Client) (e : Program.Event Git.Query.Outcome) : Event :=
  ⟨.git client e.1, e.2⟩

/-- The operation of a git provider that an event is, if it is one. -/
def Event.operation? : Event → Option (Program.Event Git.Query.Outcome)
  | ⟨.git _ q, r⟩ => some ⟨q, r⟩
  | _ => none

theorem operations_onGit (gs : List (Program.Event Git.Query.Outcome)) :
    (gs.map (onGit client)).filterMap Event.operation? = gs := by
  induction gs with
  | nil => rfl
  | cons e gs ih =>
    rw [List.map_cons, List.filterMap_cons, ih]
    rfl

theorem path_through {p : Program Git.Query Git.Query.Outcome α} {a : α} :
    Path (through client p) es a ↔ ∃ gs, es = gs.map (onGit client) ∧ Path p gs a := by
  induction p generalizing es with
  | done b =>
    constructor
    · intro path
      obtain ⟨rfl, rfl⟩ := path_done.mp path
      exact ⟨[], rfl, .done a⟩
    · rintro ⟨gs, rfl, path⟩
      obtain ⟨rfl, rfl⟩ := path_done.mp path
      exact .done a
  | ask q next ih =>
    constructor
    · intro path
      obtain ⟨r, rest, rfl, tail⟩ := path_ask.mp path
      obtain ⟨gs, rfl, below⟩ := (ih r).mp tail
      exact ⟨⟨q, r⟩ :: gs, rfl, path_ask.mpr ⟨r, gs, rfl, below⟩⟩
    · rintro ⟨gs, rfl, path⟩
      obtain ⟨r, rest, rfl, tail⟩ := path_ask.mp path
      exact Path.ask (A := Query.Outcome) (Query.git client q) r ((ih r).mpr ⟨rest, rfl, tail⟩)

/-- An event is handled by two pieces of work; how the first ends does not matter to the second. -/
theorem path_handleEvent :
    Path (handleEvent config client event) es () ↔
      ∃ triggered made handled outcome, es = triggered ++ handled.map (onGit client) ∧
        Course (triggerJob config event) triggered made ∧
        Path ((Chat.defaultDispatcher client.repository).dispatch event) handled outcome := by
  constructor
  · intro path
    obtain ⟨triggered, made, rest, rfl, triggers, path⟩ := path_bind.mp path
    obtain ⟨dispatched, outcome, none, rfl, through, ended⟩ := path_bind.mp path
    obtain ⟨handled, rfl, dispatches⟩ := path_through.mp through
    obtain ⟨rfl, -⟩ := path_done.mp ended
    rw [List.append_nil]
    exact ⟨triggered, made, handled, outcome, rfl, triggers, dispatches⟩
  · rintro ⟨triggered, made, handled, outcome, rfl, triggers, dispatches⟩
    have through : Path (through client _) (handled.map (onGit client)) outcome :=
      path_through.mpr ⟨handled, rfl, dispatches⟩
    have ended := through.bind (f := fun _ => .done ()) (.done ())
    rw [List.append_nil] at ended
    exact triggers.bind ended

/-- The world answers as it does at some time. -/
def World.Serves (q : Query) (w : World) (r : q.Outcome) (w' : World) : Prop :=
  ∃ now, w.answer now q = (r, w')

theorem World.Serves.inMemory {q : Git.Query} {r : q.Outcome}
    (h : World.Serves (.git (.inMemory repository) q) w r w') :
    Git.Store.May repository q w.servers.store r w'.servers.store := by
  obtain ⟨now, answered⟩ := h
  have outcome : (w.servers.store.answer now repository q).1 = r := congrArg Prod.fst answered
  have store : (w.servers.store.answer now repository q).2 = w'.servers.store :=
    congrArg (fun reply : q.Outcome × World => reply.2.servers.store) answered
  exact .inl ⟨now, Prod.ext outcome store⟩

/-- A client in memory leads its store to where operations on the store alone may lead it. -/
theorem follows_onGit {gs : List (Program.Event Git.Query.Outcome)}
    (follows : Follows World.Serves w (gs.map (onGit (.inMemory repository))) w') :
    Follows (Git.Store.May repository) w.servers.store gs w'.servers.store := by
  induction gs generalizing w with
  | nil =>
    obtain rfl := follows_nil.mp follows
    exact .nil _
  | cons e gs ih =>
    obtain ⟨w₁, served, rest⟩ := follows_cons.mp follows
    exact .cons served.inMemory (ih rest)

/-- A config of a repository in memory, with a reference to an access token. -/
def hosted : RepoConfig where
  metadata := { name := some "repo", inNamespace := some "ci" }
  spec.git := { provider := .fake, repository := "org/repo", token := some ⟨"git", "token"⟩ }
  spec.pipelineRef := "build"

/-- The world of that config, where some requests to the cluster fail. -/
def host (failures : List (Cluster.Method × String)) (labels : List Git.Label)
    (comments : List Git.Comment) : World where
  cluster := (Cluster.Memory.putConfig { failures } hosted).putSecret "ci" "git" "token" "s3cret"
  servers.store := Chat.desk labels comments

end Gatehouse.Control
