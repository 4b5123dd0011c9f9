import Gatehouse.Git.Store
import Gatehouse.Github.Client
import Gatehouse.Gitlab.Client

/-!
# Clients of git providers

A client of any provider, bound to one repository, and how it answers operations: out of a store in
memory, or by talking to an HTTP peer.
-/

namespace Gatehouse.Git

/-- A client. -/
inductive Client where
  | inMemory (repository : String)
  | github (c : Github.Client)
  | gitlab (c : Gitlab.Client)

/-- What a client is made from. -/
structure ClientSettings where
  provider : Provider
  repository : String
  /-- The base URL of the provider; the public one if there is none. -/
  apiUrl : Option String := none
  token : Option String := none
  webhookSecret : Option String := none
  /-- Is there a store for the provider in memory? -/
  hasStore : Bool := false

/-- Make a client. -/
def ClientSettings.connect (s : ClientSettings) : Except Error Client :=
  match s.provider with
  | .github =>
    (Github.Client.connect s.repository s.apiUrl s.token s.webhookSecret).map .github
  | .gitlab =>
    (Gitlab.Client.connect s.repository s.apiUrl s.token s.webhookSecret).map .gitlab
  | .fake =>
    if s.hasStore then .ok (.inMemory s.repository)
    else .error (.notInitialized "fake provider requires a store")

/-- What clients talk to: the store in memory, and the HTTP peer. -/
structure Servers where
  store : Store := {}
  peer : Http.Peer := {}

namespace Client

/-- The repository that a client is bound to. -/
def repository : Client → String
  | .inMemory repository => repository
  | .github c => c.repository
  | .gitlab c => c.repository

/-- The event of a webhook delivery. The provider in memory takes canonical documents. -/
def parseWebhook (now : Instant) (headers : Http.Headers) (body : Bytes) :
    Client → Except Error (Option Webhook)
  | .inMemory _ => (readBody Webhook.ofJson? body).map some
  | .github c => Github.parseWebhook now c.webhookSecret headers body
  | .gitlab c => Gitlab.parseWebhook now c.webhookSecret headers body

/-- Answer an operation. -/
def answer (now : Instant) (c : Client) (q : Query) (s : Servers) : q.Outcome × Servers :=
  match c with
  | .inMemory repository =>
    let (outcome, store) := s.store.answer now repository q
    (outcome, { s with store })
  | .github c =>
    let (outcome, peer) := c.answer now.epochSeconds q s.peer
    (outcome, { s with peer })
  | .gitlab c =>
    let (outcome, peer) := c.answer now.epochSeconds q s.peer
    (outcome, { s with peer })

/-- Run a program of operations. -/
def run {α : Type} (now : Instant) (c : Client) (action : Action α) (s : Servers) :
    Except Error α × Servers :=
  Program.run (c.answer now) action.run s

end Client

end Gatehouse.Git
