import Gatehouse.Chat.Dispatch
import Gatehouse.Control.Access
import Gatehouse.Control.Trigger
import Gatehouse.Text.Percent
import Gatehouse.Text.Utf8

/-!
# The webhook server

Each config has a path of its own that its provider delivers webhooks to. A delivery is
authenticated and read, answered, and only then handled: first a job is created if the event
asks for one, then the event is dispatched, and neither depends on how the other ends.
-/

namespace Gatehouse.Control

open Git Resource

/-- A request to the server, with a body of at most two megabytes. Larger ones are left out: the HTTP library
refuses them with 413 before anything here looks at them. -/
structure Delivery where
  headers : Http.Headers
  body : Bytes

/-- What a delivery turns out to be. -/
inductive Received where
  /-- The config has no token, so nothing can be done. -/
  | inert
  /-- Nothing consumes events of this kind. -/
  | ignored
  | event (config : RepoConfig) (client : Git.Client) (w : Webhook)

/-- Authenticate and read a delivery for a config. -/
def receive (hasStore : Bool) (now : Instant) (ns name : String) (d : Delivery) :
    Pass Received := do
  match ← askCluster (.getConfig ns name) with
  | none => throw (.notFound ("repo config " ++ ns ++ "/" ++ name))
  | some config =>
    match ← clientFor hasStore config with
    | none => return .inert
    | some client =>
      match client.parseWebhook now d.headers d.body with
      | .error e => throw (.git e)
      | .ok none => return .ignored
      | .ok (some w) => return .event config client w

/-- Handle an event. -/
def handleEvent (config : RepoConfig) (client : Git.Client) (w : Webhook) : Work Unit :=
  (triggerJob config w).run.bind fun _ =>
    (through client ((Chat.defaultDispatcher client.repository).dispatch w)).bind fun _ => .done ()

/-- The answer to a delivery. -/
def answerTo : Except Error Received → Http.Response
  | .error e => (Refusal.ofError e).response
  | .ok .inert => { status := 202 }
  | .ok .ignored => { status := 200 }
  | .ok (.event _ _ _) => { status := 200 }

/-- Answer a delivery and handle the event it carries. -/
def serveWebhook (hasStore : Bool) (now : Instant) (ns name : String) (d : Delivery) :
    Work Http.Response :=
  (receive hasStore now ns name d).run.bind fun received =>
    match received with
    | .ok (.event config client w) =>
      (handleEvent config client w).bind fun _ => .done (answerTo received)
    | _ => .done (answerTo received)

/-- Where a path leads. -/
inductive Route where
  | webhook (ns name : String)
  /-- A path to a webhook whose parts are not texts. -/
  | garbled
  | health
  | nowhere
  deriving DecidableEq, Repr

/-- A part of a path with its percent-encoded bytes decoded. -/
def decodePart (s : String) : Except Text.Utf8Error String :=
  Text.decode (Text.percentDecode (Text.encode s))

/-- The route of a path; the two last parts of a webhook's path are percent-decoded. -/
def Route.ofPath (path : String) : Route :=
  match (Text.splitOn '/' (path.toList.takeWhile (· != '?'))).map String.ofList with
  | ["", "health"] => .health
  | ["", "webhook", ns, name] =>
    if ns = "" ∨ name = "" then .nowhere
    else
      match decodePart ns, decodePart name with
      | .ok ns, .ok name => .webhook ns name
      | _, _ => .garbled
  | _ => .nowhere

/-- Answer a request. -/
def serve (hasStore : Bool) (now : Instant) (method path : String) (d : Delivery) :
    Work Http.Response :=
  match Route.ofPath path with
  | .nowhere => .done { status := 404 }
  | .health =>
    .done <|
      if method = "GET" then { status := 200, body := "ok" }
      else if method = "HEAD" then { status := 200 }
      else { status := 405 }
  | .garbled =>
    .done <|
      if method = "POST" then { status := 400, body := "Invalid URL: Invalid UTF-8" }
      else { status := 405 }
  | .webhook ns name =>
    if method = "POST" then serveWebhook hasStore now ns name d else .done { status := 405 }

end Gatehouse.Control
