import Gatehouse.Git.Error
import Gatehouse.Http.Message
import Gatehouse.Json.Render
import Gatehouse.Settings

/-!
# Errors of the controller

Why a pass or a request failed, how that is worded, and how the webhook server answers it.
-/

namespace Gatehouse.Control

/-- The cause of a failure. -/
inductive Error where
  /-- The cluster refused a request, with a status code, or did not answer it properly. -/
  | cluster (code : Option Nat)
  | git (e : Git.Error)
  | config (e : Settings.Error)
  | notFound (what : String)
  | conflict (message : String)
  | store (message : String)
  | missingSecret (secret : String)
  /-- An object lacks something that it must have. -/
  | missingKey (path : String)
  deriving DecidableEq, Repr

/-- The wording of a failure. -/
def Error.message : Error → String
  | cluster (some code) => "kubernetes error: ApiError: code " ++ toString code
  | cluster none => "kubernetes error: request or answer malformed"
  | git e => e.message
  | config e => "configuration error: " ++ e.message
  | notFound what => what ++ " not found"
  | conflict text => text
  | store text => "store error: " ++ text
  | missingSecret secret => "secret " ++ secret ++ " not found"
  | missingKey path => "object is missing " ++ path

/-- The failure of an object without a namespace. -/
def Error.missingNamespace : Error := .missingKey ".metadata.namespace"

/-- How the webhook server refuses a request. -/
inductive Refusal where
  | notFound (message : String)
  | badRequest (message : String)
  | unauthorized (message : String)
  | internal (message : String)
  deriving DecidableEq, Repr

namespace Refusal

/-- The refusal for a failure of a git provider. -/
def ofGit : Git.Error → Refusal
  | .invalidWebhook text => .unauthorized text
  | .decode text => .badRequest text
  | .notFound text => .notFound text
  | e => .internal e.message

/-- The refusal for a failure. -/
def ofError : Error → Refusal
  | .git e => ofGit e
  | .notFound what => .notFound (what ++ " not found")
  | e => .internal e.message

/-- The status code of a refusal. -/
def status : Refusal → Nat
  | notFound _ => 404
  | badRequest _ => 400
  | unauthorized _ => 401
  | internal _ => 500

/-- What a refusal says. -/
def message : Refusal → String
  | notFound text => text
  | badRequest text => text
  | unauthorized text => text
  | internal text => text

/-- The answer to a refused request. -/
def response (r : Refusal) : Http.Response :=
  { status := r.status, body := (Json.obj [("error", .str r.message)]).render }

end Refusal

end Gatehouse.Control
