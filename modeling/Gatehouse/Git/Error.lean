import Gatehouse.Text.Blank
import Gatehouse.Text.Decimal

/-!
# Errors of git providers

Why an operation on a git provider failed, how that is worded, and how the time at which a rate
limit ends is read back from the wording.
-/

namespace Gatehouse.Git

/-- The cause of a failure. -/
inductive Error where
  | notInitialized (what : String)
  | notFound (what : String)
  /-- Requests are refused until `resetAt`, in seconds since the start of 1970. -/
  | rateLimited (resetAt : Int) (message : String)
  | unauthorized (user repo : String)
  | request (message : String)
  | api (status : Nat) (message : String)
  | decode (message : String)
  | invalidWebhook (message : String)
  | unsupported (message : String)
  /-- A sum of seconds does not fit into a signed 64-bit word. No provider fails like this: a program
  that checks its sums stops there. -/
  | overflow
  deriving DecidableEq, Repr

/-- The words that every message about a rate limit has in it. -/
def rateLimitText : String := "Rate limit exceeded"

namespace Error

/-- The wording of a failure. -/
def message : Error → String
  | notInitialized what => "not initialized: " ++ what
  | notFound what => "404 " ++ what
  | rateLimited resetAt text =>
    "ratelimit::" ++ toString resetAt ++ ". Rate limit exceeded, " ++ text
  | unauthorized user repo => "user " ++ user ++ " is not authorized on " ++ repo
  | request text => "request failed: " ++ text
  | api status text => "API error (" ++ toString status ++ "): " ++ text
  | decode text => "decode error: " ++ text
  | invalidWebhook text => "invalid webhook: " ++ text
  | unsupported text => text
  | overflow => "arithmetic overflow"

/-- When a rate limit ends. -/
def resetTime? : Error → Option Int
  | rateLimited resetAt _ => some resetAt
  | _ => none

/-- Is something missing? -/
def isNotFound : Error → Bool
  | notFound _ => true
  | _ => false

/-- Was an account refused? -/
def isUnauthorized : Error → Bool
  | unauthorized _ _ => true
  | _ => false

/-- A document that cannot be read as what it should be. -/
def malformed : Error := .decode "malformed document"

end Error

open Text in
/-- The end of a rate limit as a message tells it: the integer between the first `::` and the next
full stop, blanks around it aside. A message without that, or without the words about a rate
limit, gives 0. -/
def rateLimitResetTime (text : String) : Int :=
  if contains rateLimitText.toList text.toList then
    match cut [':', ':'] text.toList with
    | some (_, rest) => (int64? (trim (rest.takeWhile (· != '.')))).getD 0
    | none => 0
  else 0

/-- A sum of seconds if it fits into a signed 64-bit word. -/
def checked (n : Int) : Except Error Int := if Text.isInt64 n then .ok n else .error .overflow

/-- The seconds from `now` until `target`; negative once it has passed. -/
def gapSeconds (now target : Int) : Except Error Int := checked (target - now)

end Gatehouse.Git
