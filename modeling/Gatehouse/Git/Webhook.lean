import Gatehouse.Git.Basic

/-!
# Webhook events

An event that a provider delivered, in terms that fit all providers.
-/

namespace Gatehouse.Git

/-- The kinds of event. -/
inductive EventType where
  | push
  | pullRequestChanged
  | reviewChanged
  | commentCreated
  deriving DecidableEq, Repr

/-- What was pushed. -/
structure Push where
  ref : String
  sha : String
  deriving DecidableEq, Repr

/-- An event. -/
structure Webhook where
  eventType : EventType
  repo : Repository
  sender : User
  push : Option Push := none
  pullRequest : Option PullRequest := none
  comment : Option Comment := none
  deriving DecidableEq

/-- The pull request that an event is about, whichever part carries it. -/
def Webhook.targetPullRequest (w : Webhook) : Option PullRequest :=
  w.pullRequest <|> w.comment.bind (·.pullRequest)

end Gatehouse.Git
