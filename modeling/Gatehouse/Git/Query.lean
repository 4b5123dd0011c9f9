import Gatehouse.Git.Error
import Gatehouse.Git.Webhook
import Gatehouse.Program

/-!
# Operations of git providers

The operations that every provider offers, as questions to the one repository that a client is bound
to. An `Action` is a program that asks such questions and may fail.
-/

namespace Gatehouse.Git

/-- An operation on a repository. -/
inductive Query where
  | listWebhooks
  | registerWebhook (url : String)
  | deleteWebhook (id : Int)
  | listCommitStatuses (ref : String)
  | setCommitStatus (sha : String) (status : CommitStatus)
  | getUserInfo (name : String)
  /-- May the user push to the repository? -/
  | canUserWrite (user : User)
  | registerComment (issueType : IssueType) (id : Int) (body : String)
  /-- Comments and reviews, the newest first. -/
  | listComments (id : Int)
  | listPullRequests (onlyOpen : Bool)
  | getPullRequest (id : Int)
  /-- An empty message stands for the default one. -/
  | mergePullRequest (id : Int) (sha : String) (method : MergeMethod) (message : String)
  | getPullRequestDiff (id : Int)
  | listPullRequestCommits (id : Int)
  | listLabels (id : Int)
  /-- Setting a label that is there already changes nothing. -/
  | setLabel (issueType : IssueType) (id : Int) (label : String)
  /-- Deleting a label that is not there changes nothing. -/
  | deleteLabel (issueType : IssueType) (id : Int) (label : String)
  | getBranch (name : String)
  deriving DecidableEq

/-- What an operation gives if it succeeds. -/
abbrev Query.Answer : Query → Type
  | .listWebhooks => List Hook
  | .registerWebhook _ => Unit
  | .deleteWebhook _ => Unit
  | .listCommitStatuses _ => List CommitStatus
  | .setCommitStatus _ _ => Unit
  | .getUserInfo _ => User
  | .canUserWrite _ => Bool
  | .registerComment _ _ _ => Unit
  | .listComments _ => List Comment
  | .listPullRequests _ => List PullRequest
  | .getPullRequest _ => PullRequest
  | .mergePullRequest _ _ _ _ => Unit
  | .getPullRequestDiff _ => Diff
  | .listPullRequestCommits _ => List Commit
  | .listLabels _ => List Label
  | .setLabel _ _ _ => Unit
  | .deleteLabel _ _ _ => Unit
  | .getBranch _ => Branch

/-- What an operation answers. -/
abbrev Query.Outcome (q : Query) : Type := Except Error q.Answer

/-- A program over the operations of one repository. -/
abbrev Action (α : Type) : Type := ExceptT Error (Program Query Query.Outcome) α

/-- Ask for one operation. -/
def ask (q : Query) : Action q.Answer := ExceptT.mk (Program.query q)

/-- Run an action and give what it ended with as a value, so that a failure does not end the rest. -/
def attempt {α : Type} (action : Action α) : Action (Except Error α) :=
  ExceptT.mk (action.run.bind fun outcome => .done (.ok outcome))

end Gatehouse.Git
