import Gatehouse.Text.Blank
import Gatehouse.Time.Instant

/-!
# Git objects

What git providers tell about repositories, in terms that fit all of them. A pull request stands for
what one provider calls a pull request and another a merge request.
-/

namespace Gatehouse.Git

/-- The kinds of git provider; the last keeps everything in memory. -/
inductive Provider where
  | github
  | gitlab
  | fake
  deriving DecidableEq, Repr

/-- The name of a provider. -/
def Provider.name : Provider → String
  | .github => "github"
  | .gitlab => "gitlab"
  | .fake => "fake"

/-- The provider with a given name. -/
def Provider.named? : String → Option Provider
  | "github" => some .github
  | "gitlab" => some .gitlab
  | "fake" => some .fake
  | _ => none

/-- The lower case of the characters whose lower case is an ASCII letter: the ASCII capitals and
the sign for kelvin. -/
def lowerLetter (c : Char) : Char := if c = '\u212a' then 'k' else c.toLower

/-- The provider named by a text in any mixture of cases. -/
def Provider.ofText? (s : String) : Option Provider :=
  Provider.named? (String.ofList (s.toList.map lowerLetter))

/-- A remote account. -/
structure User where
  id : Int := 0
  name : String := ""
  email : Option String := none
  deriving DecidableEq, Repr

/-- Do two values denote the same account? Some payloads carry the id only and others the name only,
so either is enough; the id 0 and the empty name mean nothing. -/
def User.isSame (a b : User) : Bool :=
  (a.id ≠ 0 && a.id = b.id) || (a.name ≠ "" && a.name = b.name)

/-- The repository that an event is about. -/
structure Repository where
  name : String
  url : String
  deriving DecidableEq, Repr

/-- A callback that is registered with the provider. -/
structure Hook where
  id : Int
  url : String
  deriving DecidableEq, Repr

/-- The state of a status check. -/
inductive CheckState where
  | pending
  | success
  | failure
  | error
  deriving DecidableEq, Repr

/-- The name of a state. -/
def CheckState.name : CheckState → String
  | .pending => "pending"
  | .success => "success"
  | .failure => "failure"
  | .error => "error"

/-- A status check attached to a commit. -/
structure CommitStatus where
  context : String
  state : CheckState
  description : String
  targetUrl : Option String := none
  deriving DecidableEq, Repr

/-- What a comment or a label is attached to. -/
inductive IssueType where
  | issue
  | pullRequest
  deriving DecidableEq, Repr

/-- Is a pull request open? -/
inductive PullRequestState where
  | opened
  | closed
  deriving DecidableEq, Repr

/-- The word for a state. -/
def PullRequestState.word : PullRequestState → String
  | .opened => "open"
  | .closed => "closed"

/-- What happened to a pull request in the event that carried it. -/
inductive PullRequestAction where
  | opened
  | closed
  | reopened
  | synchronized
  | labeled
  | unlabeled
  | other
  deriving DecidableEq, Repr

/-- What a review says about approval. -/
inductive ReviewState where
  | approved
  | unapproved
  deriving DecidableEq, Repr

/-- A label. -/
structure Label where
  name : String
  deriving DecidableEq, Repr

/-- A branch and the commit it points to. -/
structure Tip where
  ref : String := ""
  sha : String := ""
  deriving DecidableEq, Repr

/-- A pull request as it was at some time. -/
structure PullRequest where
  id : Int
  title : String
  url : String := ""
  author : User
  state : PullRequestState := .opened
  action : PullRequestAction := .other
  head : Tip := {}
  base : Tip := {}
  mergeable : Bool := true
  labels : List Label := []
  /-- The labels that the event put on or took off. -/
  labelChanged : List Label := []
  deriving DecidableEq, Repr

/-- Does the pull request carry a label of that name? -/
def PullRequest.hasLabel (pr : PullRequest) (name : String) : Bool :=
  pr.labels.any (·.name == name)

/-- Is the pull request open? -/
def PullRequest.isOpen (pr : PullRequest) : Bool := pr.state == .opened

/-- A comment or a review. -/
structure Comment where
  /-- Given by the provider; decides between comments of the same time. -/
  id : Int
  body : String
  author : User
  createdAt : Instant
  reviewState : Option ReviewState := none
  /-- The pull request it belongs to, if it does not belong to a plain issue. -/
  pullRequest : Option PullRequest := none
  deriving DecidableEq

/-- Comes `a` before or with `b` in a list that has the newest first? Of two comments of the same time
the one with the larger id counts as newer. -/
def Comment.notOlder (a b : Comment) : Bool :=
  b.createdAt.rank < a.createdAt.rank ||
    (b.createdAt.rank == a.createdAt.rank && b.id ≤ a.id)

/-- Comments with the newest first. -/
def newestFirst (comments : List Comment) : List Comment := comments.mergeSort Comment.notOlder

/-- How a pull request is merged. -/
inductive MergeMethod where
  | merge
  | squash
  deriving DecidableEq, Repr

/-- The name of a method. -/
def MergeMethod.name : MergeMethod → String
  | .merge => "merge"
  | .squash => "squash"

/-- A commit. -/
structure Commit where
  sha : String
  message : String
  author : String
  deriving DecidableEq, Repr

/-- A file that a pull request touches. -/
structure Change where
  filename : String
  oldFilename : Option String := none
  additions : Nat
  deletions : Nat
  deriving DecidableEq, Repr

/-- All files that a pull request touches. -/
structure Diff where
  changes : List Change := []
  deriving DecidableEq, Repr

/-- A branch. -/
structure Branch where
  name : String
  commitSha : String
  deriving DecidableEq, Repr

/-- The message of a merge commit when none is given. -/
def defaultMergeMessage (pr : PullRequest) : String := s!"{pr.title}(#{pr.id})"

end Gatehouse.Git
