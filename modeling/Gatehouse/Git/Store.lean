import Gatehouse.Git.Codec
import Gatehouse.Git.Query
import Gatehouse.Table

/-!
# A git provider in memory

`Store` keeps users and repositories in memory and answers the operations of a provider. A failing
operation changes nothing, and the ids that the store hands out only grow.
-/

namespace Gatehouse.Git

/-- A repository in memory. -/
structure RepoState where
  hooks : Table Int Hook := ∅
  canWrite : Table String Bool := ∅
  pullRequests : Table Int PullRequest := ∅
  diffs : Table Int Diff := ∅
  pullRequestCommits : Table Int (List Commit) := ∅
  /-- Commits by branch, the oldest first. -/
  commits : Table String (List Commit) := ∅
  /-- Status checks by commit. -/
  statuses : Table String (List CommitStatus) := ∅
  /-- Comments by issue, in the order of their creation. -/
  comments : Table Int (List Comment) := ∅
  branches : Table String Branch := ∅
  deriving DecidableEq

/-- Users, repositories and the id that was handed out last. -/
structure Store where
  users : Table String User := ∅
  repositories : Table String RepoState := ∅
  lastId : Int := 0
  deriving DecidableEq

/-- A repository whose name has these words in it answers everything with a rate limit. -/
def rateLimitMarker : String := "test-rate-limit"

/-- How long such a rate limit lasts, in seconds. -/
def rateLimitWait : Int := 100

/-- The rate limit of a repository in memory, if its name asks for one. The seconds that a clock can
read are far from the end of 64-bit words. -/
def rateLimitOf? (now : Int) (repository : String) : Option Error :=
  if Text.contains rateLimitMarker.toList repository.toList then
    some (.rateLimited (now + rateLimitWait) "code 403. Please wait until reset")
  else none

namespace RepoState

/-- The pull request with an id. -/
def pullRequest? (r : RepoState) (id : Int) : Except Error PullRequest :=
  match r.pullRequests.get? id with
  | some pr => .ok pr
  | none => .error (.notFound s!"pull request {id}")

/-- Put a label on a pull request unless it is there. -/
def withLabel (pr : PullRequest) (label : String) : PullRequest :=
  if pr.hasLabel label then pr else { pr with labels := pr.labels ++ [⟨label⟩] }

/-- Take a label off a pull request. -/
def withoutLabel (pr : PullRequest) (label : String) : PullRequest :=
  { pr with labels := pr.labels.filter (·.name ≠ label) }

/-- Append to the list of a key. -/
def append {κ α : Type} [DecidableEq κ] [LT κ] [DecidableLT κ] (t : Table κ (List α)) (k : κ)
    (a : α) : Table κ (List α) := t.insert k (t.getD k [] ++ [a])

/-- Merge the pull request of an id into its base branch. -/
def merged (r : RepoState) (id : Int) (pr : PullRequest) (message : String) : RepoState :=
  let commit : Commit :=
    { sha := pr.head.sha
      message := if message = "" then defaultMergeMessage pr else message
      author := pr.author.name }
  { r with
    pullRequests := r.pullRequests.insert id { pr with state := .closed, mergeable := false }
    commits := append r.commits pr.base.ref commit }

/-- Answer an operation; with it come the repository and the id handed out last as they are then.
Nothing is returned for the state when the operation fails. -/
def answer (now : Instant) (r : RepoState) (lastId : Int) :
    (q : Query) → Except Error (q.Answer × RepoState × Int)
  | .listWebhooks => .ok (r.hooks.values, r, lastId)
  | .registerWebhook url =>
    let id := lastId + 1
    .ok ((), { r with hooks := r.hooks.insert id ⟨id, url⟩ }, id)
  | .deleteWebhook id =>
    match r.hooks.get? id with
    | some _ => .ok ((), { r with hooks := r.hooks.erase id }, lastId)
    | none => .error (.notFound s!"webhook {id}")
  | .listCommitStatuses ref =>
    match r.statuses.get? ref with
    | some statuses => .ok (statuses, r, lastId)
    | none => .error (.notFound s!"ref {ref}")
  | .setCommitStatus sha status =>
    .ok ((), { r with statuses := append r.statuses sha status }, lastId)
  | .getUserInfo name => .error (.notFound s!"user {name}")
  | .canUserWrite user => .ok (r.canWrite.getD user.name false, r, lastId)
  | .registerComment _ issue body =>
    let id := lastId + 1
    let comment : Comment := { id, body, author := {}, createdAt := now }
    .ok ((), { r with comments := append r.comments issue comment }, id)
  | .listComments id => .ok (newestFirst (r.comments.getD id []), r, lastId)
  | .listPullRequests onlyOpen =>
    .ok (r.pullRequests.values.filter fun pr => !onlyOpen || pr.isOpen, r, lastId)
  | .getPullRequest id => do
    let pr ← r.pullRequest? id
    .ok (pr, r, lastId)
  | .mergePullRequest id _ _ message => do
    let pr ← r.pullRequest? id
    .ok ((), r.merged id pr message, lastId)
  | .getPullRequestDiff id =>
    match r.diffs.get? id with
    | some diff => .ok (diff, r, lastId)
    | none => .error (.notFound s!"diff of pull request {id}")
  | .listPullRequestCommits id => .ok (r.pullRequestCommits.getD id [], r, lastId)
  | .listLabels id => do
    let pr ← r.pullRequest? id
    .ok (pr.labels, r, lastId)
  | .setLabel _ id label => do
    let pr ← r.pullRequest? id
    .ok ((), { r with pullRequests := r.pullRequests.insert id (withLabel pr label) }, lastId)
  | .deleteLabel _ id label => do
    let pr ← r.pullRequest? id
    .ok ((), { r with pullRequests := r.pullRequests.insert id (withoutLabel pr label) }, lastId)
  | .getBranch name =>
    match r.branches.get? name with
    | some branch => .ok (branch, r, lastId)
    | none => .error (.notFound s!"branch {name}")

end RepoState

namespace Store

/-- Answer an operation on a repository. -/
def answer (now : Instant) (repository : String) (q : Query) (s : Store) : q.Outcome × Store :=
  match rateLimitOf? now.epochSeconds repository with
  | some e => (.error e, s)
  | none =>
    match q with
    | .getUserInfo name =>
      match s.users.get? name with
      | some user => (.ok user, s)
      | none => (.error (.notFound s!"user {name}"), s)
    | q =>
      match s.repositories.get? repository with
      | none => (.error (.notFound "no such repository"), s)
      | some r =>
        match r.answer now s.lastId q with
        | .ok (a, r, lastId) =>
          (.ok a, { s with repositories := s.repositories.insert repository r, lastId })
        | .error e => (.error e, s)

/-- Run a program on a repository of the store. -/
def run {α : Type} (now : Instant) (repository : String) (action : Action α) (s : Store) :
    Except Error α × Store :=
  Program.run (answer now repository) action.run s

end Store

end Gatehouse.Git
