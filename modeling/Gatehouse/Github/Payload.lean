import Gatehouse.Git.Codec
import Gatehouse.Json.Record

/-!
# GitHub documents

How the documents of GitHub's REST interface and of its webhooks are read as git objects.
-/

namespace Gatehouse.Github

open Git Json

/-- An account. -/
def readUser (v : Json) : Option User := do
  let f ← fields? ["id", "login", "email"] v
  let id ← f.required "id" int64?
  let name ← f.required "login" text?
  let email ← f.optional "email" text?
  some { id, name, email }

/-- A label. -/
def readLabel (v : Json) : Option Label := do
  let f ← fields? ["name"] v
  let name ← f.required "name" text?
  some { name }

/-- A branch of a pull request. -/
def readTip (v : Json) : Option Tip := do
  let f ← fields? ["ref", "sha"] v
  let ref ← f.required "ref" text?
  let sha ← f.required "sha" text?
  some { ref, sha }

/-- The state of a pull request or issue. -/
def stateOf (word : String) : PullRequestState :=
  if word.toLower == "open" then .opened else .closed

/-- What happened to a pull request. -/
def actionOf : String → PullRequestAction
  | "opened" => .opened
  | "closed" => .closed
  | "reopened" => .reopened
  | "synchronize" => .synchronized
  | "labeled" => .labeled
  | "unlabeled" => .unlabeled
  | _ => .other

/-- What a review says; its state may be in any case. -/
def reviewStateOf? (word : String) : Option ReviewState :=
  match word.toLower with
  | "approved" => some .approved
  | "changes_requested" => some .unapproved
  | "dismissed" => some .unapproved
  | _ => none

/-- The state of a status check. -/
def checkStateOf : String → CheckState
  | "success" => .success
  | "failure" => .failure
  | "error" => .error
  | _ => .pending

/-- A pull request. One that is not known to be mergeable counts as not mergeable. -/
def readPullRequest (v : Json) : Option PullRequest := do
  let f ← fields? ["number", "title", "html_url", "state", "user", "head", "base", "mergeable",
    "labels"] v
  let id ← f.required "number" int64?
  let title ← f.required "title" text?
  let url ← f.withDefault "html_url" "" text?
  let state ← f.required "state" text?
  let author ← f.required "user" readUser
  let head ← f.required "head" readTip
  let base ← f.required "base" readTip
  let mergeable ← f.optional "mergeable" bool?
  let labels ← f.withDefault "labels" [] (list? readLabel)
  some { id, title, url, author, state := stateOf state, head, base,
         mergeable := mergeable.getD false, labels }

/-- The repository of an event. -/
def readRepository (v : Json) : Option Repository := do
  let f ← fields? ["full_name", "html_url"] v
  let name ← f.required "full_name" text?
  let url ← f.withDefault "html_url" "" text?
  some { name, url }

/-- An issue as a pull request, with whether it is one. What tells that is kept as it is, inside two
containers of its document. -/
def readIssue (v : Json) : Option (PullRequest × Bool) := do
  let f ← fields? ["number", "title", "html_url", "state", "user", "labels", "pull_request"] v
  let id ← f.required "number" int64?
  let title ← f.required "title" text?
  let url ← f.withDefault "html_url" "" text?
  let state ← f.required "state" text?
  let author ← f.required "user" readUser
  let labels ← f.withDefault "labels" [] (list? readLabel)
  let mark ← f.optional "pull_request" (freeForm? 2)
  some ({ id, title, url, author, state := stateOf state, labels }, mark.isSome)

/-- The labels of an issue that is a document of its own. -/
def readIssueLabels (v : Json) : Option (List Label) := do
  let f ← fields? ["number", "title", "html_url", "state", "user", "labels", "pull_request"] v
  let _ ← f.required "number" int64?
  let _ ← f.required "title" text?
  let _ ← f.withDefault "html_url" "" text?
  let _ ← f.required "state" text?
  let _ ← f.required "user" readUser
  let labels ← f.withDefault "labels" [] (list? readLabel)
  let _ ← f.optional "pull_request" (freeForm? 1)
  some labels

/-- A comment. -/
def readComment (v : Json) : Option Comment := do
  let f ← fields? ["id", "body", "user", "created_at"] v
  let id ← f.required "id" int64?
  let body ← f.optional "body" text?
  let author ← f.required "user" readUser
  let createdAt ← f.required "created_at" Instant.ofJson?
  some { id, body := body.getD "", author, createdAt }

/-- A review. -/
structure Review where
  id : Int
  body : String
  author : User
  state : String
  submittedAt : Option Instant

/-- A review. -/
def readReview (v : Json) : Option Review := do
  let f ← fields? ["id", "body", "user", "state", "submitted_at"] v
  let id ← f.required "id" int64?
  let body ← f.optional "body" text?
  let author ← f.required "user" readUser
  let state ← f.required "state" text?
  let submittedAt ← f.optional "submitted_at" Instant.ofJson?
  some { id, body := body.getD "", author, state, submittedAt }

/-- A review as a comment. One that is not submitted has no time, and nobody else sees it. -/
def Review.toComment? (r : Review) : Option Comment :=
  r.submittedAt.map fun createdAt =>
    { id := r.id, body := r.body, author := r.author, createdAt
      reviewState := reviewStateOf? r.state }

/-- A registered callback. -/
def readHook (v : Json) : Option Hook := do
  let f ← fields? ["id", "config"] v
  let id ← f.required "id" int64?
  let url ← f.required "config" fun v => do
    let f ← fields? ["url"] v
    f.withDefault "url" "" text?
  some { id, url }

/-- A status check. -/
def readStatus (v : Json) : Option CommitStatus := do
  let f ← fields? ["context", "state", "description", "target_url"] v
  let context ← f.required "context" text?
  let state ← f.required "state" text?
  let description ← f.optional "description" text?
  let targetUrl ← f.optional "target_url" text?
  some { context, state := checkStateOf state, description := description.getD "", targetUrl }

/-- The permission of a collaborator. -/
def readPermission (v : Json) : Option String := do
  let f ← fields? ["permission"] v
  f.required "permission" text?

/-- A file of a pull request. -/
def readFile (v : Json) : Option Change := do
  let f ← fields? ["filename", "previous_filename", "additions", "deletions"] v
  let filename ← f.required "filename" text?
  let oldFilename ← f.optional "previous_filename" text?
  let additions ← f.withDefault "additions" 0 (below? UInt32.size)
  let deletions ← f.withDefault "deletions" 0 (below? UInt32.size)
  some { filename, oldFilename, additions, deletions }

/-- A commit of a pull request. -/
def readCommit (v : Json) : Option Commit := do
  let f ← fields? ["sha", "commit"] v
  let sha ← f.required "sha" text?
  let (message, author) ← f.required "commit" fun v => do
    let f ← fields? ["message", "author"] v
    let message ← f.required "message" text?
    let author ← f.optional "author" fun v => do
      let f ← fields? ["name"] v
      f.required "name" text?
    some (message, author)
  some { sha, message, author := author.getD "" }

/-- A branch. -/
def readBranch (v : Json) : Option Branch := do
  let f ← fields? ["name", "commit"] v
  let name ← f.required "name" text?
  let commitSha ← f.required "commit" fun v => do
    let f ← fields? ["sha"] v
    f.required "sha" text?
  some { name, commitSha }

end Gatehouse.Github
