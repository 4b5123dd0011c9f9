import Gatehouse.Git.Codec
import Gatehouse.Json.Record

/-!
# GitLab documents

How the documents of GitLab's REST interface and of its webhooks are read as git objects. The two
tell of the same things in different ways.
-/

namespace Gatehouse.Gitlab

open Git Json

/-- An account. -/
def readUser (v : Json) : Option User := do
  let f ← fields? ["id", "username", "email"] v
  let id ← f.withDefault "id" 0 int64?
  let name ← f.required "username" text?
  let email ← f.optional "email" text?
  some { id, name, email }

/-- The state of a merge request. -/
def stateOf (word : String) : PullRequestState := if word = "opened" then .opened else .closed

/-- The merge status of a request that can be merged. -/
def canBeMerged : String := "can_be_merged"

/-- A merge request. -/
def readMergeRequest (v : Json) : Option PullRequest := do
  let f ← fields? ["iid", "title", "web_url", "state", "author", "source_branch", "target_branch",
    "sha", "diff_refs", "merge_status", "labels"] v
  let id ← f.required "iid" int64?
  let title ← f.required "title" text?
  let url ← f.withDefault "web_url" "" text?
  let state ← f.required "state" text?
  let author ← f.required "author" readUser
  let source ← f.required "source_branch" text?
  let target ← f.required "target_branch" text?
  let sha ← f.withDefault "sha" "" text?
  let baseSha ← f.optional "diff_refs" fun v => do
    let f ← fields? ["base_sha"] v
    f.withDefault "base_sha" "" text?
  let mergeStatus ← f.withDefault "merge_status" "" text?
  let labels ← f.withDefault "labels" [] (list? text?)
  some { id, title, url, author, state := stateOf state
         head := ⟨source, sha⟩, base := ⟨target, baseSha.getD ""⟩
         mergeable := mergeStatus == canBeMerged
         labels := labels.map Label.mk }

/-- A registered callback. -/
def readHook (v : Json) : Option Hook := do
  let f ← fields? ["id", "url"] v
  let id ← f.required "id" int64?
  let url ← f.required "url" text?
  some { id, url }

/-- The state of a status check. -/
def checkStateOf : String → CheckState
  | "success" => .success
  | "failed" => .failure
  | "canceled" => .failure
  | _ => .pending

/-- The name of a state when a status check is set. -/
def checkStateName : CheckState → String
  | .pending => "pending"
  | .success => "success"
  | .failure => "failed"
  | .error => "failed"

/-- A status check. -/
def readStatus (v : Json) : Option CommitStatus := do
  let f ← fields? ["name", "status", "description", "target_url"] v
  let context ← f.required "name" text?
  let status ← f.required "status" text?
  let description ← f.optional "description" text?
  let targetUrl ← f.optional "target_url" text?
  some { context, state := checkStateOf status, description := description.getD "", targetUrl }

/-- The access level of a member. -/
def readAccessLevel (v : Json) : Option Nat := do
  let f ← fields? ["access_level"] v
  f.required "access_level" (below? UInt32.size)

/-- A note: a comment of a user, or a record that the system wrote. -/
structure Note where
  id : Int
  body : String
  author : User
  createdAt : Instant
  system : Bool

/-- A note. -/
def readNote (v : Json) : Option Note := do
  let f ← fields? ["id", "body", "author", "created_at", "system"] v
  let id ← f.required "id" int64?
  let body ← f.required "body" text?
  let author ← f.required "author" readUser
  let createdAt ← f.required "created_at" Instant.ofJson?
  let system ← f.withDefault "system" false bool?
  some { id, body, author, createdAt, system }

/-- What a record of the system says about approval. -/
def recordedReview? : String → Option ReviewState
  | "approved this merge request" => some .approved
  | "unapproved this merge request" => some .unapproved
  | _ => none

/-- A note as a comment. Of the records of the system only those about approval count. -/
def Note.toComment? (n : Note) : Option Comment :=
  let comment : Comment := { id := n.id, body := n.body, author := n.author, createdAt := n.createdAt }
  if n.system then
    (recordedReview? n.body).map fun state => { comment with reviewState := some state }
  else some comment

/-- A changed file with its diff. -/
structure FileDiff where
  oldPath : String
  newPath : String
  renamed : Bool
  diff : String

/-- A changed file. -/
def readFileDiff (v : Json) : Option FileDiff := do
  let f ← fields? ["old_path", "new_path", "renamed_file", "diff"] v
  let oldPath ← f.required "old_path" text?
  let newPath ← f.required "new_path" text?
  let renamed ← f.withDefault "renamed_file" false bool?
  let diff ← f.withDefault "diff" "" text?
  some { oldPath, newPath, renamed, diff }

/-- The changed files of a merge request. -/
def readChanges (v : Json) : Option (List FileDiff) := do
  let f ← fields? ["changes"] v
  f.withDefault "changes" [] (list? readFileDiff)

/-- Does the line of a diff tell of an added line? -/
def isAdded (line : List Char) : Bool :=
  line.head? == some '+' && !("+++".toList).isPrefixOf line

/-- Does the line of a diff tell of a deleted line? -/
def isDeleted (line : List Char) : Bool :=
  line.head? == some '-' && !("---".toList).isPrefixOf line

/-- The changes to a file, with the added and deleted lines counted. The numbers have no bound; a diff for
which one of 32 bits would run over has more than four billion lines. -/
def FileDiff.toChange (d : FileDiff) : Change :=
  let lines := Text.lines d.diff.toList
  { filename := d.newPath
    oldFilename := if d.renamed then some d.oldPath else none
    additions := (lines.filter isAdded).length
    deletions := (lines.filter isDeleted).length }

/-- A commit. -/
def readCommit (v : Json) : Option Commit := do
  let f ← fields? ["id", "message", "author_name"] v
  let sha ← f.required "id" text?
  let message ← f.required "message" text?
  let author ← f.withDefault "author_name" "" text?
  some { sha, message, author }

/-- The id of a commit. -/
def readCommitId (v : Json) : Option String := do
  let f ← fields? ["id"] v
  f.required "id" text?

/-- A branch. -/
def readBranch (v : Json) : Option Branch := do
  let f ← fields? ["name", "commit"] v
  let name ← f.required "name" text?
  let commitSha ← f.required "commit" readCommitId
  some { name, commitSha }

end Gatehouse.Gitlab
