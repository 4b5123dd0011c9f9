import Gatehouse.Git.Webhook
import Gatehouse.Json.Record
import Gatehouse.Time.Rfc3339

/-!
# Git objects as documents

The canonical document of every git object, and its reading. Writing gives every member, `null` for
what is absent.
-/

namespace Gatehouse

/-- A time, with its fraction of a second. -/
def Instant.toJson (t : Instant) : Json := .str t.render

/-- A time in the relaxed grammar. -/
def Instant.ofJson? (v : Json) : Option Instant := v.text?.bind fun s => parseRelaxed s.toList

namespace Git

open Json

namespace Provider

def toJson (p : Provider) : Json := .str p.name

def ofJson? (v : Json) : Option Provider := v.case?.bind named?

end Provider

namespace User

def toJson (u : User) : Json :=
  .obj [("id", .int u.id), ("name", .str u.name), ("email", option .str u.email)]

def ofJson? (v : Json) : Option User := do
  let f ← fields? ["id", "name", "email"] v
  let id ← f.required "id" int64?
  let name ← f.required "name" text?
  let email ← f.nullable "email" text?
  some { id, name, email }

end User

namespace Repository

def toJson (r : Repository) : Json := .obj [("name", .str r.name), ("url", .str r.url)]

def ofJson? (v : Json) : Option Repository := do
  let f ← fields? ["name", "url"] v
  let name ← f.required "name" text?
  let url ← f.required "url" text?
  some { name, url }

end Repository

namespace Hook

def toJson (h : Hook) : Json := .obj [("id", .int h.id), ("url", .str h.url)]

def ofJson? (v : Json) : Option Hook := do
  let f ← fields? ["id", "url"] v
  let id ← f.required "id" int64?
  let url ← f.required "url" text?
  some { id, url }

end Hook

namespace CheckState

def toJson (s : CheckState) : Json := .str s.name

def ofJson? (v : Json) : Option CheckState :=
  match v.case? with
  | some "pending" => some .pending
  | some "success" => some .success
  | some "failure" => some .failure
  | some "error" => some .error
  | _ => none

end CheckState

namespace CommitStatus

def toJson (s : CommitStatus) : Json :=
  .obj [("context", .str s.context), ("state", s.state.toJson),
    ("description", .str s.description), ("target_url", option .str s.targetUrl)]

def ofJson? (v : Json) : Option CommitStatus := do
  let f ← fields? ["context", "state", "description", "target_url"] v
  let context ← f.required "context" text?
  let state ← f.required "state" CheckState.ofJson?
  let description ← f.required "description" text?
  let targetUrl ← f.nullable "target_url" text?
  some { context, state, description, targetUrl }

end CommitStatus

namespace IssueType

def ofJson? (v : Json) : Option IssueType :=
  match v.case? with
  | some "Issue" => some .issue
  | some "PullRequest" => some .pullRequest
  | _ => none

end IssueType

namespace PullRequestState

def toJson : PullRequestState → Json
  | .opened => .str "Open"
  | .closed => .str "Closed"

def ofJson? (v : Json) : Option PullRequestState :=
  match v.case? with
  | some "Open" => some .opened
  | some "Closed" => some .closed
  | _ => none

end PullRequestState

namespace PullRequestAction

def toJson : PullRequestAction → Json
  | .opened => .str "Open"
  | .closed => .str "Close"
  | .reopened => .str "Reopen"
  | .synchronized => .str "Synchronize"
  | .labeled => .str "Labeled"
  | .unlabeled => .str "Unlabeled"
  | .other => .str "Other"

def ofJson? (v : Json) : Option PullRequestAction :=
  match v.case? with
  | some "Open" => some .opened
  | some "Close" => some .closed
  | some "Reopen" => some .reopened
  | some "Synchronize" => some .synchronized
  | some "Labeled" => some .labeled
  | some "Unlabeled" => some .unlabeled
  | some "Other" => some .other
  | _ => none

end PullRequestAction

namespace ReviewState

def toJson : ReviewState → Json
  | .approved => .str "Approved"
  | .unapproved => .str "Unapproved"

def ofJson? (v : Json) : Option ReviewState :=
  match v.case? with
  | some "Approved" => some .approved
  | some "Unapproved" => some .unapproved
  | _ => none

end ReviewState

namespace Label

def toJson (l : Label) : Json := .obj [("name", .str l.name)]

def ofJson? (v : Json) : Option Label := do
  let f ← fields? ["name"] v
  let name ← f.required "name" text?
  some { name }

end Label

namespace Tip

def toJson (t : Tip) : Json := .obj [("ref", .str t.ref), ("sha", .str t.sha)]

def ofJson? (v : Json) : Option Tip := do
  let f ← fields? ["ref", "sha"] v
  let ref ← f.required "ref" text?
  let sha ← f.required "sha" text?
  some { ref, sha }

end Tip

namespace PullRequest

def toJson (pr : PullRequest) : Json :=
  .obj [("id", .int pr.id), ("title", .str pr.title), ("url", .str pr.url),
    ("author", pr.author.toJson), ("state", pr.state.toJson), ("action", pr.action.toJson),
    ("head", pr.head.toJson), ("base", pr.base.toJson), ("mergeable", .bool pr.mergeable),
    ("labels", list Label.toJson pr.labels),
    ("label_changed", list Label.toJson pr.labelChanged)]

def ofJson? (v : Json) : Option PullRequest := do
  let f ← fields? ["id", "title", "url", "author", "state", "action", "head", "base", "mergeable",
    "labels", "label_changed"] v
  let id ← f.required "id" int64?
  let title ← f.required "title" text?
  let url ← f.required "url" text?
  let author ← f.required "author" User.ofJson?
  let state ← f.required "state" PullRequestState.ofJson?
  let action ← f.required "action" PullRequestAction.ofJson?
  let head ← f.required "head" Tip.ofJson?
  let base ← f.required "base" Tip.ofJson?
  let mergeable ← f.required "mergeable" bool?
  let labels ← f.required "labels" (list? Label.ofJson?)
  let labelChanged ← f.required "label_changed" (list? Label.ofJson?)
  some { id, title, url, author, state, action, head, base, mergeable, labels, labelChanged }

end PullRequest

namespace Comment

def toJson (c : Comment) : Json :=
  .obj [("id", .int c.id), ("body", .str c.body), ("author", c.author.toJson),
    ("created_at", c.createdAt.toJson), ("review_state", option ReviewState.toJson c.reviewState),
    ("pull_request", option PullRequest.toJson c.pullRequest)]

def ofJson? (v : Json) : Option Comment := do
  let f ← fields? ["id", "body", "author", "created_at", "review_state", "pull_request"] v
  let id ← f.required "id" int64?
  let body ← f.required "body" text?
  let author ← f.required "author" User.ofJson?
  let createdAt ← f.required "created_at" Instant.ofJson?
  let reviewState ← f.nullable "review_state" ReviewState.ofJson?
  let pullRequest ← f.nullable "pull_request" PullRequest.ofJson?
  some { id, body, author, createdAt, reviewState, pullRequest }

end Comment

namespace MergeMethod

def ofJson? (v : Json) : Option MergeMethod :=
  match v.case? with
  | some "Merge" => some .merge
  | some "Squash" => some .squash
  | _ => none

end MergeMethod

namespace Commit

def toJson (c : Commit) : Json :=
  .obj [("sha", .str c.sha), ("message", .str c.message), ("author", .str c.author)]

def ofJson? (v : Json) : Option Commit := do
  let f ← fields? ["sha", "message", "author"] v
  let sha ← f.required "sha" text?
  let message ← f.required "message" text?
  let author ← f.required "author" text?
  some { sha, message, author }

end Commit

namespace Change

def toJson (c : Change) : Json :=
  .obj [("filename", .str c.filename), ("old_filename", option .str c.oldFilename),
    ("additions", .int c.additions), ("deletions", .int c.deletions)]

def ofJson? (v : Json) : Option Change := do
  let f ← fields? ["filename", "old_filename", "additions", "deletions"] v
  let filename ← f.required "filename" text?
  let oldFilename ← f.nullable "old_filename" text?
  let additions ← f.required "additions" (below? UInt32.size)
  let deletions ← f.required "deletions" (below? UInt32.size)
  some { filename, oldFilename, additions, deletions }

end Change

namespace Diff

def toJson (d : Diff) : Json := .obj [("changes", list Change.toJson d.changes)]

def ofJson? (v : Json) : Option Diff := do
  let f ← fields? ["changes"] v
  let changes ← f.required "changes" (list? Change.ofJson?)
  some { changes }

end Diff

namespace Branch

def toJson (b : Branch) : Json := .obj [("name", .str b.name), ("commit_sha", .str b.commitSha)]

def ofJson? (v : Json) : Option Branch := do
  let f ← fields? ["name", "commit_sha"] v
  let name ← f.required "name" text?
  let commitSha ← f.required "commit_sha" text?
  some { name, commitSha }

end Branch

namespace EventType

/-- The name of a kind of event. -/
def name : EventType → String
  | .push => "Push"
  | .pullRequestChanged => "PullRequestChanged"
  | .reviewChanged => "PullRequestReviewChanged"
  | .commentCreated => "IssueCommentCreated"

def toJson (e : EventType) : Json := .str e.name

def ofJson? (v : Json) : Option EventType :=
  match v.case? with
  | some "Push" => some .push
  | some "PullRequestChanged" => some .pullRequestChanged
  | some "PullRequestReviewChanged" => some .reviewChanged
  | some "IssueCommentCreated" => some .commentCreated
  | _ => none

end EventType

namespace Push

def toJson (p : Push) : Json := .obj [("ref", .str p.ref), ("sha", .str p.sha)]

def ofJson? (v : Json) : Option Push := do
  let f ← fields? ["ref", "sha"] v
  let ref ← f.required "ref" text?
  let sha ← f.required "sha" text?
  some { ref, sha }

end Push

namespace Webhook

def toJson (w : Webhook) : Json :=
  .obj [("event_type", w.eventType.toJson), ("repo", w.repo.toJson), ("sender", w.sender.toJson),
    ("push", option Push.toJson w.push),
    ("pull_request", option PullRequest.toJson w.pullRequest),
    ("issue_comment", option Comment.toJson w.comment)]

def ofJson? (v : Json) : Option Webhook := do
  let f ← fields? ["event_type", "repo", "sender", "push", "pull_request", "issue_comment"] v
  let eventType ← f.required "event_type" EventType.ofJson?
  let repo ← f.required "repo" Repository.ofJson?
  let sender ← f.required "sender" User.ofJson?
  let push ← f.nullable "push" Push.ofJson?
  let pullRequest ← f.nullable "pull_request" PullRequest.ofJson?
  let comment ← f.nullable "issue_comment" Comment.ofJson?
  some { eventType, repo, sender, push, pullRequest, comment }

end Webhook

end Git

end Gatehouse
