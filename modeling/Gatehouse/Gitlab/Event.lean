import Gatehouse.Git.Delivery
import Gatehouse.Gitlab.Payload
import Gatehouse.Http.Message
import Gatehouse.Time.Rfc3339

/-!
# GitLab webhooks

A delivery is authenticated by a token that is the shared secret, and then read as an event.
Deliveries of kinds that nothing here consumes give no event.
-/

namespace Gatehouse.Gitlab

open Git Json

/-- The repository of an event. -/
def readProject (v : Json) : Option Repository := do
  let f ← fields? ["path_with_namespace", "web_url"] v
  let name ← f.required "path_with_namespace" text?
  let url ← f.withDefault "web_url" "" text?
  some { name, url }

/-- The title of a label. -/
def readTitle (v : Json) : Option String := do
  let f ← fields? ["title"] v
  f.required "title" text?

/-- A time in an event: with blanks and `UTC`, or in RFC 3339. -/
def hookTime? (s : String) : Option Instant :=
  Instant.parseSpaced s.toList <|> Instant.parseStrict s.toList

/-- The merge request that an event is about, with what tells more of the event. -/
structure Attributes where
  pullRequest : PullRequest
  action : String
  /-- The commit before, when commits came in. -/
  oldRevision : String
  updatedAt : Option Instant

/-- The merge request of an event; its labels are told elsewhere. -/
def readAttributes (v : Json) : Option Attributes := do
  let f ← fields? ["iid", "title", "url", "state", "action", "source_branch", "target_branch",
    "last_commit", "oldrev", "merge_status", "author_id", "updated_at"] v
  let id ← f.required "iid" int64?
  let title ← f.required "title" text?
  let url ← f.withDefault "url" "" text?
  let state ← f.required "state" text?
  let action ← f.optional "action" text?
  let source ← f.required "source_branch" text?
  let target ← f.required "target_branch" text?
  let sha ← f.optional "last_commit" readCommitId
  let oldRevision ← f.optional "oldrev" text?
  let mergeStatus ← f.withDefault "merge_status" "" text?
  let authorId ← f.withDefault "author_id" 0 int64?
  let updatedAt ← f.optional "updated_at" text?
  some {
    pullRequest :=
      { id, title, url, author := { id := authorId }, state := stateOf state
        head := ⟨source, sha.getD ""⟩, base := ⟨target, ""⟩
        mergeable := mergeStatus == canBeMerged }
    action := action.getD ""
    oldRevision := oldRevision.getD ""
    updatedAt := updatedAt.bind hookTime? }

/-- The labels before and after an event. -/
structure LabelChange where
  previous : List String
  current : List String

/-- The labels before and after an event. -/
def readLabelChange (v : Json) : Option LabelChange := do
  let f ← fields? ["previous", "current"] v
  let previous ← f.withDefault "previous" [] (list? readTitle)
  let current ← f.withDefault "current" [] (list? readTitle)
  some { previous, current }

/-- The changes of an event, as far as labels go. -/
def readLabelChanges (v : Json) : Option (Option LabelChange) := do
  let f ← fields? ["labels"] v
  f.optional "labels" readLabelChange

/-- The names in `a` that are not in `b`, each once. -/
def only (a b : List String) : List String := (a.filter (!b.contains ·)).eraseDups

/-- Was a label added? -/
def LabelChange.anyAdded (c : LabelChange) : Bool := !(only c.current c.previous).isEmpty

/-- The labels that are on one side only, in the order of their names. -/
def LabelChange.changed (c : LabelChange) : List Label :=
  ((only c.current c.previous ++ only c.previous c.current).mergeSort (· ≤ ·)).map Label.mk

/-- The review that an action stands for. -/
def reviewOf? : String → Option ReviewState
  | "approved" => some .approved
  | "approval" => some .approved
  | "unapproved" => some .unapproved
  | "unapproval" => some .unapproved
  | _ => none

/-- What happened to a merge request. An update with new commits counts as that, even if labels
changed with it. -/
def actionOf (action oldRevision : String) (change : Option LabelChange) : PullRequestAction :=
  match action with
  | "open" => .opened
  | "close" => .closed
  | "merge" => .closed
  | "reopen" => .reopened
  | "update" =>
    if oldRevision ≠ "" then .synchronized
    else match change with
      | some c => if c.anyAdded then .labeled else .unlabeled
      | none => .other
  | _ => .other

/-- An event about a merge request; approvals become reviews by the sender. -/
def readMergeRequestEvent (now : Instant) (v : Json) : Option Webhook := do
  let f ← fields? ["user", "project", "object_attributes", "labels", "changes"] v
  let sender ← f.required "user" readUser
  let repo ← f.required "project" readProject
  let attributes ← f.required "object_attributes" readAttributes
  let labels ← f.withDefault "labels" [] (list? readTitle)
  let change ← f.withDefault "changes" none readLabelChanges
  let labelChanged := (change.map LabelChange.changed).getD []
  let pr := { attributes.pullRequest with labels := labels.map Label.mk, labelChanged }
  match reviewOf? attributes.action with
  | some state =>
    let review : Comment :=
      { id := 0, body := "", author := sender, createdAt := attributes.updatedAt.getD now
        reviewState := some state, pullRequest := some pr }
    some { eventType := .reviewChanged, repo, sender, comment := some review }
  | none =>
    let action := actionOf attributes.action attributes.oldRevision change
    some { eventType := .pullRequestChanged, repo, sender, pullRequest := some { pr with action } }

/-- The note of an event. -/
structure HookNote where
  id : Int
  body : String
  target : String
  createdAt : String

/-- The note of an event. -/
def readHookNote (v : Json) : Option HookNote := do
  let f ← fields? ["id", "note", "noteable_type", "created_at"] v
  let id ← f.required "id" int64?
  let body ← f.required "note" text?
  let target ← f.required "noteable_type" text?
  let createdAt ← f.required "created_at" text?
  some { id, body, target, createdAt }

/-- The merge request that a note was written under. -/
def readNotedMergeRequest (v : Json) : Option PullRequest := do
  let f ← fields? ["iid", "title", "url", "state", "source_branch", "target_branch", "last_commit",
    "author_id", "merge_status", "labels"] v
  let id ← f.required "iid" int64?
  let title ← f.required "title" text?
  let url ← f.withDefault "url" "" text?
  let state ← f.required "state" text?
  let source ← f.required "source_branch" text?
  let target ← f.required "target_branch" text?
  let sha ← f.optional "last_commit" readCommitId
  let authorId ← f.withDefault "author_id" 0 int64?
  let mergeStatus ← f.withDefault "merge_status" "" text?
  let labels ← f.withDefault "labels" [] (list? readTitle)
  some { id, title, url, author := { id := authorId }, state := stateOf state
         head := ⟨source, sha.getD ""⟩, base := ⟨target, ""⟩
         mergeable := mergeStatus == canBeMerged, labels := labels.map Label.mk }

/-- An event about a note. -/
structure NoteEvent where
  sender : User
  repo : Repository
  note : HookNote
  mergeRequest : Option PullRequest

/-- An event about a note. -/
def readNoteEvent (v : Json) : Option NoteEvent := do
  let f ← fields? ["user", "project", "object_attributes", "merge_request"] v
  let sender ← f.required "user" readUser
  let repo ← f.required "project" readProject
  let note ← f.required "object_attributes" readHookNote
  let mergeRequest ← f.optional "merge_request" readNotedMergeRequest
  some { sender, repo, note, mergeRequest }

/-- The pull request that a note belongs to; the outer `none` is for notes that do not count,
which are those under other things than merge requests and issues. -/
def NoteEvent.subject? (e : NoteEvent) : Option (Option PullRequest) :=
  match e.note.target, e.mergeRequest with
  | "MergeRequest", some pr => some (some pr)
  | "Issue", _ => some none
  | _, _ => none

/-- The event of a note. -/
def NoteEvent.toWebhook (e : NoteEvent) : Except Git.Error (Option Webhook) :=
  match e.subject? with
  | none => .ok none
  | some pullRequest =>
    match hookTime? e.note.createdAt with
    | none => .error (.decode ("bad note timestamp " ++ e.note.createdAt))
    | some createdAt =>
      let comment : Comment :=
        { id := e.note.id, body := e.note.body, author := e.sender, createdAt, pullRequest }
      .ok (some { eventType := .commentCreated, repo := e.repo, sender := e.sender
                  comment := some comment })

/-- A push. -/
def readPushEvent (v : Json) : Option Webhook := do
  let f ← fields? ["ref", "after", "user_id", "user_username", "project"] v
  let ref ← f.required "ref" text?
  let sha ← f.required "after" text?
  let id ← f.withDefault "user_id" 0 int64?
  let name ← f.withDefault "user_username" "" text?
  let repo ← f.required "project" readProject
  some { eventType := .push, repo, sender := { id, name }, push := some { ref, sha } }

/-- The event of a delivery that counts as authentic. -/
def eventOf (now : Instant) (headers : Http.Headers) (body : Bytes) :
    Except Git.Error (Option Webhook) :=
  match (headers.text? "x-gitlab-event").getD "" with
  | "Merge Request Hook" => (readBody (readMergeRequestEvent now) body).map some
  | "Note Hook" => do (← readBody readNoteEvent body).toWebhook
  | "Push Hook" => (readBody readPushEvent body).map some
  | _ => .ok none

/-- The event of a delivery; with a secret only deliveries that carry it as token are looked at. A
delivery without token carries the empty one. -/
def parseWebhook (now : Instant) (secret : Option String) (headers : Http.Headers)
    (body : Bytes) : Except Git.Error (Option Webhook) :=
  match secret with
  | none => eventOf now headers body
  | some secret =>
    if (headers.find? "x-gitlab-token").getD [] == Text.encode secret then
      eventOf now headers body
    else .error (.invalidWebhook "token mismatch")

end Gatehouse.Gitlab
