import Gatehouse.Digest.Sha256
import Gatehouse.Git.Delivery
import Gatehouse.Github.Payload
import Gatehouse.Http.Message
import Gatehouse.Text.Blank

/-!
# GitHub webhooks

A delivery is authenticated by an HMAC of its body under the shared secret, and then read as an
event. Deliveries of kinds that nothing here consumes give no event.
-/

namespace Gatehouse.Github

open Git Json

/-- Is the signature `sha256=` and the HMAC of the body, in hexadecimal? -/
def verifies (secret : Bytes) (body : Bytes) (signature : Option String) : Bool :=
  match signature.bind fun s => Text.dropFront? "sha256=".toList s.toList >>= Text.unhex? with
  | some tag => tag == Digest.hmacSha256 secret body
  | none => false

/-- An event about a pull request. -/
def readPullRequestEvent (v : Json) : Option Webhook := do
  let f ← fields? ["action", "pull_request", "label", "sender", "repository"] v
  let action ← f.required "action" text?
  let pr ← f.required "pull_request" readPullRequest
  let label ← f.optional "label" readLabel
  let sender ← f.required "sender" readUser
  let repo ← f.required "repository" readRepository
  let action := actionOf action
  let labelChanged :=
    if action = .labeled ∨ action = .unlabeled then label.toList else []
  some { eventType := .pullRequestChanged, repo, sender
         pullRequest := some { pr with action, labelChanged } }

/-- An event about a review: its submission or its dismissal. A review without a time counts as
submitted now. -/
def readReviewEvent (now : Instant) (v : Json) : Option (Option Webhook) := do
  let f ← fields? ["action", "review", "pull_request", "sender", "repository"] v
  let action ← f.required "action" text?
  let review ← f.required "review" readReview
  let pr ← f.required "pull_request" readPullRequest
  let sender ← f.required "sender" readUser
  let repo ← f.required "repository" readRepository
  if action = "submitted" ∨ action = "dismissed" then
    let state := if action = "dismissed" then "dismissed" else review.state
    let comment : Comment :=
      { id := review.id, body := review.body, author := review.author
        createdAt := review.submittedAt.getD now
        reviewState := reviewStateOf? state
        pullRequest := some pr }
    some (some { eventType := .reviewChanged, repo, sender, comment := some comment })
  else some none

/-- An event about a comment: only its creation counts. -/
def readCommentEvent (v : Json) : Option (Option Webhook) := do
  let f ← fields? ["action", "issue", "comment", "sender", "repository"] v
  let action ← f.required "action" text?
  let (pr, isPullRequest) ← f.required "issue" readIssue
  let comment ← f.required "comment" readComment
  let sender ← f.required "sender" readUser
  let repo ← f.required "repository" readRepository
  if action = "created" then
    let pullRequest := if isPullRequest then some pr else none
    some (some { eventType := .commentCreated, repo, sender
                 comment := some { comment with pullRequest } })
  else some none

/-- A push. -/
def readPushEvent (v : Json) : Option Webhook := do
  let f ← fields? ["ref", "after", "sender", "repository"] v
  let ref ← f.required "ref" text?
  let sha ← f.required "after" text?
  let sender ← f.required "sender" readUser
  let repo ← f.required "repository" readRepository
  some { eventType := .push, repo, sender, push := some { ref, sha } }

/-- The event of a delivery that counts as authentic. -/
def eventOf (now : Instant) (headers : Http.Headers) (body : Bytes) :
    Except Git.Error (Option Webhook) :=
  match (headers.text? "x-github-event").getD "" with
  | "pull_request" => (readBody readPullRequestEvent body).map some
  | "pull_request_review" => readBody (readReviewEvent now) body
  | "issue_comment" => readBody readCommentEvent body
  | "push" => (readBody readPushEvent body).map some
  | _ => .ok none

/-- The event of a delivery; with a secret only authentic deliveries are looked at. -/
def parseWebhook (now : Instant) (secret : Option String) (headers : Http.Headers)
    (body : Bytes) : Except Git.Error (Option Webhook) :=
  match secret with
  | none => eventOf now headers body
  | some secret =>
    if verifies (Text.encode secret) body (headers.text? "x-hub-signature-256") then
      eventOf now headers body
    else .error (.invalidWebhook "signature mismatch")

end Gatehouse.Github
