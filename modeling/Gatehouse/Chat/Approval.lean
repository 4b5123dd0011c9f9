import Gatehouse.Chat.Command
import Gatehouse.Git.Query

/-!
# Approval

A pull request carries the label `approved` when its reviewers agreed to it. Three things move the
label: reviews, the commands `/approve`, `/approve cancel` and `/approve check` in comments
(`/ci-approve` where the provider takes `/approve` for itself), and people who set or delete it by
hand. Only a user who may write to the repository and did not open the pull request may approve;
a label moved by anyone else is moved back.
-/

namespace Gatehouse.Chat

open Git

/-- The label of approved pull requests. -/
def approvedLabel : String := "approved"

/-- The commands about approval. -/
def approveCommands : List String := ["approve", "ci-approve"]

/-- What a command asks for. -/
inductive Intent where
  | approve
  | cancel
  | check
  deriving DecidableEq, Repr

/-- What a command about approval asks for, if it is well-formed. -/
def Command.intent? (c : Command) : Option Intent :=
  if approveCommands.contains c.name then
    match c.args with
    | [] => some .approve
    | ["cancel"] => some .cancel
    | ["check"] => some .check
    | _ => none
  else none

/-- What a command says about approval: yes, no or nothing. -/
def Command.vote? (c : Command) : Option Bool :=
  match c.intent? with
  | some .approve => some true
  | some .cancel => some false
  | _ => none

/-- What a comment says about approval: its review state if it has one, and else its first command
that says something. -/
def signal? (c : Comment) : Option Bool :=
  match c.reviewState with
  | some .approved => some true
  | some .unapproved => some false
  | none => (extractCommands c.body).findSome? Command.vote?

/-- What a history of comments, the newest first, says about approval. -/
def approvalVerdict (comments : List Comment) : Bool := (comments.findSome? signal?).getD false

/-- The notice for a user who may not approve. -/
def unauthorizedNotice (user : String) : String :=
  "[APPROVE ALERT]\n\n" ++
  "User " ++ user ++ " is not allowed to approve/cancel approve this pull request.\n\n" ++
  "Users who meet the following conditions can approve the pull request.\n" ++
  "- Not an author of the pull request\n" ++
  "- (For GitHub) Have write permission on the repository\n" ++
  "- (For GitLab) Be Developer, Maintainer, or Owner\n"

/-- The notice of an approval. -/
def approvedNotice (user : String) : String :=
  "[APPROVE ALERT]\n\nUser " ++ user ++ " approved this pull request!"

/-- The notice of a withdrawn approval. -/
def canceledNotice (user : String) : String :=
  "[APPROVE ALERT]\n\nUser " ++ user ++ " canceled the approval."

/-- The notice for a command that is not well-formed. -/
def helpNotice : String :=
  "[APPROVE ALERT]\n\n" ++
  "Approve comment is malformed\n\n" ++
  "You can approve or cancel the approval of the pull request by commenting...\n" ++
  "- (For GitHub) `/approve`\n" ++
  "- (For GitHub) `/approve cancel`\n" ++
  "- (For GitLab) `/ci-approve`\n" ++
  "- (For GitLab) `/ci-approve cancel`\n"

namespace Approval

/-- Write a notice under a pull request. -/
def notify (pr : PullRequest) (notice : String) : Action Unit :=
  ask (.registerComment .pullRequest pr.id notice)

/-- Put the label on. -/
def label (pr : PullRequest) : Action Unit := ask (.setLabel .pullRequest pr.id approvedLabel)

/-- Take the label off. -/
def unlabel (pr : PullRequest) : Action Unit :=
  ask (.deleteLabel .pullRequest pr.id approvedLabel)

/-- Does the pull request carry the label now? -/
def isLabeled (pr : PullRequest) : Action Bool := do
  let labels ← ask (.listLabels pr.id)
  return labels.any (·.name == approvedLabel)

/-- The sender may approve if someone else opened the pull request and the sender may write to the
repository. -/
def authorize (repository : String) (sender author : User) : Action Unit := do
  if sender.isSame author then throw (.unauthorized sender.name repository)
  let mayWrite ← ask (.canUserWrite sender)
  if !mayWrite then throw (.unauthorized sender.name repository)

/-- The user who is refused, if the sender may not approve. Any other failure is passed on. -/
def refusal? (repository : String) (sender author : User) : Action (Option String) := do
  match ← attempt (authorize repository sender author) with
  | .ok () => return none
  | .error (.unauthorized user _) => return some user
  | .error e => throw e

/-- May the sender approve? A sender who is refused gets a notice. -/
def authorizeOrNotify (repository : String) (pr : PullRequest) (sender : User) : Action Bool := do
  match ← refusal? repository sender pr.author with
  | none => return true
  | some user =>
    notify pr (unauthorizedNotice user)
    return false

/-- Approve. -/
def approve (pr : PullRequest) (user : String) : Action Unit := do
  label pr
  notify pr (approvedNotice user)

/-- Withdraw an approval. -/
def cancel (pr : PullRequest) (user : String) : Action Unit := do
  unlabel pr
  notify pr (canceledNotice user)

/-- Bring the label in line with what the comments say. -/
def check (pr : PullRequest) (user : String) : Action Unit := do
  let labeled ← isLabeled pr
  let comments ← ask (.listComments pr.id)
  match approvalVerdict comments, labeled with
  | true, false => approve pr user
  | false, true => cancel pr user
  | _, _ => return ()

/-- A review of an open pull request moves the label, if its author may. -/
def handleReview (repository : String) (review : Comment) : Action Unit :=
  match review.pullRequest, review.reviewState with
  | some pr, some state => do
    if pr.isOpen then
      if ← authorizeOrNotify repository pr review.author then
        match state with
        | .approved => approve pr review.author.name
        | .unapproved => cancel pr review.author.name
  | _, _ => return ()

/-- The label was moved by hand. The event may tell of more than one move, so what counts is
whether the label is there now. -/
def handleLabelEvent (repository : String) (pr : PullRequest) (sender : User) : Action Unit := do
  if pr.labelChanged.any (·.name == approvedLabel) then
    let labeled ← isLabeled pr
    match ← refusal? repository sender pr.author with
    | none => return ()
    | some user =>
      if labeled then unlabel pr else label pr
      notify pr (unauthorizedNotice user)

/-- Handle an event. -/
def handle (repository : String) (w : Webhook) : Action Unit :=
  match w.eventType with
  | .reviewChanged =>
    match w.comment with
    | some review => handleReview repository review
    | none => return ()
  | .pullRequestChanged =>
    match w.pullRequest with
    | some pr =>
      if pr.action = .labeled ∨ pr.action = .unlabeled then
        handleLabelEvent repository pr w.sender
      else return ()
    | none => return ()
  | _ => return ()

/-- The open pull request that a comment was written under. -/
def commentedPullRequest? (w : Webhook) : Option PullRequest :=
  (w.comment.bind (·.pullRequest)).filter (·.isOpen)

/-- Handle a command under an open pull request. -/
def handleCommand (repository : String) (c : Command) (w : Webhook) : Action Unit :=
  match commentedPullRequest? w with
  | none => return ()
  | some pr => do
    if ← authorizeOrNotify repository pr w.sender then
      match c.intent? with
      | some .approve => approve pr w.sender.name
      | some .cancel => cancel pr w.sender.name
      | some .check => check pr w.sender.name
      | none => notify pr helpNotice

end Approval

end Gatehouse.Chat
