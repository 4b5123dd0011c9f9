import Gatehouse.Gitlab.Event
import Gatehouse.Proofs.Git.Body

/-!
# Events of merge requests

Reading an event of a merge request first takes the parts that matter out of the document
(`MergeRequestHook`) and then makes an event of them, which depends on nothing else in the document. The
labels that an event tells of as changed are those that are on one side of the change only
(`mem_changed`).
-/

namespace Gatehouse.Gitlab

open Git Json

deriving instance DecidableEq for Attributes, LabelChange

/-- What a document tells of an event of a merge request. -/
structure MergeRequestHook where
  sender : User
  repo : Repository
  attributes : Attributes
  /-- The labels after the event. -/
  labels : List String
  change : Option LabelChange
  deriving DecidableEq

namespace MergeRequestHook

def read? (v : Json) : Option MergeRequestHook := do
  let f ← fields? ["user", "project", "object_attributes", "labels", "changes"] v
  let sender ← f.required "user" readUser
  let repo ← f.required "project" readProject
  let attributes ← f.required "object_attributes" readAttributes
  let labels ← f.withDefault "labels" [] (list? readTitle)
  let change ← f.withDefault "changes" none readLabelChanges
  some { sender, repo, attributes, labels, change }

variable (h : MergeRequestHook)

/-- The merge request, apart from what happened to it. -/
def pullRequest : PullRequest :=
  { h.attributes.pullRequest with
    labels := h.labels.map Label.mk
    labelChanged := (h.change.map LabelChange.changed).getD [] }

/-- What happened to the merge request. -/
def action : PullRequestAction := actionOf h.attributes.action h.attributes.oldRevision h.change

/-- The event that is told of; approvals become reviews by the sender. -/
def event (now : Instant) : Webhook :=
  match reviewOf? h.attributes.action with
  | some state =>
    { eventType := .reviewChanged, repo := h.repo, sender := h.sender
      comment := some
        { id := 0, body := "", author := h.sender, createdAt := h.attributes.updatedAt.getD now
          reviewState := some state, pullRequest := some h.pullRequest } }
  | none =>
    { eventType := .pullRequestChanged, repo := h.repo, sender := h.sender
      pullRequest := some { h.pullRequest with action := h.action } }

end MergeRequestHook

variable {now : Instant} {name : String} {a b : List String} {c : LabelChange} {body : Bytes}
  {hook : MergeRequestHook}

theorem readMergeRequestEvent_eq (v : Json) :
    readMergeRequestEvent now v = (MergeRequestHook.read? v).map (·.event now) := by
  unfold readMergeRequestEvent MergeRequestHook.read?
  simp only [Option.bind_eq_bind, Option.map_bind, Function.comp_def, Option.map_some]
  -- Both take the same parts out of the document; they differ in what they make of them.
  congr 1
  funext f
  congr 1
  funext sender
  congr 1
  funext repo
  congr 1
  funext attributes
  congr 1
  funext labels
  congr 1
  funext change
  unfold MergeRequestHook.event
  cases reviewOf? attributes.action <;> rfl

/-- The delivery carries the secret as its token, if there is a secret. -/
def Authentic (secret : Option String) (headers : Http.Headers) : Prop :=
  ∀ s, secret = some s → (headers.find? "x-gitlab-token").getD [] = Text.encode s

theorem parseWebhook_authentic {secret : Option String} {headers : Http.Headers}
    (authentic : Authentic secret headers) :
    parseWebhook now secret headers body = eventOf now headers body := by
  cases secret with
  | none => rfl
  | some s => simp [parseWebhook, authentic s rfl]

/-- An authentic event of a merge request is read and made an event. -/
theorem parseWebhook_mergeRequest {secret : Option String} {headers : Http.Headers}
    (authentic : Authentic secret headers)
    (kind : headers.text? "x-gitlab-event" = some "Merge Request Hook") :
    parseWebhook now secret headers body =
      (readBody MergeRequestHook.read? body).map fun hook => some (hook.event now) := by
  rw [parseWebhook_authentic authentic, eventOf, kind]
  have parts := readBody_map (MergeRequestHook.event · now) MergeRequestHook.read? body
  simp only [← readMergeRequestEvent_eq] at parts
  simp only [Option.getD_some]
  rw [parts]
  cases readBody MergeRequestHook.read? body <;> rfl

theorem mem_only : name ∈ only a b ↔ name ∈ a ∧ name ∉ b := by
  simp [only]

theorem mem_changed :
    c.changed.any (·.name == name) = true ↔ ¬ (name ∈ c.previous ↔ name ∈ c.current) := by
  have sorted : ∀ l : List String, name ∈ l.mergeSort (· ≤ ·) ↔ name ∈ l :=
    fun l => List.mem_mergeSort
  rw [LabelChange.changed, List.any_map, List.any_eq_true]
  simp only [Function.comp_apply, beq_iff_eq, exists_eq_right, sorted, List.mem_append, mem_only]
  by_cases before : name ∈ c.previous
  · simp [before]
  · simp [before]

end Gatehouse.Gitlab
