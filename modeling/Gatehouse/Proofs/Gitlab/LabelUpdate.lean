import Gatehouse.Json.Render
import Gatehouse.Proofs.Chat.LiveVerdict
import Gatehouse.Proofs.Chat.Refusal
import Gatehouse.Proofs.Gitlab.Hook

/-!
# Updates that change labels

One update of a merge request can change labels and bring in commits at once, but its event has one
action only, and commits come first. The approval plugin looks at moves of the label only; so it turns
back a move by someone who may not approve if no commits came in with it, and else lets it stand
(`update_restored`).
-/

namespace Gatehouse.Gitlab

open Chat Git

variable {now : Instant} {hook : MergeRequestHook} {c : LabelChange} {repository : String}
  {pr : PullRequest} {s : Store}

/-- The merge request as the event of an update tells of it. -/
def MergeRequestHook.updated (hook : MergeRequestHook) : PullRequest :=
  { hook.pullRequest with action := hook.action }

theorem event_update (update : hook.attributes.action = "update") :
    hook.event now =
      { eventType := .pullRequestChanged, repo := hook.repo, sender := hook.sender
        pullRequest := some hook.updated } := by
  have unreviewed : reviewOf? hook.attributes.action = none := by
    rw [update]
    rfl
  rw [MergeRequestHook.event, unreviewed]
  rfl

theorem action_update (update : hook.attributes.action = "update") (changed : hook.change = some c) :
    hook.action = if hook.attributes.oldRevision ≠ "" then .synchronized
      else if c.anyAdded then .labeled else .unlabeled := by
  rw [MergeRequestHook.action, update, changed]
  rfl

/-- An update is about approval if it moves the label and brings no commits. -/
theorem subject?_update (update : hook.attributes.action = "update")
    (changed : hook.change = some c)
    (moved : ¬ (approvedLabel ∈ c.previous ↔ approvedLabel ∈ c.current)) :
    subject? (hook.event now) = if hook.attributes.oldRevision = "" then some hook.updated else none := by
  have told : hook.updated.labelChanged.any (·.name == approvedLabel) = true := by
    have labels : hook.updated.labelChanged = c.changed := by
      simp [MergeRequestHook.updated, MergeRequestHook.pullRequest, changed]
    rw [labels]
    exact mem_changed.mpr moved
  have action : hook.updated.action = hook.action := rfl
  rw [event_update update]
  simp only [subject?, Option.filter, action, action_update update changed, told, Bool.and_true]
  by_cases commits : hook.attributes.oldRevision = ""
  · cases c.anyAdded <;> simp [commits]
  · simp [commits]

theorem labeled_iff {v : View} {id : Int} {set : Finset String}
    (stored : v.labels repository id = some set) :
    Labeled v repository id ↔ approvedLabel ∈ set := by
  simp [Labeled, stored]

/-- A move of the label by someone who may not approve is turned over. -/
theorem turn_update {v : View} (update : hook.attributes.action = "update")
    (unauthorized : hook.sender.isSame hook.attributes.pullRequest.author = true ∨
      v.mayWrite repository hook.sender.name = false) :
    turn v repository (hook.event now) hook.updated = Chat.flip := by
  have refused : mayApprove v repository hook.sender hook.updated.author = false :=
    mayApprove_eq_false.mpr unauthorized
  have sender : actor (hook.event now) = hook.sender := by
    rw [event_update update]
    rfl
  have type : (hook.event now).eventType = .pullRequestChanged := by
    rw [event_update update]
  rw [turn, if_pos type, sender, refused]
  rfl

section Handled

variable {s' : Store} (update : hook.attributes.action = "update")
  (changed : hook.change = some c)
  (moved : ¬ (approvedLabel ∈ c.previous ↔ approvedLabel ∈ c.current))
  (handled : Handled repository (hook.event now) s s')

include update changed moved handled

theorem update_kept
    (passed : ¬ (hook.attributes.oldRevision = "" ∧ s.view.Answers repository)) : s' = s := by
  by_cases answers : s.view.Answers repository
  · have commits : hook.attributes.oldRevision ≠ "" := fun none => passed ⟨none, answers⟩
    have aside : subject? (hook.event now) = none := by
      rw [subject?_update update changed moved, if_neg commits]
    exact handled_aside handled aside
  · exact handled_shut handled answers

theorem update_turned (answers : s.view.Answers repository)
    (uncommitted : hook.attributes.oldRevision = "")
    (unauthorized : hook.sender.isSame hook.attributes.pullRequest.author = true ∨
      s.view.mayWrite repository hook.sender.name = false) :
    s'.view.labels =
      relabel repository hook.attributes.pullRequest.id Chat.flip s.view.labels := by
  have subject : subject? (hook.event now) = some hook.updated := by
    rw [subject?_update update changed moved, if_pos uncommitted]
  have unasked : ¬ AsksCheck (hook.event now) := by
    rintro ⟨command, member, -⟩
    rw [approvalCommands_nil (by simp [event_update update])] at member
    cases member
  have shift := handled_shift handled answers subject fun asks => absurd asks unasked
  rw [turn_update update unauthorized] at shift
  exact shift.labels

end Handled

/-- Someone who may not approve moved the label of a merge request, and the store has it as it is after
that. Reading the update and handling its event restores the label exactly if the repository answers
and no commits came in with the update. With commits nothing happens at all. -/
theorem update_restored (now : Instant) {secret : Option String} {headers : Http.Headers} {body : Bytes}
    (authentic : Authentic secret headers)
    (kind : headers.text? "x-gitlab-event" = some "Merge Request Hook")
    (read : readBody MergeRequestHook.read? body = .ok hook)
    (update : hook.attributes.action = "update") (changed : hook.change = some c)
    (moved : ¬ (approvedLabel ∈ c.previous ↔ approvedLabel ∈ c.current))
    (stored : s.view.pull? repository hook.attributes.pullRequest.id = some pr)
    (after : pr.hasLabel approvedLabel = true ↔ approvedLabel ∈ c.current)
    (unauthorized : hook.sender.isSame hook.attributes.pullRequest.author = true ∨
      s.view.mayWrite repository hook.sender.name = false) :
    ∃ event, parseWebhook now secret headers body = .ok (some event) ∧
      ∀ s', Handled repository event s s' →
        ((Labeled s'.view repository hook.attributes.pullRequest.id ↔
            approvedLabel ∈ c.previous) ↔
          hook.attributes.oldRevision = "" ∧ s.view.Answers repository) ∧
        (hook.attributes.oldRevision ≠ "" → s' = s) := by
  have set : s.view.labels repository hook.attributes.pullRequest.id = some pr.labelSet := by
    simp [View.labels, stored]
  have present : approvedLabel ∈ pr.labelSet ↔ approvedLabel ∈ c.current :=
    mem_labelSet.trans after
  refine ⟨hook.event now, ?_, ?_⟩
  · rw [parseWebhook_mergeRequest authentic kind, read]
    rfl
  intro s' handled
  refine ⟨?_, fun commits => update_kept update changed moved handled fun both => commits both.1⟩
  -- A turned label is as it was before the change, a kept one as it is after the change.
  by_cases reverts : hook.attributes.oldRevision = "" ∧ s.view.Answers repository
  · have turned : s'.view.labels repository hook.attributes.pullRequest.id =
        some (Chat.flip pr.labelSet) := by
      rw [update_turned update changed moved handled reverts.2 reverts.1 unauthorized,
        relabel_self, set, Option.map_some]
    rw [iff_true_right reverts, labeled_iff turned, mem_flip, present]
    by_cases before : approvedLabel ∈ c.previous <;> simp_all
  · have kept : s' = s := update_kept update changed moved handled reverts
    rw [iff_false_right reverts, kept, labeled_iff set, present]
    exact fun same => moved same.symm

/-- Mallory put the label on a merge request, perhaps in one update with new commits. -/
def malloryUpdates (commits : Bool) : MergeRequestHook where
  sender := { id := 9, name := "mallory" }
  repo := { name := "org/repo", url := "" }
  attributes := {
    pullRequest := { id := 42, title := "Fix bug", author := { id := 1 }, head := ⟨"feature", ""⟩
                     base := ⟨"main", ""⟩, mergeable := false }
    action := "update", oldRevision := if commits then "def456" else "", updatedAt := none }
  labels := []
  change := some { previous := [], current := [approvedLabel] }

/-- The body of that event. -/
def updateBody (commits : Bool) : Bytes :=
  asciiBytes <| Json.chars <| .obj [
    ("user", .obj [("id", .int 9), ("username", .str "mallory")]),
    ("project", .obj [("path_with_namespace", .str "org/repo")]),
    ("object_attributes", .obj [("iid", .int 42), ("title", .str "Fix bug"),
      ("state", .str "opened"), ("action", .str "update"), ("source_branch", .str "feature"),
      ("target_branch", .str "main"), ("oldrev", .str (if commits then "def456" else "")),
      ("author_id", .int 1)]),
    ("changes", .obj [("labels", .obj [("previous", .arr []),
      ("current", .arr [.obj [("title", .str approvedLabel)]])])])]

theorem read_updateBody (commits : Bool) :
    readBody MergeRequestHook.read? (updateBody commits) = .ok (malloryUpdates commits) := by
  cases commits with
  | true => exact readBody_ascii (by decide +kernel) (by decide +kernel)
  | false => exact readBody_ascii (by decide +kernel) (by decide +kernel)

/-- The header of such an event. -/
def mergeRequestHeaders : Http.Headers :=
  [("x-gitlab-event", asciiBytes "Merge Request Hook".toList)]

theorem authentic_mergeRequestHeaders : Authentic none mergeRequestHeaders := by
  intro s none
  cases none

theorem kind_mergeRequestHeaders :
    mergeRequestHeaders.text? "x-gitlab-event" = some "Merge Request Hook" := by
  decide +kernel

theorem update_restored_label :
    ∃ event, parseWebhook default none mergeRequestHeaders (updateBody false) = .ok (some event) ∧
      ¬ Labeled (deliver default "org/repo" event (desk [⟨approvedLabel⟩] [])).view "org/repo"
        42 := by
  have moved : ¬ (approvedLabel ∈ ([] : List String) ↔ approvedLabel ∈ [approvedLabel]) := by simp
  have stored : (desk [⟨approvedLabel⟩] []).view.pull? "org/repo" 42 =
      some { bugFix with labels := [⟨approvedLabel⟩] } := by decide
  obtain ⟨event, parsed, restored⟩ := update_restored default
    authentic_mergeRequestHeaders kind_mergeRequestHeaders (read_updateBody false) rfl rfl moved
    stored (by decide) (.inr (by decide))
  have before := (restored _ (handled_deliver default "org/repo" event _)).1.mpr
    ⟨rfl, desk_answers [⟨approvedLabel⟩] []⟩
  refine ⟨event, parsed, fun labeled => ?_⟩
  cases before.mp labeled

/-- Commits came in with the update, so the label stays that mallory put on. -/
theorem update_sticks :
    (malloryUpdates true).change = some { previous := [], current := [approvedLabel] } ∧
    (desk [⟨approvedLabel⟩] []).view.mayWrite "org/repo" (malloryUpdates true).sender.name = false ∧
    ∃ event, parseWebhook default none mergeRequestHeaders (updateBody true) = .ok (some event) ∧
      Labeled (deliver default "org/repo" event (desk [⟨approvedLabel⟩] [])).view "org/repo" 42 := by
  have moved : ¬ (approvedLabel ∈ ([] : List String) ↔ approvedLabel ∈ [approvedLabel]) := by simp
  have parsed : parseWebhook default none mergeRequestHeaders (updateBody true) =
      .ok (some ((malloryUpdates true).event default)) := by
    rw [parseWebhook_mergeRequest authentic_mergeRequestHeaders kind_mergeRequestHeaders,
      read_updateBody]
    rfl
  refine ⟨rfl, by decide, _, parsed, ?_⟩
  have handled := handled_deliver default "org/repo" ((malloryUpdates true).event default)
    (desk [⟨approvedLabel⟩] [])
  rw [update_kept rfl rfl moved handled fun both => absurd both.1 (by decide)]
  exact ⟨{approvedLabel}, by decide, by decide⟩

end Gatehouse.Gitlab
