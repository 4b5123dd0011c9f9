import Gatehouse.Proofs.Gitlab.LabelUpdate
import Gatehouse.Proofs.Resource.RoundTrip
import Gatehouse.Proofs.Text.Distinct

/-!
# What an update tells of labels

An update of a merge request has the labels before and after it, in any order and with repetitions
(`labelUpdate_labelBody`). Read as an event it tells of each label once that is on one side only, and
of no other (`count_changed`). So all that counts is which labels are on each side, and exchanging the
sides makes a difference to the action only (`label_delta`).
-/

namespace Gatehouse.Gitlab

open Git Json

variable {now : Instant} {c c' : LabelChange} {name : String} {secret : Option String}
  {headers : Http.Headers} {body : Bytes}

/-! Changes of labels. -/

theorem nodup_changed (c : LabelChange) : c.changed.Nodup := by
  have apart : List.Disjoint (only c.current c.previous) (only c.previous c.current) := by
    intro name added removed
    exact (mem_only.mp added).2 (mem_only.mp removed).1
  have once : (only c.current c.previous ++ only c.previous c.current).Nodup :=
    (nodup_eraseDups _).append (nodup_eraseDups _) apart
  have sorted := (List.mergeSort_perm _ (fun a b : String => decide (a ≤ b))).nodup_iff.mpr once
  exact sorted.map fun a b same => congrArg Label.name same

theorem label_mem_changed :
    (⟨name⟩ : Label) ∈ c.changed ↔ ¬ (name ∈ c.previous ↔ name ∈ c.current) := by
  rw [← mem_changed, List.any_eq_true]
  constructor
  · exact fun member => ⟨⟨name⟩, member, by simp⟩
  · rintro ⟨⟨other⟩, member, same⟩
    obtain rfl : other = name := by simpa using same
    exact member

/-- A label is told of once if it is on one side only, and else not at all. -/
theorem count_changed :
    c.changed.count ⟨name⟩ = if name ∈ c.previous ↔ name ∈ c.current then 0 else 1 := by
  rw [(nodup_changed c).count, if_congr label_mem_changed rfl rfl, ite_not]

theorem anyAdded_iff : c.anyAdded = true ↔ ∃ name ∈ c.current, name ∉ c.previous := by
  rw [LabelChange.anyAdded, Bool.not_eq_true', List.isEmpty_eq_false_iff_exists_mem]
  simp only [mem_only]

/-- The change back. -/
def LabelChange.swap (c : LabelChange) : LabelChange := ⟨c.current, c.previous⟩

theorem changed_swap (c : LabelChange) : c.swap.changed.Perm c.changed := by
  refine (List.perm_ext_iff_of_nodup (nodup_changed _) (nodup_changed c)).mpr ?_
  rintro ⟨name⟩
  rw [label_mem_changed, label_mem_changed]
  exact not_congr iff_comm

/-- The same labels are on each side, in any order and any number of times. -/
structure LabelChange.SameSides (c c' : LabelChange) : Prop where
  previous : ∀ name, name ∈ c.previous ↔ name ∈ c'.previous
  current : ∀ name, name ∈ c.current ↔ name ∈ c'.current

namespace LabelChange.SameSides

variable (same : c.SameSides c')

include same

theorem changed : c.changed.Perm c'.changed := by
  refine (List.perm_ext_iff_of_nodup (nodup_changed c) (nodup_changed c')).mpr ?_
  rintro ⟨name⟩
  rw [label_mem_changed, label_mem_changed, same.previous, same.current]

theorem anyAdded : c.anyAdded = c'.anyAdded := by
  rw [Bool.eq_iff_iff, anyAdded_iff, anyAdded_iff]
  simp only [same.previous, same.current]

end LabelChange.SameSides

/-! Updates. -/

/-- A delivery tells of an update without commits, and of a change of labels in it. -/
structure LabelUpdate (secret : Option String) (headers : Http.Headers) (body : Bytes)
    (c : LabelChange) : Prop where
  authentic : Authentic secret headers
  kind : headers.text? "x-gitlab-event" = some "Merge Request Hook"
  told : ∃ hook, readBody MergeRequestHook.read? body = .ok hook ∧
    hook.attributes.action = "update" ∧ hook.attributes.oldRevision = "" ∧ hook.change = some c

/-- A delivery is read as an event about a merge request. -/
def ReadAs (now : Instant) (secret : Option String) (headers : Http.Headers) (body : Bytes)
    (pr : PullRequest) : Prop :=
  ∃ event, parseWebhook now secret headers body = .ok (some event) ∧
    event.eventType = .pullRequestChanged ∧ event.pullRequest = some pr

theorem LabelUpdate.readAs (now : Instant) (update : LabelUpdate secret headers body c) :
    ∃ pr, ReadAs now secret headers body pr ∧ pr.labelChanged = c.changed ∧
      pr.action = if c.anyAdded then .labeled else .unlabeled := by
  obtain ⟨hook, read, updates, uncommitted, changed⟩ := update.told
  have parsed : parseWebhook now secret headers body = .ok (some (hook.event now)) := by
    rw [parseWebhook_mergeRequest update.authentic update.kind, read]
    rfl
  have action : hook.action = if c.anyAdded then .labeled else .unlabeled := by
    rw [action_update updates changed, uncommitted]
    rfl
  refine ⟨hook.updated, ⟨hook.event now, parsed, ?_, ?_⟩, ?_, action⟩
  · rw [event_update updates]
  · rw [event_update updates]
  · simp [MergeRequestHook.updated, MergeRequestHook.pullRequest, changed]

/-! Documents about updates. -/

/-- The document that a label is told of in. -/
def titleDocument (title : String) : Json := .obj [("title", .str title)]

/-- The members of a document about an update that changes labels. -/
def labelMembers (c : LabelChange) : List (String × Json) := [
  ("user", .obj [("id", .int 9), ("username", .str "mallory")]),
  ("project", .obj [("path_with_namespace", .str "org/repo")]),
  ("object_attributes", .obj [("iid", .int 42), ("title", .str "Fix bug"),
    ("state", .str "opened"), ("action", .str "update"), ("source_branch", .str "feature"),
    ("target_branch", .str "main"), ("author_id", .int 1)]),
  ("changes", .obj [("labels", .obj [("previous", Json.list titleDocument c.previous),
    ("current", Json.list titleDocument c.current)])])]

theorem list?_titles (titles : List String) :
    list? readTitle (Json.list titleDocument titles) = some titles :=
  mapM_write fun _ _ => rfl

theorem readLabelChanges_sides (c : LabelChange) :
    readLabelChanges (.obj [("labels", .obj [("previous", Json.list titleDocument c.previous),
      ("current", Json.list titleDocument c.current)])]) = some (some c) := by
  have before := list?_titles c.previous
  have after := list?_titles c.current
  simp [readLabelChanges, readLabelChange, fields?, Fields.optional, Fields.withDefault,
    Fields.find?, List.lookup_cons, nullable?, before, after]

theorem read?_labelMembers (c : LabelChange) :
    MergeRequestHook.read? (.obj (labelMembers c)) =
      some { malloryUpdates false with change := some c } := by
  obtain ⟨f, fields⟩ : ∃ f, fields? ["user", "project", "object_attributes", "labels", "changes"]
      (.obj (labelMembers c)) = some f := ⟨_, rfl⟩
  have sender : f.required "user" readUser = some (malloryUpdates false).sender := by
    rw [required_obj fields (by decide)]
    rfl
  have repo : f.required "project" readProject = some (malloryUpdates false).repo := by
    rw [required_obj fields (by decide)]
    rfl
  have attributes : f.required "object_attributes" readAttributes =
      some (malloryUpdates false).attributes := by
    rw [required_obj fields (by decide)]
    rfl
  have labels : f.withDefault "labels" [] (list? readTitle) = some [] := by
    rw [Fields.withDefault, find?_obj fields (by decide)]
    rfl
  have change : f.withDefault "changes" none readLabelChanges = some (some c) := by
    rw [Fields.withDefault, find?_obj fields (by decide)]
    exact readLabelChanges_sides c
  rw [MergeRequestHook.read?, fields]
  simp only [Option.bind_eq_bind, Option.bind_some, sender, repo, attributes, labels, change]
  rfl

theorem written_labelMembers (c : LabelChange) : Written false (.obj (labelMembers c)) := by
  have object {members : List (String × Json)} :
      Written false (.obj members) ↔ ∀ m ∈ members, Written false m.2 :=
    ⟨fun | .obj _ each => each, .obj members⟩
  have titles (titles : List String) : Written false (Json.list titleDocument titles) := by
    refine .arr _ fun v member => ?_
    obtain ⟨title, -, rfl⟩ := List.mem_map.mp member
    simp [titleDocument, object]
  simp [labelMembers, object, Written.int, isInteger, titles]

/-- The body of such a document. -/
def labelBody (c : LabelChange) : Bytes := bodyOf (fun c => .obj (labelMembers c)) c

/-- Whatever the labels on the two sides are, an update can tell of them. -/
theorem labelUpdate_labelBody (c : LabelChange) :
    LabelUpdate none mergeRequestHeaders (labelBody c) c where
  authentic := authentic_mergeRequestHeaders
  kind := kind_mergeRequestHeaders
  told := by
    have read : readBody MergeRequestHook.read? (labelBody c) =
        .ok { malloryUpdates false with change := some c } :=
      readBody_eq_ok.mpr ⟨_, document?_render (written_labelMembers c), read?_labelMembers c⟩
    exact ⟨_, read, rfl, rfl, rfl⟩

/-! What is told of. -/

/-- Each label that is on one side of the change only is told of once, and no other is; the action
is that labels were added if any was. Another update tells of the same labels if its sides have the
same labels, be it the other way round; if it is not, it has the same action as well. -/
theorem label_delta (now : Instant) (update : LabelUpdate secret headers body c) :
    ∃ pr, ReadAs now secret headers body pr ∧
      (∀ name, pr.labelChanged.count ⟨name⟩ =
        if name ∈ c.previous ↔ name ∈ c.current then 0 else 1) ∧
      (pr.action = if ∃ name ∈ c.current, name ∉ c.previous then .labeled else .unlabeled) ∧
      ∀ (now' : Instant) {secret' headers' body' c'}, LabelUpdate secret' headers' body' c' →
        ∃ pr', ReadAs now' secret' headers' body' pr' ∧
          (c'.SameSides c.swap → pr'.labelChanged.Perm pr.labelChanged) ∧
          (c'.SameSides c → pr'.labelChanged.Perm pr.labelChanged ∧ pr'.action = pr.action) := by
  obtain ⟨pr, read, labels, action⟩ := update.readAs now
  refine ⟨pr, read, fun name => labels ▸ count_changed, ?_, ?_⟩
  · rw [action, if_congr anyAdded_iff rfl rfl]
  intro now' secret' headers' body' c' update'
  obtain ⟨pr', read', labels', action'⟩ := update'.readAs now'
  refine ⟨pr', read', fun swapped => ?_, fun same => ⟨?_, ?_⟩⟩
  · rw [labels', labels]
    exact swapped.changed.trans (changed_swap c)
  · rw [labels', labels]
    exact same.changed
  · rw [action', action, same.anyAdded]

/-- One label was taken off and another one put on, and both sides repeat labels. -/
def relabeled : LabelChange := ⟨["approved", "bug", "approved"], ["wip", "bug", "wip"]⟩

theorem label_delta_relabeled :
    ∃ pr, ReadAs default none mergeRequestHeaders (labelBody relabeled) pr ∧
      pr.labelChanged.count ⟨"approved"⟩ = 1 ∧ pr.labelChanged.count ⟨"bug"⟩ = 0 ∧
      pr.action = .labeled ∧
      ∃ pr', ReadAs default none mergeRequestHeaders (labelBody relabeled.swap) pr' ∧
        pr'.labelChanged.Perm pr.labelChanged := by
  obtain ⟨pr, read, labels, action, others⟩ :=
    label_delta default (labelUpdate_labelBody relabeled)
  obtain ⟨pr', read', swapped, -⟩ := others default (labelUpdate_labelBody relabeled.swap)
  exact ⟨pr, read, by rw [labels]; decide, by rw [labels]; decide, by rw [action]; decide, pr', read',
    swapped ⟨fun _ => Iff.rfl, fun _ => Iff.rfl⟩⟩

end Gatehouse.Gitlab
