import Gatehouse.Proofs.Git.LabelSet
import Mathlib.Data.List.Induction

/-!
# Calls that set and delete labels

A pull request in a store keeps its labels as a list. Calls that set or delete labels leave no label in
it twice and keep the order of what they do not delete (`survivors_edits`); as a set, the labels depend
only on the last call for each of them (`mem_labelSet_edits`). A limited repository refuses every call and
keeps everything as it is; else all calls succeed, and nothing but the labels of the one pull request
changes (`labels_stay_set`).
-/

namespace Gatehouse.Git

variable {repository : String} {id : Int} {s : Store} {pr : PullRequest} {name label : String}

/-- A call that sets or deletes a label of a pull request. -/
structure LabelCall where
  now : Instant
  type : IssueType
  sets : Bool
  label : String

namespace LabelCall

variable {c : LabelCall} {calls : List LabelCall}

/-- The operation that is called, for the pull request of an id. -/
def query (c : LabelCall) (id : Int) : Query :=
  if c.sets then .setLabel c.type id c.label else .deleteLabel c.type id c.label

/-- What a call does to the pull request. -/
def edit (c : LabelCall) (pr : PullRequest) : PullRequest :=
  if c.sets then RepoState.withLabel pr c.label else RepoState.withoutLabel pr c.label

/-- What calls do to the pull request, one after the other. -/
def edits (calls : List LabelCall) (pr : PullRequest) : PullRequest :=
  calls.foldl (fun pr c => c.edit pr) pr

/-- The last call for a label. -/
def last? (label : String) (calls : List LabelCall) : Option LabelCall :=
  (calls.filter (·.label = label)).getLast?

/-- No call deletes the label. -/
def Spare (calls : List LabelCall) (l : Label) : Prop := ∀ c ∈ calls, c.label = l.name → c.sets = true

instance (calls : List LabelCall) (l : Label) : Decidable (Spare calls l) :=
  inferInstanceAs (Decidable (∀ c ∈ calls, c.label = l.name → c.sets = true))

/-! One call. -/

theorem edit_labels (c : LabelCall) (pr : PullRequest) :
    c.edit pr = { pr with labels := (c.edit pr).labels } := by
  unfold edit RepoState.withLabel RepoState.withoutLabel
  split
  · split <;> rfl
  · rfl

theorem nodup_edit (distinct : pr.labels.Nodup) : (c.edit pr).labels.Nodup := by
  unfold edit
  split
  · unfold RepoState.withLabel
    split
    · exact distinct
    · rename_i new
      rw [← List.concat_eq_append]
      refine List.Nodup.concat (fun there => new ?_) distinct
      exact List.any_eq_true.mpr ⟨_, there, by simp⟩
  · exact distinct.filter _

theorem mem_labelSet_edit :
    name ∈ (c.edit pr).labelSet ↔ if c.label = name then c.sets = true else name ∈ pr.labelSet := by
  unfold edit
  split
  · rename_i sets
    rw [labelSet_withLabel, Finset.mem_insert]
    by_cases same : c.label = name
    · simp [same, sets]
    · simp [same, Ne.symm same]
  · rename_i deletes
    rw [labelSet_withoutLabel, Finset.mem_erase]
    by_cases same : c.label = name
    · simp [same, deletes]
    · simp [same, Ne.symm same]

/-- Labels that neither this call nor a later one deletes come first, in their order. -/
theorem survivors_edit (c : LabelCall) (calls : List LabelCall) (pr : PullRequest) :
    pr.labels.filter (Spare (c :: calls) ·) <+: (c.edit pr).labels.filter (Spare calls ·) := by
  have spare (l : Label) : Spare (c :: calls) l ↔ (c.label = l.name → c.sets = true) ∧ Spare calls l :=
    List.forall_mem_cons
  unfold edit
  split
  · rename_i sets
    have same : pr.labels.filter (Spare (c :: calls) ·) = pr.labels.filter (Spare calls ·) := by
      simp [spare, sets]
    rw [same]
    unfold RepoState.withLabel
    split
    · exact List.prefix_rfl
    · rw [List.filter_append]
      exact List.prefix_append _ _
  · rename_i deletes
    have same : pr.labels.filter (Spare (c :: calls) ·) =
        (pr.labels.filter (·.name ≠ c.label)).filter (Spare calls ·) := by
      rw [List.filter_filter]
      refine List.filter_congr fun l _ => ?_
      simp [spare, deletes, eq_comm, Bool.and_comm]
    rw [same, RepoState.withoutLabel]

/-! Many calls. -/

theorem edits_concat (calls : List LabelCall) (c : LabelCall) (pr : PullRequest) :
    edits (calls ++ [c]) pr = c.edit (edits calls pr) := by
  rw [edits, List.foldl_concat, edits]

theorem edits_append (before after : List LabelCall) (pr : PullRequest) :
    edits (before ++ after) pr = edits after (edits before pr) := List.foldl_append

theorem edits_labels (calls : List LabelCall) (pr : PullRequest) :
    edits calls pr = { pr with labels := (edits calls pr).labels } := by
  induction calls using List.reverseRecOn with
  | nil => rfl
  | append_singleton calls c ih =>
    rw [edits_concat, edit_labels, ih]

theorem nodup_edits (distinct : pr.labels.Nodup) : (edits calls pr).labels.Nodup := by
  induction calls using List.reverseRecOn with
  | nil => exact distinct
  | append_singleton calls c ih =>
    rw [edits_concat]
    exact nodup_edit ih

theorem last?_concat :
    last? label (calls ++ [c]) = if c.label = label then some c else last? label calls := by
  unfold last?
  rw [List.filter_append]
  by_cases same : c.label = label
  · simp [same]
  · simp [same]

/-- The last call for a label decides about it. -/
theorem mem_labelSet_edits :
    name ∈ (edits calls pr).labelSet ↔
      match last? name calls with
      | some c => c.sets = true
      | none => name ∈ pr.labelSet := by
  induction calls using List.reverseRecOn with
  | nil => rfl
  | append_singleton calls c ih =>
    rw [edits_concat, mem_labelSet_edit, last?_concat]
    by_cases same : c.label = name
    · rw [if_pos same, if_pos same]
    · rw [if_neg same, if_neg same, ih]

theorem survivors_edits (calls : List LabelCall) (pr : PullRequest) :
    pr.labels.filter (Spare calls ·) <+: (edits calls pr).labels := by
  induction calls generalizing pr with
  | nil => rw [List.filter_eq_self.mpr (by simp [Spare]), edits, List.foldl_nil]
  | cons c calls ih => exact (survivors_edit c calls pr).trans (ih (c.edit pr))

/-- Neighbours that are for different labels may be exchanged. -/
theorem last?_exchange {d : LabelCall} (other : c.label ≠ d.label) (before after : List LabelCall) :
    last? label (before ++ c :: d :: after) = last? label (before ++ d :: c :: after) := by
  unfold last?
  have same : (c :: d :: after).filter (·.label = label) = (d :: c :: after).filter (·.label = label) := by
    by_cases first : c.label = label
    · have second : d.label ≠ label := fun same => other (first.trans same.symm)
      simp [first, second]
    · simp [first, List.filter_cons]
  rw [List.filter_append, same, ← List.filter_append]

end LabelCall

/-! Calls on a store. -/

open LabelCall

/-- How calls for the labels of a pull request end, each on the store that those before it left, and the
store after all of them. -/
def Store.called (repository : String) (id : Int) (s : Store) (calls : List LabelCall) :
    List (Except Error Unit) × Store :=
  calls.foldl (fun (ended, s) c =>
    let (outcome, s) := s.answer c.now repository (c.query id)
    (ended ++ [outcome.map fun _ => ()], s)) ([], s)

theorem called_concat (calls : List LabelCall) (c : LabelCall) :
    s.called repository id (calls ++ [c]) =
      ((s.called repository id calls).1 ++
          [((s.called repository id calls).2.answer c.now repository (c.query id)).1.map fun _ => ()],
        ((s.called repository id calls).2.answer c.now repository (c.query id)).2) :=
  List.foldl_concat ..

/-- The calls that a repository does not refuse. -/
def heard (repository : String) (calls : List LabelCall) : List LabelCall :=
  if isLimited repository then [] else calls

theorem View.change_id (v : View) : v.change repository id (fun pr => pr) = v := by
  refine View.ext rfl (funext fun r => funext fun i => ?_) rfl
  rw [View.pull?_change, Option.map_id', ite_self]

theorem View.change_change (v : View) (f g : PullRequest → PullRequest) :
    (v.change repository id f).change repository id g = v.change repository id fun pr => g (f pr) := by
  refine View.ext rfl (funext fun r => funext fun i => ?_) rfl
  simp only [View.pull?_change]
  split
  · rw [Option.map_map]
    rfl
  · rfl

theorem answers_of_stored (free : isLimited repository = false)
    (stored : s.view.pull? repository id = some pr) : s.view.Answers repository := by
  refine answers_iff.mpr ⟨free, ?_⟩
  obtain ⟨repo, found, -⟩ := Option.bind_eq_some_iff.mp stored
  exact ⟨repo, found⟩

/-- A call edits the pull request, and succeeds if there is one. -/
theorem call_answered (answers : s.view.Answers repository) (c : LabelCall) :
    (s.answer c.now repository (c.query id)).2.view = s.view.change repository id c.edit ∧
      (s.view.pull? repository id ≠ none →
        ((s.answer c.now repository (c.query id)).1.map fun _ => ()) = .ok ()) := by
  obtain ⟨now, type, sets, label⟩ := c
  cases sets with
  | true =>
    obtain ⟨seen, ends⟩ := setLabel_answered answers (.inl ⟨now, rfl⟩)
    exact ⟨seen, fun there => congrArg (Except.map fun _ => ()) (ends.mpr there)⟩
  | false =>
    obtain ⟨seen, ends⟩ := deleteLabel_answered answers (.inl ⟨now, rfl⟩)
    exact ⟨seen, fun there => congrArg (Except.map fun _ => ()) (ends.mpr there)⟩

/-- A limited repository refuses every operation. -/
theorem answer_limited (limited : isLimited repository = true) (now : Instant) (q : Query) :
    s.answer now repository q = (.error (.rateLimited (now.epochSeconds + rateLimitWait)
      "code 403. Please wait until reset"), s) := by
  have refused : rateLimitOf? now.epochSeconds repository =
      some (.rateLimited (now.epochSeconds + rateLimitWait) "code 403. Please wait until reset") :=
    if_pos limited
  unfold Store.answer
  rw [refused]

theorem called_limited (limited : isLimited repository = true) (calls : List LabelCall) :
    s.called repository id calls = (calls.map fun c => .error (.rateLimited
      (c.now.epochSeconds + rateLimitWait) "code 403. Please wait until reset"), s) := by
  induction calls using List.reverseRecOn with
  | nil => rfl
  | append_singleton calls c ih =>
    rw [called_concat, ih, answer_limited limited, List.map_append]
    rfl

/-- Calls do to the pull request what those of them do that are heard, and nothing else. -/
theorem view_called (stored : s.view.pull? repository id = some pr) (calls : List LabelCall) :
    (s.called repository id calls).2.view =
      s.view.change repository id (edits (heard repository calls)) := by
  cases free : isLimited repository with
  | true =>
    rw [called_limited free, heard, if_pos free]
    exact (View.change_id _).symm
  | false =>
    have all (calls : List LabelCall) : heard repository calls = calls :=
      if_neg (by simp [free])
    have answers := answers_of_stored free stored
    rw [all]
    induction calls using List.reverseRecOn with
    | nil => exact (View.change_id _).symm
    | append_singleton calls c ih =>
      have still : (s.called repository id calls).2.view.Answers repository := by
        rw [ih]
        exact answers
      rw [called_concat, (call_answered still c).1, ih, View.change_change]
      exact congrArg _ (funext fun pr => (edits_concat calls c pr).symm)

theorem pull?_called (stored : s.view.pull? repository id = some pr) (calls : List LabelCall) :
    (s.called repository id calls).2.view.pull? repository id =
      some (edits (heard repository calls) pr) := by
  rw [view_called stored, View.pull?_change, if_pos ⟨rfl, rfl⟩, stored, Option.map_some]

theorem called_ok (free : isLimited repository = false)
    (stored : s.view.pull? repository id = some pr) (calls : List LabelCall) :
    (s.called repository id calls).1 = calls.map fun _ => .ok () := by
  induction calls using List.reverseRecOn with
  | nil => rfl
  | append_singleton calls c ih =>
    have there := pull?_called stored calls
    obtain ⟨-, ok⟩ := call_answered (answers_of_stored free there) c
    rw [called_concat, ih, ok (by simp [there]), List.map_append]
    rfl

theorem heard_append (before after : List LabelCall) :
    heard repository (before ++ after) = heard repository before ++ heard repository after := by
  unfold heard
  split <;> rfl

/-- Labels that a call is refused to delete are kept. -/
theorem spare_heard {calls : List LabelCall} {l : Label} (spare : Spare calls l) :
    Spare (heard repository calls) l := by
  unfold heard
  split
  · simp [Spare]
  · exact spare

/-- As sets, the labels depend on the last calls only. -/
theorem labels_called_congr (stored : s.view.pull? repository id = some pr)
    {calls calls' : List LabelCall} (same : ∀ label, last? label calls = last? label calls') :
    (s.called repository id calls).2.view.labels = (s.called repository id calls').2.view.labels := by
  have heard_same (label : String) :
      last? label (heard repository calls) = last? label (heard repository calls') := by
    unfold heard
    split
    · rfl
    · exact same label
  funext r i
  by_cases here : r = repository ∧ i = id
  · obtain ⟨rfl, rfl⟩ := here
    rw [View.labels, View.labels, pull?_called stored, pull?_called stored]
    refine congrArg some (Finset.ext fun name => ?_)
    rw [mem_labelSet_edits, mem_labelSet_edits, heard_same]
  · rw [View.labels, View.labels, view_called stored, view_called stored, View.pull?_change,
      View.pull?_change, if_neg here, if_neg here]

/-- Whatever calls set and delete labels of a pull request without repeated labels, it is kept without
repeated labels and is else as it was, and so is every other pull request. In a repository that is not
limited all calls succeed, and it has the labels whose last call was to set them, and of those without a
call the ones that it had. A limited one refuses every call and keeps everything. Labels keep their order
while nobody deletes them, and calls for different labels may be exchanged. -/
theorem labels_stay_set (stored : s.view.pull? repository id = some pr) (distinct : pr.labels.Nodup)
    (calls : List LabelCall) :
    ∃ pr', (s.called repository id calls).2.view.pull? repository id = some pr' ∧
      pr' = { pr with labels := pr'.labels } ∧ pr'.labels.Nodup ∧
      (isLimited repository = false →
        (s.called repository id calls).1 = calls.map (fun _ => .ok ()) ∧
        ∀ label, pr'.hasLabel label = true ↔
          match last? label calls with
          | some c => c.sets = true
          | none => pr.hasLabel label = true) ∧
      (isLimited repository = true →
        (s.called repository id calls).1 = calls.map (fun c => .error (.rateLimited
          (c.now.epochSeconds + rateLimitWait) "code 403. Please wait until reset")) ∧
        (s.called repository id calls).2 = s) ∧
      (∀ before after, calls = before ++ after →
        ∃ mid, (s.called repository id before).2.view.pull? repository id = some mid ∧
          (mid.labels.filter (Spare after ·)).Sublist pr'.labels) ∧
      (∀ before c d after, calls = before ++ c :: d :: after → c.label ≠ d.label →
        (s.called repository id (before ++ d :: c :: after)).2.view.labels =
          (s.called repository id calls).2.view.labels) ∧
      ∀ r i, ¬ (r = repository ∧ i = id) →
        (s.called repository id calls).2.view.pull? r i = s.view.pull? r i := by
  refine ⟨_, pull?_called stored calls, edits_labels _ pr, nodup_edits distinct, ?_, ?_, ?_, ?_, ?_⟩
  · intro free
    refine ⟨called_ok free stored calls, fun label => ?_⟩
    have all : heard repository calls = calls := if_neg (by simp [free])
    rw [all, ← mem_labelSet, mem_labelSet_edits]
    cases last? label calls with
    | none => exact mem_labelSet
    | some c => rfl
  · intro limited
    rw [called_limited limited]
    exact ⟨rfl, rfl⟩
  · rintro before after rfl
    refine ⟨_, pull?_called stored before, ?_⟩
    rw [heard_append, edits_append]
    refine List.Sublist.trans ?_ (survivors_edits (heard repository after) _).sublist
    exact List.monotone_filter_right _ fun l spare =>
      decide_eq_true (spare_heard (of_decide_eq_true spare))
  · rintro before c d after rfl other
    exact labels_called_congr stored fun label => (last?_exchange other before after).symm
  · intro r i elsewhere
    rw [view_called stored, View.pull?_change, if_neg elsewhere]

/-- A pull request with some labels. -/
def labeledPull (labels : List Label) : PullRequest :=
  { id := 42, title := "Fix bug", author := { id := 1 }, labels }

/-- That pull request, and nothing else, in a repository. -/
def labeledIn (repository : String) (labels : List Label) : Store where
  repositories := ⟨[(repository, { pullRequests := ⟨[(42, labeledPull labels)]⟩ })]⟩

/-- A call that sets a label. -/
def setting (label : String) : LabelCall := ⟨default, .pullRequest, true, label⟩

/-- A call that deletes a label, which it takes to be one of an issue. -/
def deleting (label : String) : LabelCall := ⟨default, .issue, false, label⟩

theorem labels_stay_set_moved :
    ∃ pr, ((labeledIn "org/repo" [⟨"bug"⟩, ⟨"wip"⟩, ⟨"docs"⟩]).called "org/repo" 42
        [deleting "bug", setting "wip", setting "bug", deleting "new"]).2.view.pull? "org/repo" 42 =
          some pr ∧
      pr.labels.Nodup ∧ pr.hasLabel "bug" = true ∧ pr.hasLabel "new" = false ∧
      [⟨"wip"⟩, ⟨"docs"⟩].Sublist pr.labels := by
  have start : (labeledIn "org/repo" [⟨"bug"⟩, ⟨"wip"⟩, ⟨"docs"⟩]).view.pull? "org/repo" 42 =
      some (labeledPull [⟨"bug"⟩, ⟨"wip"⟩, ⟨"docs"⟩]) := rfl
  have free : isLimited "org/repo" = false := by decide
  obtain ⟨pr, stored, -, distinct, present, -, order, -⟩ := labels_stay_set start (by decide)
    [deleting "bug", setting "wip", setting "bug", deleting "new"]
  obtain ⟨mid, known, kept⟩ := order [] _ rfl
  obtain rfl := Option.some.inj (start.symm.trans known)
  obtain ⟨-, present⟩ := present free
  refine ⟨pr, stored, distinct, (present "bug").mpr rfl, ?_, kept⟩
  exact Bool.eq_false_iff.mpr fun there => Bool.false_ne_true ((present "new").mp there)

/-- In a limited repository the last call for the label was to set it, and the label is not there. -/
theorem limited_label_missing :
    (labeledIn "org/test-rate-limit" []).view.pull? "org/test-rate-limit" 42 =
        some (labeledPull []) ∧ (labeledPull []).labels.Nodup ∧
    last? "approved" [setting "approved"] = some (setting "approved") ∧
    (setting "approved").sets = true ∧
    ∃ pr, ((labeledIn "org/test-rate-limit" []).called "org/test-rate-limit" 42
        [setting "approved"]).2.view.pull? "org/test-rate-limit" 42 = some pr ∧
      pr.hasLabel "approved" = false :=
  ⟨rfl, List.nodup_nil, rfl, rfl, _, rfl, rfl⟩

end Gatehouse.Git
