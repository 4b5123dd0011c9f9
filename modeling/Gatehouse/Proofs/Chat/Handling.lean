import Gatehouse.Proofs.Chat.Conduct

/-!
# Handling events

What the built-in dispatcher makes of an event: whose pull request it is about (`subject?`), who acts,
and which turn the label takes for it. `Handled` leaves open when the store is asked and which
comments get lost. Main statement: whatever these do, the labels take the same turn
(`handled_shift`), at the one pull request that the event is about.
-/

namespace Gatehouse.Chat

open Git Program

/-- The commands about approval of an event. -/
def approvalCommands (w : Webhook) : List Command :=
  (Dispatcher.commandsOf w).filter fun c => approveCommands.contains c.name

/-- The pull request that approval is about in an event: the open one that a review or comment was
written under, or the one whose label was moved. -/
def subject? (w : Webhook) : Option PullRequest :=
  match w.eventType with
  | .push => none
  | .pullRequestChanged => w.pullRequest.filter fun pr =>
      decide (pr.action = .labeled ∨ pr.action = .unlabeled) &&
        pr.labelChanged.any (·.name == approvedLabel)
  | .reviewChanged => Approval.commentedPullRequest? w
  | .commentCreated => Approval.commentedPullRequest? w

/-- Who acts: the author of a review, and else the sender of the event. -/
def actor (w : Webhook) : User :=
  match w.eventType, w.comment with
  | .reviewChanged, some review => review.author
  | _, _ => w.sender

/-- What the actor wants of the label, if the comments amount to `found`. -/
def wish? (found : Bool) (w : Webhook) : Option Bool :=
  match w.eventType with
  | .reviewChanged => (w.comment.bind (·.reviewState)).map isApproval
  | .commentCreated => decided found (approvalCommands w)
  | .push => none
  | .pullRequestChanged => none

/-- The turn that the label of the pull request takes. -/
def turn (v : View) (repository : String) (w : Webhook) (pr : PullRequest) :
    Finset String → Finset String :=
  if w.eventType = .pullRequestChanged then
    if mayApprove v repository (actor w) pr.author then settle none else flip
  else
    settle (if mayApprove v repository (actor w) pr.author then
      wish? (verdict (v.comments repository pr.id)) w else none)

/-- Does the event ask to compare the label with the comments? -/
def AsksCheck (w : Webhook) : Prop := ∃ c ∈ approvalCommands w, c.intent? = some .check

/-- The store may become another by handling an event: questions are answered in their order, at
whatever time, and comments may get lost. -/
def Handled (repository : String) (w : Webhook) (s s' : Store) : Prop :=
  ∃ es o, Path ((defaultDispatcher repository).dispatch w) es o ∧
    Follows (Store.May repository) s es s'

/-- The store after an event was handled at the given time. -/
def deliver (now : Instant) (repository : String) (w : Webhook) (s : Store) : Store :=
  (Program.run (Store.answer now repository) ((defaultDispatcher repository).dispatch w) s).2

variable {s s' : Store} {repository : String} {pr : PullRequest} {quiet : Prop} {now : Instant}
  {w : Webhook} {c : Command} {cs : List Command} {found : Bool}

theorem handled_run {answer : (q : Query) → Store → q.Outcome × Store}
    (sound : ∀ q s, Store.May repository q s (answer q s).1 (answer q s).2) :
    Handled repository w s
      (Program.run answer ((defaultDispatcher repository).dispatch w) s).2 := by
  obtain ⟨es, path, follows⟩ :=
    path_run (Store.May repository) answer sound ((defaultDispatcher repository).dispatch w) s
  exact ⟨es, _, path, follows⟩

theorem handled_deliver (now : Instant) (repository : String) (w : Webhook) (s : Store) :
    Handled repository w s (deliver now repository w s) :=
  handled_run fun _ _ => .inl ⟨now, rfl⟩

theorem handlers_default (name : String) :
    (defaultDispatcher repository).handlers.get? name =
      if approveCommands.contains name then some (Approval.handler repository) else none := by
  change (((∅ : Table String (Handler GitEffect)).insert "approve" _).insert "ci-approve" _).get?
    name = _
  simp only [Table.get?_insert, Table.get?_empty, approveCommands, List.contains_cons,
    List.contains_nil, Bool.or_false, Bool.or_eq_true, beq_iff_eq]
  by_cases first : name = "approve"
  · simp [first]
  · by_cases second : name = "ci-approve"
    · simp [second]
    · simp [first, second]

/-- An event is handed to the plugin, and then each command about approval to the handler. -/
theorem calls_default :
    (defaultDispatcher repository).calls w = (Approval.handle repository w).run ::
      (approvalCommands w).map fun c => (Approval.handleCommand repository c w).run := by
  have taken (cs : List Command) :
      (cs.filterMap fun c =>
        ((defaultDispatcher repository).handlers.get? c.name).map fun h => h.handle c w) =
      (cs.filter fun c => approveCommands.contains c.name).map fun c =>
        (Approval.handleCommand repository c w).run := by
    induction cs with
    | nil => rfl
    | cons c cs ih =>
      rw [List.filterMap_cons, handlers_default]
      by_cases named : approveCommands.contains c.name = true
      · rw [if_pos named, List.filter_cons, if_pos named, List.map_cons, ← ih]
        rfl
      · rw [if_neg named, List.filter_cons, if_neg named, ← ih]
        rfl
  unfold Dispatcher.calls approvalCommands
  rw [taken]
  rfl

theorem ensures_runAll_cons {may : (q : Query) → Store → q.Outcome → Store → Prop}
    {call : GitEffect Outcome} {rest : List (GitEffect Outcome)} {post : Store → Prop} :
    (Dispatcher.runAll (call :: rest)).Ensures may s (fun _ => post) ↔
      call.Ensures may s fun _ s' => (Dispatcher.runAll rest).Ensures may s' fun _ => post := by
  rw [Dispatcher.runAll]
  simp only [bind_eq, pure_eq, ensures_bind, ensures_done]

theorem ensures_dispatch {may : (q : Query) → Store → q.Outcome → Store → Prop}
    {post : Store → Prop} :
    ((defaultDispatcher repository).dispatch w).Ensures may s (fun _ => post) ↔
      (Approval.handle repository w).run.Ensures may s fun _ s' =>
        (Dispatcher.runAll ((approvalCommands w).map fun c =>
          (Approval.handleCommand repository c w).run)).Ensures may s' fun _ => post := by
  rw [Dispatcher.dispatch, calls_default, ensures_runAll_cons]

theorem approvalCommands_nil (other : w.eventType ≠ .commentCreated) :
    approvalCommands w = [] := by
  unfold approvalCommands Dispatcher.commandsOf
  rw [if_neg other]
  rfl

theorem commented_of_called (called : c ∈ approvalCommands w) : w.eventType = .commentCreated := by
  by_contra other
  rw [approvalCommands_nil other] at called
  cases called

/-- Commands place the label where the last of them demands it to be. A check reads what is written
by then, which may be the notices of earlier commands; so these have to be quiet. -/
theorem commands_shift (answers : s.view.Answers repository)
    (subject : Approval.commentedPullRequest? w = some pr) (plain : quiet → IsPlain w.sender.name)
    (settled : (∃ c ∈ cs, c.intent? = some .check) →
      quiet ∧ found = verdict (s.view.comments repository pr.id)) :
    (Dispatcher.runAll (cs.map fun c => (Approval.handleCommand repository c w).run)).Ensures
      (Store.May repository) s fun _ s' =>
        Shift repository pr.id quiet
          (settle (if mayApprove s.view repository w.sender pr.author then decided found cs
            else none)) s.view s'.view := by
  induction cs generalizing s with
  | nil =>
    refine ensures_done.mpr ?_
    rw [decided, ite_self]
    exact .refl _
  | cons c cs ih =>
    have demanded : c.demand? (verdict (s.view.comments repository pr.id)) = c.demand? found := by
      by_cases check : c.intent? = some .check
      · rw [(settled ⟨c, List.mem_cons_self .., check⟩).2]
      · exact Command.demand?_congr check _ _
    refine ensures_runAll_cons.mpr ((handleCommand_shift answers subject plain).imp ?_)
    intro _ s₁ first
    rw [demanded] at first
    -- The notices of this command are quiet, so a later check finds what this one would have found.
    have still : (∃ c ∈ cs, c.intent? = some .check) →
        quiet ∧ found = verdict (s₁.view.comments repository pr.id) := by
      rintro ⟨d, member, check⟩
      obtain ⟨hush, same⟩ := settled ⟨d, List.mem_cons_of_mem _ member, check⟩
      exact ⟨hush, same.trans (first.heard hush).symm⟩
    refine (ih (first.answers answers) still).imp fun _ s₂ later => ?_
    rw [mayApprove_congr first.rights] at later
    cases may : mayApprove s.view repository w.sender pr.author with
    | true =>
      rw [may] at first later
      rw [if_pos rfl, settle_decided_cons]
      exact first.trans later
    | false =>
      rw [may] at first later
      exact first.trans later

theorem commentedPullRequest?_eq_some :
    Approval.commentedPullRequest? w = some pr ↔
      ∃ c, w.comment = some c ∧ c.pullRequest = some pr ∧ pr.isOpen = true := by
  unfold Approval.commentedPullRequest?
  rw [Option.filter_eq_some_iff, Option.bind_eq_some_iff]
  constructor
  · rintro ⟨⟨c, here, of⟩, opened⟩
    exact ⟨c, here, of, opened⟩
  · rintro ⟨c, here, of, opened⟩
    exact ⟨⟨c, here, of⟩, opened⟩

theorem handle_review {review : Comment} (type : w.eventType = .reviewChanged)
    (here : w.comment = some review) :
    Approval.handle repository w = Approval.handleReview repository review := by
  rw [Approval.handle, type, here]

theorem handle_moved (type : w.eventType = .pullRequestChanged) (here : w.pullRequest = some pr)
    (action : pr.action = .labeled ∨ pr.action = .unlabeled) :
    Approval.handle repository w = Approval.handleLabelEvent repository pr w.sender := by
  rw [Approval.handle, type, here]
  exact if_pos action

theorem handle_comment (type : w.eventType = .commentCreated) :
    Approval.handle repository w = pure () := by
  rw [Approval.handle, type]

theorem subject?_moved (type : w.eventType = .pullRequestChanged) :
    subject? w = some pr ↔ w.pullRequest = some pr ∧
      (pr.action = .labeled ∨ pr.action = .unlabeled) ∧
      pr.labelChanged.any (·.name == approvedLabel) = true := by
  rw [subject?, type, Option.filter_eq_some_iff, Bool.and_eq_true, decide_eq_true_iff]

theorem subject?_commented
    (type : w.eventType = .reviewChanged ∨ w.eventType = .commentCreated) :
    subject? w = Approval.commentedPullRequest? w := by
  unfold subject?
  rcases type with type | type
  · rw [type]
  · rw [type]

theorem actor_review {review : Comment} (type : w.eventType = .reviewChanged)
    (here : w.comment = some review) : actor w = review.author := by
  rw [actor, type, here]

theorem actor_sender (other : w.eventType ≠ .reviewChanged) : actor w = w.sender := by
  unfold actor
  split
  · contradiction
  · rfl

theorem wish?_review {review : Comment} (type : w.eventType = .reviewChanged)
    (here : w.comment = some review) : wish? found w = review.reviewState.map isApproval := by
  rw [wish?, type, here]
  rfl

theorem wish?_comment (type : w.eventType = .commentCreated) :
    wish? found w = decided found (approvalCommands w) := by
  rw [wish?, type]

theorem ensures_dispatch_plugin {may : (q : Query) → Store → q.Outcome → Store → Prop}
    {post : Store → Prop} (other : w.eventType ≠ .commentCreated)
    (handled : (Approval.handle repository w).run.Ensures may s fun _ => post) :
    ((defaultDispatcher repository).dispatch w).Ensures may s fun _ => post := by
  rw [ensures_dispatch, approvalCommands_nil other]
  exact handled

theorem review_shift (answers : s.view.Answers repository) (type : w.eventType = .reviewChanged)
    (subject : subject? w = some pr) :
    ((defaultDispatcher repository).dispatch w).Ensures (Store.May repository) s fun _ s' =>
      Shift repository pr.id (IsPlain (actor w).name) (turn s.view repository w pr)
        s.view s'.view := by
  refine ensures_dispatch_plugin (by rw [type]; decide) ?_
  rw [subject?_commented (.inl type)] at subject
  obtain ⟨review, here, of, opened⟩ := commentedPullRequest?_eq_some.mp subject
  rw [handle_review type here, turn, if_neg (by rw [type]; decide), wish?_review type here,
    actor_review type here]
  cases state : review.reviewState with
  | none =>
    rw [Option.map_none, ite_self, Approval.handleReview, of, state]
    exact ensures_pure.mpr (.refl _)
  | some decision => exact handleReview_shift answers of opened state id

theorem moved_shift (answers : s.view.Answers repository)
    (type : w.eventType = .pullRequestChanged) (subject : subject? w = some pr) :
    ((defaultDispatcher repository).dispatch w).Ensures (Store.May repository) s fun _ s' =>
      Shift repository pr.id (IsPlain (actor w).name) (turn s.view repository w pr)
        s.view s'.view := by
  refine ensures_dispatch_plugin (by rw [type]; decide) ?_
  obtain ⟨here, action, moved⟩ := (subject?_moved type).mp subject
  rw [handle_moved type here action, turn, if_pos type, actor_sender (by rw [type]; decide)]
  exact handleLabelEvent_shift answers moved id

theorem comment_shift (answers : s.view.Answers repository) (type : w.eventType = .commentCreated)
    (subject : subject? w = some pr) (plain : AsksCheck w → IsPlain (actor w).name) :
    ((defaultDispatcher repository).dispatch w).Ensures (Store.May repository) s fun _ s' =>
      Shift repository pr.id (IsPlain (actor w).name) (turn s.view repository w pr)
        s.view s'.view := by
  rw [ensures_dispatch, handle_comment type]
  refine ensures_pure.mpr ?_
  rw [subject?_commented (.inr type)] at subject
  rw [actor_sender (by rw [type]; decide)] at plain
  rw [turn, if_neg (by rw [type]; decide), wish?_comment type, actor_sender (by rw [type]; decide)]
  exact commands_shift answers subject id fun check => ⟨plain check, rfl⟩

/-- The label takes its turn, whatever gets lost. -/
theorem dispatch_shift (answers : s.view.Answers repository) (subject : subject? w = some pr)
    (plain : AsksCheck w → IsPlain (actor w).name) :
    ((defaultDispatcher repository).dispatch w).Ensures (Store.May repository) s fun _ s' =>
      Shift repository pr.id (IsPlain (actor w).name) (turn s.view repository w pr)
        s.view s'.view := by
  cases type : w.eventType with
  | push =>
    rw [subject?, type] at subject
    cases subject
  | pullRequestChanged => exact moved_shift answers type subject
  | reviewChanged => exact review_shift answers type subject
  | commentCreated => exact comment_shift answers type subject plain

theorem runAll_pure {calls : List (GitEffect Outcome)}
    (each : ∀ call ∈ calls, call = pure (.ok ())) : Dispatcher.runAll calls = pure (.ok ()) := by
  induction calls with
  | nil => rfl
  | cons call rest ih =>
    have first : call = pure (.ok ()) := each call (List.mem_cons_self ..)
    rw [Dispatcher.runAll, first, ih fun call member => each call (List.mem_cons_of_mem _ member)]
    rfl

theorem handle_aside (none : subject? w = none) : Approval.handle repository w = pure () := by
  cases type : w.eventType with
  | push => rw [Approval.handle, type]
  | commentCreated => exact handle_comment type
  | reviewChanged =>
    rw [subject?_commented (.inl type)] at none
    cases here : w.comment with
    | none => rw [Approval.handle, type, here]
    | some review =>
      rw [handle_review type here, Approval.handleReview]
      split
      · rename_i pr state of decides
        have closed : ¬ pr.isOpen = true := by
          intro opened
          have subject := commentedPullRequest?_eq_some.mpr ⟨review, here, of, opened⟩
          rw [none] at subject
          cases subject
        exact if_neg closed
      · rfl
  | pullRequestChanged =>
    cases here : w.pullRequest with
    | none => rw [Approval.handle, type, here]
    | some pr =>
      by_cases action : pr.action = .labeled ∨ pr.action = .unlabeled
      · have unmoved : ¬ pr.labelChanged.any (·.name == approvedLabel) = true := by
          intro moved
          have subject := (subject?_moved type).mpr ⟨here, action, moved⟩
          rw [none] at subject
          cases subject
        rw [handle_moved type here action, Approval.handleLabelEvent, if_neg unmoved]
      · rw [Approval.handle, type, here]
        exact if_neg action

/-- An event that is about no pull request leads to no question. -/
theorem dispatch_aside (none : subject? w = none) :
    (defaultDispatcher repository).dispatch w = pure (.ok ()) := by
  rw [Dispatcher.dispatch, calls_default, handle_aside none]
  refine runAll_pure fun call member => ?_
  rcases List.mem_cons.mp member with rfl | member
  · rfl
  · obtain ⟨c, called, rfl⟩ := List.mem_map.mp member
    rw [subject?_commented (.inr (commented_of_called called))] at none
    rw [Approval.handleCommand, none]
    rfl

section Handled

variable (handled : Handled repository w s s')

include handled

theorem handled_shift (answers : s.view.Answers repository) (subject : subject? w = some pr)
    (plain : AsksCheck w → IsPlain (actor w).name) :
    Shift repository pr.id (IsPlain (actor w).name) (turn s.view repository w pr)
      s.view s'.view := by
  obtain ⟨es, o, path, follows⟩ := handled
  exact ensures_iff.mp (dispatch_shift answers subject plain) es o s' path follows

theorem handled_shut (shut : ¬ s.view.Answers repository) : s' = s := by
  obtain ⟨es, o, path, follows⟩ := handled
  exact follows_shut shut follows

theorem handled_aside (none : subject? w = none) : s' = s := by
  obtain ⟨es, o, path, follows⟩ := handled
  rw [dispatch_aside none] at path
  obtain ⟨rfl, -⟩ := path_done.mp path
  exact follows_nil.mp follows

end Handled

def bugFix : PullRequest := { id := 42, title := "Fix bug", author := { id := 1, name := "alice" } }

/-- A store with that pull request, some labels on it and some comments under it. Of the users only bob
may write to the repository. -/
def desk (labels : List Label) (comments : List Comment) : Store where
  repositories := ⟨[("org/repo", {
    canWrite := ⟨[("bob", true)]⟩
    pullRequests := ⟨[(42, { bugFix with labels })]⟩
    comments := ⟨[(42, comments)]⟩ })]⟩

def remark (body : String) : Comment where
  id := 100
  body
  author := { id := 2, name := "bob" }
  createdAt := default
  pullRequest := some bugFix

def remarked (body : String) : Webhook where
  eventType := .commentCreated
  repo := { name := "org/repo", url := "" }
  sender := { id := 2, name := "bob" }
  comment := some (remark body)

def malloryLabels : Webhook where
  eventType := .pullRequestChanged
  repo := { name := "org/repo", url := "" }
  sender := { id := 9, name := "mallory" }
  pullRequest := some { bugFix with action := .labeled, labelChanged := [⟨approvedLabel⟩] }

theorem desk_rights (labels : List Label) (comments : List Comment) :
    (desk labels comments).view.rights =
      fun r => if r = "org/repo" then some fun name => name == "bob" else none := by
  funext r
  simp only [desk, Store.view, Table.get?, Table.findIn]
  split
  · refine congrArg some (funext fun name => ?_)
    simp only [Table.getD, Table.get?, Table.findIn, beq_eq_decide]
    split <;> simp_all
  · rfl

theorem desk_pull? (labels : List Label) (comments : List Comment) :
    (desk labels comments).view.pull? =
      fun r i => if r = "org/repo" ∧ i = 42 then some { bugFix with labels } else none := by
  funext r i
  simp only [desk, Store.view, Table.get?, Table.findIn]
  by_cases here : r = "org/repo"
  · simp only [here, if_true, true_and, Option.bind_some, Table.findIn]
  · simp [here]

theorem desk_answers (labels : List Label) (comments : List Comment) :
    (desk labels comments).view.Answers "org/repo" :=
  ⟨by decide, rfl⟩

end Gatehouse.Chat
