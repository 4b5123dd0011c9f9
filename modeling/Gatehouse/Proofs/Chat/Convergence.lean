import Gatehouse.Proofs.Chat.Influence
import Gatehouse.Proofs.Chat.Refusal
import Gatehouse.Proofs.Git.Settled

/-!
# A check comes to rest

A check sets the label as the comments say and tells of it. What it tells says nothing about approval,
so the comments still say the same, and a second check finds nothing to do. It does not even touch the
store then, since the first one left it settled.
-/

namespace Gatehouse.Chat

open Git Program

variable {s : Store} {repository : String} {user author : User} {pr stored : PullRequest}
  {w : Webhook} {now now' : Instant} {name : String}

/-- The notice of what a check did. -/
def checkNotice (found : Bool) (user : String) : String :=
  if found then approvedNotice user else canceledNotice user

/-- A check leaves everything as it is if the label is as the comments say. Else it turns the label over
and tells of that once. -/
def Repaired (repository : String) (id : Int) (stored : PullRequest) (name : String)
    (v v' : View) : Prop :=
  if stored.hasLabel approvedLabel = verdict (v.comments repository id) then v' = v
  else Told repository id (checkNotice (verdict (v.comments repository id)) name) 1
    (v.change repository id (turnOver stored)) v'

namespace Repaired

variable {id : Int} {v v' : View} (repaired : Repaired repository id stored name v v')

include repaired

theorem rights : v'.rights = v.rights := by
  unfold Repaired at repaired
  split at repaired
  · rw [repaired]
  · rw [repaired.rights, View.rights_change]

theorem elsewhere {r : String} {i : Int} (other : ¬ (r = repository ∧ i = id)) :
    v'.pull? r i = v.pull? r i := by
  unfold Repaired at repaired
  split at repaired
  · rw [repaired]
  · obtain ⟨written, -, view⟩ := repaired
    rw [view, View.pull?_post, View.pull?_change, if_neg other]

theorem comments :
    if stored.hasLabel approvedLabel = verdict (v.comments repository id) then
      v'.comments = v.comments
    else ∃ notice : Comment,
      notice.body = checkNotice (verdict (v.comments repository id)) name ∧
      v'.comments = (v.post repository id [notice]).comments := by
  unfold Repaired at repaired
  split at repaired
  · rename_i agrees
    rw [if_pos agrees, repaired]
  · rename_i differs
    obtain ⟨written, bodies, view⟩ := repaired
    obtain ⟨notice, rfl, body⟩ := List.map_eq_singleton_iff.mp bodies
    rw [if_neg differs, view]
    exact ⟨notice, body, rfl⟩

end Repaired

section Answered

variable (answers : s.view.Answers repository)

include answers

theorem authorize_settles (entitled : mayApprove s.view repository user author = true) :
    (Approval.authorize repository user author).run.Ensures (Store.AnswersAt now repository) s
      fun r s' => r = .ok () ∧ s'.view = s.view ∧ s'.Settled repository ∧
        (s.Settled repository → s' = s) := by
  obtain ⟨other, writes⟩ : ¬ user.isSame author = true ∧
      s.view.mayWrite repository user.name = true := by
    simpa [mayApprove] using entitled
  unfold Approval.authorize
  rw [if_neg other]
  refine ensures_andThen.mpr ?_
  intro r s' answered
  obtain ⟨rfl, view⟩ := canUserWrite_answered answers answered.may
  have settled : s'.Settled repository := settled_canUserWrite answers answered
  have same (before : s.Settled repository) : s' = s := before.read (.rights user) answered
  rw [writes]
  exact ensures_pure.mpr ⟨rfl, view, settled, same⟩

theorem authorizeOrNotify_settles
    (entitled : mayApprove s.view repository user pr.author = true) :
    (Approval.authorizeOrNotify repository pr user).run.Ensures (Store.AnswersAt now repository) s
      fun r s' => r = .ok true ∧ s'.view = s.view ∧ s'.Settled repository ∧
        (s.Settled repository → s' = s) := by
  have unrefused : (Approval.refusal? repository user pr.author).run.Ensures
      (Store.AnswersAt now repository) s fun r s' => r = .ok none ∧ s'.view = s.view ∧
        s'.Settled repository ∧ (s.Settled repository → s' = s) := by
    refine ensures_andThen.mpr (ensures_bind.mpr ((authorize_settles answers entitled).imp ?_))
    rintro r s' ⟨rfl, rest⟩
    exact ensures_pure.mpr ⟨rfl, rest⟩
  refine ensures_andThen.mpr (unrefused.imp ?_)
  rintro r s' ⟨rfl, rest⟩
  exact ensures_pure.mpr ⟨rfl, rest⟩

theorem check_told (settled : s.Settled repository)
    (there : s.view.pull? repository pr.id = some stored) :
    (Approval.check pr name).run.Ensures (Store.AnswersAt now repository) s fun _ s' =>
      Repaired repository pr.id stored name s.view s'.view ∧
        (stored.hasLabel approvedLabel = verdict (s.view.comments repository pr.id) → s' = s) := by
  have looks : (Approval.isLabeled pr).run.Asks Query.IsRead :=
    Asks.andThen ⟨.labels pr.id, fun _ => trivial⟩ fun _ => trivial
  unfold Approval.check
  refine ensures_andThen.mpr (((ensures_answersAt (isLabeled_told answers)).and
    (ensures_reads settled looks)).imp ?_)
  rintro r s₁ ⟨⟨-, told⟩, rfl⟩
  rw [there] at told
  obtain rfl := told
  refine ensures_andThen.mpr ?_
  intro r s₂ answered
  obtain ⟨rfl, -⟩ := listComments_answered answers answered.may
  -- Up to here only questions that read were asked, so a settled store is still what it was.
  obtain rfl : s₂ = s₁ := settled.read (.comments pr.id) answered
  have known : s₂.view.pull? repository pr.id ≠ none := by simp [there]
  refine ensures_done.mpr ?_
  unfold Repaired verdict turnOver
  dsimp only
  cases approvalVerdict (newestFirst (s₂.view.comments repository pr.id)) with
  | true =>
    cases stored.hasLabel approvedLabel with
    | true => exact ensures_pure.mpr ⟨by rw [if_pos rfl], fun _ => rfl⟩
    | false =>
      refine (editAndNotify_told answers (label_told answers) known).imp ?_
      intro _ s' told
      rw [if_neg Bool.false_ne_true]
      exact ⟨told, fun impossible => absurd impossible Bool.false_ne_true⟩
  | false =>
    cases stored.hasLabel approvedLabel with
    | true =>
      refine (editAndNotify_told answers (unlabel_told answers) known).imp ?_
      intro _ s' told
      rw [if_neg Bool.false_ne_true.symm]
      exact ⟨told, fun impossible => absurd impossible Bool.false_ne_true.symm⟩
    | false => exact ensures_pure.mpr ⟨by rw [if_pos rfl], fun _ => rfl⟩

/-- What dispatching a comment leads to that asks for a check and for nothing else. -/
theorem check_delivered (now : Instant) (asked : AskedToCheck s.view repository w pr)
    (there : s.view.pull? repository pr.id = some stored) :
    (deliver now repository w s).Settled repository ∧
    Repaired repository pr.id stored w.sender.name s.view (deliver now repository w s).view ∧
    (s.Settled repository →
      stored.hasLabel approvedLabel = verdict (s.view.comments repository pr.id) →
      deliver now repository w s = s) := by
  obtain ⟨c, only, check⟩ := asked.asks
  have ensured : ((defaultDispatcher repository).dispatch w).Ensures
      (Store.AnswersAt now repository) s fun _ s' => s'.Settled repository ∧
        Repaired repository pr.id stored w.sender.name s.view s'.view ∧
        (s.Settled repository →
          stored.hasLabel approvedLabel = verdict (s.view.comments repository pr.id) →
          s' = s) := by
    rw [ensures_dispatch, handle_comment asked.type, only]
    refine ensures_pure.mpr (ensures_runAll_cons.mpr ?_)
    simp only [Approval.handleCommand, asked.subject, check]
    refine ensures_andThen.mpr ((authorizeOrNotify_settles answers asked.entitled).imp ?_)
    rintro r s₁ ⟨rfl, view, settled, same⟩
    rw [← view] at answers there ⊢
    refine ((ensures_settled settled).and (check_told answers settled there)).imp ?_
    rintro - s₂ ⟨settled₂, repaired, idle⟩
    refine ensures_done.mpr ⟨settled₂, repaired, ?_⟩
    intro before agrees
    exact (idle agrees).trans (same before)
  exact ensured.run fun _ _ => rfl

end Answered

/-- A comment of nothing but a command to check asks for a check. -/
theorem asks_check {comment : Comment} (type : w.eventType = .commentCreated)
    (here : w.comment = some comment)
    (body : comment.body = "/approve check" ∨ comment.body = "/ci-approve check") :
    ∃ c, approvalCommands w = [c] ∧ c.intent? = some .check := by
  have commands : Dispatcher.commandsOf w = extractCommands comment.body := by
    rw [Dispatcher.commandsOf, if_pos type, here]
  rw [approvalCommands, commands]
  rcases body with body | body
  · exact ⟨⟨"approve", ["check"]⟩, by rw [body]; decide, by decide⟩
  · exact ⟨⟨"ci-approve", ["check"]⟩, by rw [body]; decide, by decide⟩

theorem hasLabel_of_place {before after : PullRequest} {on : Bool}
    (placed : after.labelSet = place on before.labelSet) (label : String) :
    after.hasLabel label = if label = approvedLabel then on else before.hasLabel label := by
  have member : after.hasLabel label = true ↔ label ∈ place on before.labelSet := by
    rw [← placed, mem_labelSet]
  by_cases same : label = approvedLabel
  · rw [if_pos same, Bool.eq_iff_iff, member, same, mem_place]
  · rw [if_neg same, Bool.eq_iff_iff, member, ← mem_labelSet]
    cases on with
    | true => simp [place, same]
    | false => simp [place, same]

section Checked

variable (answers : s.view.Answers repository) (asked : AskedToCheck s.view repository w pr)
  (there : s.view.pull? repository pr.id = some stored) (now now' : Instant)
  (plain : OneLine w.sender.name.toList)

include answers asked there plain

/-- What a check leaves still says the same, and carries the label as that demands. -/
theorem check_agrees :
    verdict ((deliver now repository w s).view.comments repository pr.id) =
        verdict (s.view.comments repository pr.id) ∧
    ∃ after, (deliver now repository w s).view.pull? repository pr.id = some after ∧
      ∀ label, after.hasLabel label = if label = approvedLabel then
        verdict (s.view.comments repository pr.id) else stored.hasLabel label := by
  have handled := handled_deliver now repository w s
  have subject : subject? w = some pr :=
    (subject?_commented (.inr asked.type)).trans asked.subject
  have sender : actor w = w.sender := actor_sender (by rw [asked.type]; decide)
  have quiet : IsPlain (actor w).name := by
    rw [sender]
    exact plain_of_oneLine plain
  have shift := handled_shift handled answers subject fun _ => quiet
  refine ⟨shift.heard quiet, ?_⟩
  have labels := congrFun (congrFun (checked_labels asked answers handled) repository) pr.id
  rw [relabel_self, View.labels, View.labels, there, Option.map_some, Option.map_some,
    Option.map_eq_some_iff] at labels
  obtain ⟨after, found, placed⟩ := labels
  exact ⟨after, found, hasLabel_of_place placed⟩

/-- A check that follows a check has nothing to do, and finds a settled store. -/
theorem check_again :
    deliver now' repository w (deliver now repository w s) = deliver now repository w s := by
  obtain ⟨settled, repaired, -⟩ := check_delivered answers now asked there
  obtain ⟨heard, after, found, placed⟩ := check_agrees answers asked there now plain
  have answers₁ : (deliver now repository w s).view.Answers repository := by
    rwa [View.Answers, repaired.rights]
  have asked₁ : AskedToCheck (deliver now repository w s).view repository w pr := {
    asked with
    stored := by simp [found]
    entitled := (mayApprove_congr repaired.rights).trans asked.entitled }
  have agrees : after.hasLabel approvedLabel =
      verdict ((deliver now repository w s).view.comments repository pr.id) := by
    rw [heard, placed, if_pos rfl]
  obtain ⟨-, -, idle⟩ := check_delivered answers₁ now' asked₁ found
  exact idle settled agrees

end Checked

/-- Someone who may approve, with a name of one line, asks to check an open pull request of a
repository that has it. Then the label is there exactly if the comments say so, and nothing else of any
pull request has changed; one notice is written if the label was not so before, and none if it was. The
same event again leaves the store as it is. -/
theorem check_converges (now now' : Instant) {comment : Comment} (free : isLimited repository = false)
    (there : s.view.pull? repository pr.id = some stored)
    (type : w.eventType = .commentCreated) (here : w.comment = some comment)
    (body : comment.body = "/approve check" ∨ comment.body = "/ci-approve check")
    (of : comment.pullRequest = some pr) (opened : pr.isOpen = true)
    (entitled : mayApprove s.view repository w.sender pr.author = true)
    (plain : OneLine w.sender.name.toList) :
    (∃ after, (deliver now repository w s).view.pull? repository pr.id = some after ∧
      ∀ label, after.hasLabel label = if label = approvedLabel then
        verdict (s.view.comments repository pr.id) else stored.hasLabel label) ∧
    (∀ r i, ¬ (r = repository ∧ i = pr.id) →
      (deliver now repository w s).view.pull? r i = s.view.pull? r i) ∧
    (if stored.hasLabel approvedLabel = verdict (s.view.comments repository pr.id) then
        (deliver now repository w s).view.comments = s.view.comments
      else ∃ notice : Comment,
        notice.body = checkNotice (verdict (s.view.comments repository pr.id)) w.sender.name ∧
        (deliver now repository w s).view.comments =
          (s.view.post repository pr.id [notice]).comments) ∧
    deliver now' repository w (deliver now repository w s) = deliver now repository w s := by
  have answers : s.view.Answers repository := by
    refine answers_iff.mpr ⟨free, ?_⟩
    obtain ⟨repo, found, -⟩ := Option.bind_eq_some_iff.mp there
    exact ⟨repo, found⟩
  have asked : AskedToCheck s.view repository w pr := {
    type
    subject := commentedPullRequest?_eq_some.mpr ⟨comment, here, of, opened⟩
    stored := by simp [there]
    entitled
    asks := asks_check type here body }
  obtain ⟨-, repaired, -⟩ := check_delivered answers now asked there
  obtain ⟨-, labels⟩ := check_agrees answers asked there now plain
  have again := check_again answers asked there now now' plain
  exact ⟨labels, fun r i elsewhere => repaired.elsewhere elsewhere, repaired.comments, again⟩

/-- Bob approved before, and now asks for a check. -/
theorem check_converges_approved :
    let checked := deliver default "org/repo" (remarked "/approve check")
      (desk [] [remark "/approve"])
    (∃ after, checked.view.pull? "org/repo" 42 = some after ∧
      after.hasLabel approvedLabel = true) ∧
    deliver default "org/repo" (remarked "/approve check") checked = checked := by
  have approved : verdict ((desk [] [remark "/approve"]).view.comments "org/repo" 42) = true := by
    change approvalVerdict (newestFirst [remark "/approve"]) = true
    rw [newestFirst_single]
    decide
  have there : (desk [] [remark "/approve"]).view.pull? "org/repo" bugFix.id =
      some { bugFix with labels := [] } := by
    rw [desk_pull?]
    rfl
  obtain ⟨⟨after, found, placed⟩, -, -, again⟩ := check_converges default default
    (w := remarked "/approve check") (by decide) there rfl rfl (.inl rfl) rfl rfl rfl
    (by simp [OneLine, remarked])
  exact ⟨⟨after, found, (placed approvedLabel).trans approved⟩, again⟩

end Gatehouse.Chat
