import Gatehouse.Proofs.Chat.Handling

/-!
# Refusal

Whoever may not approve has no say: reviews and commands of theirs are answered by one notice each and
by nothing else (`refused_commands`), and a move of the label is turned over and answered by one
notice. Nothing is assumed about names here; but no comment may get lost, or the notices could not be
counted.
-/

namespace Gatehouse.Chat

open Git Program

/-- So many comments of one wording were written under a pull request, and nothing else changed. -/
def Told (repository : String) (id : Int) (notice : String) (n : Nat) (v v' : View) : Prop :=
  ∃ written : List Comment, written.map (·.body) = List.replicate n notice ∧
    v' = v.post repository id written

variable {s : Store} {v v' v'' : View} {repository notice : String} {id : Int} {n m : Nat}
  {pr stored : PullRequest} {user : User} {now : Instant} {w : Webhook} {c : Command}
  {cs : List Command}

theorem told_nothing (v : View) : Told repository id notice 0 v v :=
  ⟨[], rfl, (View.post_nil v).symm⟩

theorem Told.add (h : Told repository id notice n v v') (h' : Told repository id notice m v' v'') :
    Told repository id notice (n + m) v v'' := by
  obtain ⟨written, bodies, rfl⟩ := h
  obtain ⟨more, bodies', rfl⟩ := h'
  refine ⟨written ++ more, ?_, View.post_post v more⟩
  rw [List.map_append, bodies, bodies', List.replicate_append_replicate]

theorem Told.answers (h : Told repository id notice n v v') (before : v.Answers repository) :
    v'.Answers repository := by
  obtain ⟨written, -, rfl⟩ := h
  exact before

theorem Told.rights (h : Told repository id notice n v v') : v'.rights = v.rights := by
  obtain ⟨written, -, rfl⟩ := h
  rfl

/-- How often an event tries to approve or to withdraw an approval. -/
def attempts (w : Webhook) : Nat :=
  match w.eventType with
  | .reviewChanged => if (w.comment.bind (·.reviewState)).isSome then 1 else 0
  | .commentCreated => (approvalCommands w).length
  | .push => 0
  | .pullRequestChanged => 0

/-- The label is put on a pull request or taken off it, as it was not before. -/
def turnOver (stored pr : PullRequest) : PullRequest :=
  if stored.hasLabel approvedLabel then RepoState.withoutLabel pr approvedLabel
  else RepoState.withLabel pr approvedLabel

section Answered

variable (answers : s.view.Answers repository)

include answers

theorem notify_told :
    (Approval.notify pr notice).run.Ensures (Store.AnswersAt now repository) s fun r s' =>
      r = .ok () ∧ Told repository pr.id notice 1 s.view s'.view := by
  intro r s' told
  obtain ⟨done, c, body, -, view⟩ := registerComment_answeredAt answers told
  exact ensures_done.mpr ⟨done, [c], by rw [List.map_singleton, body]; rfl, view⟩

theorem authorizeOrNotify_told
    (refused : mayApprove s.view repository user pr.author = false) :
    (Approval.authorizeOrNotify repository pr user).run.Ensures (Store.AnswersAt now repository) s
      fun r s' => r = .ok false ∧
        Told repository pr.id (unauthorizedNotice user.name) 1 s.view s'.view := by
  unfold Approval.authorizeOrNotify
  refine ensures_andThen.mpr ((ensures_answersAt (refusal?_told answers)).imp ?_)
  rintro r s' ⟨view, rfl⟩
  rw [refused, ← view]
  rw [← view] at answers
  refine ensures_andThen.mpr ((notify_told answers).imp ?_)
  rintro r s'' ⟨rfl, told⟩
  exact ensures_pure.mpr ⟨rfl, told⟩

theorem guarded_told {body : Action Unit}
    (refused : mayApprove s.view repository user pr.author = false) :
    (do if ← Approval.authorizeOrNotify repository pr user then body : Action Unit).run.Ensures
      (Store.AnswersAt now repository) s fun _ s' =>
        Told repository pr.id (unauthorizedNotice user.name) 1 s.view s'.view := by
  refine ensures_andThen.mpr ((authorizeOrNotify_told answers refused).imp ?_)
  rintro r s' ⟨rfl, told⟩
  exact ensures_pure.mpr told

theorem refused_commands (subject : Approval.commentedPullRequest? w = some pr)
    (refused : mayApprove s.view repository w.sender pr.author = false) :
    (Dispatcher.runAll (cs.map fun c => (Approval.handleCommand repository c w).run)).Ensures
      (Store.AnswersAt now repository) s fun _ s' =>
        Told repository pr.id (unauthorizedNotice w.sender.name) cs.length s.view s'.view := by
  induction cs generalizing s with
  | nil => exact ensures_done.mpr (told_nothing s.view)
  | cons c cs ih =>
    have handled : (Approval.handleCommand repository c w).run.Ensures
        (Store.AnswersAt now repository) s fun _ s' =>
          Told repository pr.id (unauthorizedNotice w.sender.name) 1 s.view s'.view := by
      rw [Approval.handleCommand, subject]
      exact guarded_told answers refused
    refine ensures_runAll_cons.mpr (handled.imp fun _ s₁ first => ?_)
    have still := (mayApprove_congr first.rights).trans refused
    refine (ih (first.answers answers) still).imp fun _ s₂ later => ?_
    rw [List.length_cons, Nat.add_comm]
    exact first.add later

theorem refused_review {review : Comment} (of : review.pullRequest = some pr)
    (opened : pr.isOpen = true)
    (refused : mayApprove s.view repository review.author pr.author = false) :
    (Approval.handleReview repository review).run.Ensures (Store.AnswersAt now repository) s
      fun _ s' => Told repository pr.id (unauthorizedNotice review.author.name)
        (if review.reviewState.isSome then 1 else 0) s.view s'.view := by
  unfold Approval.handleReview
  rw [of]
  cases review.reviewState with
  | none => exact ensures_pure.mpr (told_nothing s.view)
  | some state =>
    dsimp only
    rw [if_pos opened]
    exact guarded_told answers refused

theorem editAndNotify_told {turn : Action Unit} {edit : PullRequest → PullRequest}
    (does : turn.run.Ensures (Store.May repository) s fun r s' =>
      s'.view = s.view.change repository pr.id edit ∧
      (r = .ok () ↔ s.view.pull? repository pr.id ≠ none))
    (there : s.view.pull? repository pr.id ≠ none) :
    (do turn; Approval.notify pr notice : Action Unit).run.Ensures
      (Store.AnswersAt now repository) s fun _ s' =>
        Told repository pr.id notice 1 (s.view.change repository pr.id edit) s'.view := by
  refine ensures_andThen.mpr ((ensures_answersAt does).imp ?_)
  rintro r s₁ ⟨view, done⟩
  obtain rfl := done.mpr there
  have answers₁ : s₁.view.Answers repository := by
    rw [view]
    exact answers
  rw [← view]
  exact (notify_told answers₁).imp fun _ _ told => told.2

theorem refused_move (moved : pr.labelChanged.any (·.name == approvedLabel) = true)
    (refused : mayApprove s.view repository user pr.author = false)
    (there : s.view.pull? repository pr.id = some stored) :
    (Approval.handleLabelEvent repository pr user).run.Ensures (Store.AnswersAt now repository) s
      fun _ s' => Told repository pr.id (unauthorizedNotice user.name) 1
        (s.view.change repository pr.id (turnOver stored)) s'.view := by
  unfold Approval.handleLabelEvent
  rw [if_pos moved]
  refine ensures_andThen.mpr ((ensures_answersAt (isLabeled_told answers)).imp ?_)
  rintro r s₁ ⟨view₁, told⟩
  rw [there] at told
  obtain rfl := told
  rw [← view₁] at answers there refused ⊢
  refine ensures_andThen.mpr ((ensures_answersAt (refusal?_told answers)).imp ?_)
  rintro r s₂ ⟨view₂, rfl⟩
  rw [refused]
  rw [← view₂] at answers there ⊢
  have known : s₂.view.pull? repository pr.id ≠ none := by simp [there]
  unfold turnOver
  cases stored.hasLabel approvedLabel with
  | true => exact editAndNotify_told answers (unlabel_told answers) known
  | false => exact editAndNotify_told answers (label_told answers) known

end Answered

theorem mayApprove_eq_false {user author : User} :
    mayApprove v repository user author = false ↔
      user.isSame author = true ∨ v.mayWrite repository user.name = false := by
  unfold mayApprove
  cases user.isSame author <;> simp

/-- Turning over moves the one label and no other. -/
theorem hasLabel_turnOver (name : String) :
    (turnOver stored stored).hasLabel name =
      if name = approvedLabel then !stored.hasLabel name else stored.hasLabel name := by
  unfold turnOver
  rw [Bool.eq_iff_iff, ← mem_labelSet]
  cases labeled : stored.hasLabel approvedLabel with
  | true =>
    rw [if_pos rfl, labelSet_withoutLabel, Finset.mem_erase, mem_labelSet]
    by_cases same : name = approvedLabel
    · simp [same, labeled]
    · simp [same]
  | false =>
    rw [if_neg Bool.false_ne_true, labelSet_withLabel, Finset.mem_insert, mem_labelSet]
    by_cases same : name = approvedLabel
    · simp [same, labeled]
    · simp [same]

theorem attempts_told (answers : s.view.Answers repository)
    (type : w.eventType = .reviewChanged ∨ w.eventType = .commentCreated)
    (subject : Approval.commentedPullRequest? w = some pr)
    (refused : mayApprove s.view repository (actor w) pr.author = false) :
    Told repository pr.id (unauthorizedNotice (actor w).name) (attempts w) s.view
      (deliver now repository w s).view := by
  have ensured : ((defaultDispatcher repository).dispatch w).Ensures
      (Store.AnswersAt now repository) s fun _ s' =>
        Told repository pr.id (unauthorizedNotice (actor w).name) (attempts w) s.view s'.view := by
    rcases type with type | type
    · obtain ⟨review, here, of, opened⟩ := commentedPullRequest?_eq_some.mp subject
      have attempts_eq : attempts w = if review.reviewState.isSome then 1 else 0 := by
        rw [attempts, type, here]
        rfl
      rw [actor_review type here] at refused ⊢
      rw [attempts_eq]
      refine ensures_dispatch_plugin (by rw [type]; decide) ?_
      rw [handle_review type here]
      exact refused_review answers of opened refused
    · have attempts_eq : attempts w = (approvalCommands w).length := by rw [attempts, type]
      rw [actor_sender (by rw [type]; decide)] at refused ⊢
      rw [attempts_eq, ensures_dispatch, handle_comment type]
      exact ensures_pure.mpr (refused_commands answers subject refused)
  exact ensured.run fun _ _ => rfl

theorem move_told (answers : s.view.Answers repository) (type : w.eventType = .pullRequestChanged)
    (subject : subject? w = some pr) (there : s.view.pull? repository pr.id = some stored)
    (refused : mayApprove s.view repository (actor w) pr.author = false) :
    Told repository pr.id (unauthorizedNotice (actor w).name) 1
      (s.view.change repository pr.id (turnOver stored)) (deliver now repository w s).view := by
  obtain ⟨here, action, moved⟩ := (subject?_moved type).mp subject
  rw [actor_sender (by rw [type]; decide)] at refused ⊢
  have ensured : ((defaultDispatcher repository).dispatch w).Ensures
      (Store.AnswersAt now repository) s fun _ s' =>
        Told repository pr.id (unauthorizedNotice w.sender.name) 1
          (s.view.change repository pr.id (turnOver stored)) s'.view := by
    refine ensures_dispatch_plugin (by rw [type]; decide) ?_
    rw [handle_moved type here action]
    exact refused_move answers moved refused there
  exact ensured.run fun _ _ => rfl

/-- What someone leads to who opened the pull request or may not write to the repository. A review or
comment changes no pull request; under an open one it is answered by as many notices as it has
attempts. A move of the label turns over that label of that pull request and is answered by one
notice. -/
theorem unauthorized_event (answers : s.view.Answers repository)
    (refused : ∀ pr, subject? w = some pr → (actor w).isSame pr.author = true ∨
      s.view.mayWrite repository (actor w).name = false) :
    (w.eventType = .reviewChanged ∨ w.eventType = .commentCreated →
      (deliver now repository w s).view.pull? = s.view.pull? ∧
      ∀ pr, Approval.commentedPullRequest? w = some pr →
        Told repository pr.id (unauthorizedNotice (actor w).name) (attempts w) s.view
          (deliver now repository w s).view) ∧
    (∀ pr stored, w.eventType = .pullRequestChanged → subject? w = some pr →
      s.view.pull? repository pr.id = some stored →
      (∃ after, (deliver now repository w s).view.pull? repository pr.id = some after ∧
        ∀ name, after.hasLabel name =
          if name = approvedLabel then !stored.hasLabel name else stored.hasLabel name) ∧
      (∀ r i, ¬ (r = repository ∧ i = pr.id) →
        (deliver now repository w s).view.pull? r i = s.view.pull? r i) ∧
      ∃ notice : Comment, notice.body = unauthorizedNotice (actor w).name ∧
        (deliver now repository w s).view.comments =
          (s.view.post repository pr.id [notice]).comments) := by
  refine ⟨?_, ?_⟩
  · intro type
    have told (pr : PullRequest) (subject : Approval.commentedPullRequest? w = some pr) :
        Told repository pr.id (unauthorizedNotice (actor w).name) (attempts w) s.view
          (deliver now repository w s).view :=
      attempts_told answers type subject
        (mayApprove_eq_false.mpr (refused pr ((subject?_commented type).trans subject)))
    refine ⟨?_, told⟩
    cases subject : Approval.commentedPullRequest? w with
    | none =>
      have aside := (subject?_commented type).trans subject
      rw [handled_aside (handled_deliver now repository w s) aside]
    | some pr =>
      obtain ⟨written, -, view⟩ := told pr subject
      rw [view, View.pull?_post]
  · intro pr stored type subject there
    obtain ⟨written, bodies, view⟩ :=
      move_told answers type subject there (mayApprove_eq_false.mpr (refused pr subject))
    rw [view]
    refine ⟨⟨turnOver stored stored, ?_, hasLabel_turnOver⟩, ?_, ?_⟩
    · rw [View.pull?_post, View.pull?_change, if_pos ⟨rfl, rfl⟩, there, Option.map_some]
    · intro r i elsewhere
      rw [View.pull?_post, View.pull?_change, if_neg elsewhere]
    · obtain ⟨notice, rfl, body⟩ := List.map_eq_singleton_iff.mp bodies
      exact ⟨notice, body, rfl⟩

/-- Alice tries twice, by whatever arguments, to approve her own pull request. -/
def aliceTries : Webhook :=
  { remarked "/approve maybe\n/ci-approve" with sender := bugFix.author }

theorem unauthorized_event_alice :
    attempts aliceTries = 2 ∧
    Told "org/repo" 42 (unauthorizedNotice "alice") (attempts aliceTries) (desk [] []).view
      (deliver default "org/repo" aliceTries (desk [] [])).view := by
  have own : ∀ pr, subject? aliceTries = some pr →
      (actor aliceTries).isSame pr.author = true ∨
        (desk [] []).view.mayWrite "org/repo" (actor aliceTries).name = false := by
    intro pr subject
    obtain rfl : bugFix = pr := Option.some.inj subject
    exact .inl (by decide)
  exact ⟨by decide, ((unauthorized_event (desk_answers [] []) own).1 (.inr rfl)).2 bugFix rfl⟩

end Gatehouse.Chat
