import Gatehouse.Chat.Dispatch
import Gatehouse.Proofs.Chat.Turn

/-!
# How approval is conducted

What each part of the approval plugin does to a repository that answers, one lemma for each: who is
refused (`refusal?_told`), and which turn the label takes when a review, a command or a change of
labels is handled. All of it holds with comments getting lost on their way (`Store.May`); the turn is
made before the comment is written, so it does not depend on it.
-/

namespace Gatehouse.Chat

open Git Program

/-- May a user approve a pull request of that author? -/
def mayApprove (v : View) (repository : String) (user author : User) : Bool :=
  !user.isSame author && v.mayWrite repository user.name

def isApproval : ReviewState → Bool
  | .approved => true
  | .unapproved => false

variable {s : Store} {v v' : View} {repository : String} {user author : User} {pr : PullRequest}
  {quiet : Prop} {c : Command} {w : Webhook}

theorem mayApprove_congr (rights : v'.rights = v.rights) :
    mayApprove v' repository user author = mayApprove v repository user author := by
  unfold mayApprove View.mayWrite
  rw [rights]

section Answered

variable (answers : s.view.Answers repository)

include answers

theorem authorize_told :
    (Approval.authorize repository user author).run.Ensures (Store.May repository) s fun r s' =>
      s'.view = s.view ∧
      r = if mayApprove s.view repository user author then .ok ()
        else .error (.unauthorized user.name repository) := by
  unfold Approval.authorize mayApprove
  by_cases same : user.isSame author = true
  · rw [if_pos same]
    refine ensures_andThen.mpr (ensures_throw.mpr ⟨rfl, ?_⟩)
    simp [same]
  · rw [if_neg same]
    refine ensures_andThen.mpr (ensures_asked.mpr fun r s' told => ?_)
    obtain ⟨rfl, view⟩ := canUserWrite_answered answers told
    cases may : s.view.mayWrite repository user.name with
    | true => exact ensures_pure.mpr ⟨view, by simp [same]⟩
    | false => exact ensures_throw.mpr ⟨view, by simp⟩

theorem refusal?_told :
    (Approval.refusal? repository user author).run.Ensures (Store.May repository) s fun r s' =>
      s'.view = s.view ∧
      r = .ok (if mayApprove s.view repository user author then none else some user.name) := by
  unfold Approval.refusal? attempt
  refine ensures_andThen.mpr (ensures_bind.mpr ((authorize_told answers).imp ?_))
  rintro r s' ⟨view, rfl⟩
  cases mayApprove s.view repository user author with
  | true => exact ensures_pure.mpr ⟨view, rfl⟩
  | false => exact ensures_pure.mpr ⟨view, rfl⟩

theorem notify_shift {notice : String} (silent : quiet → Silent notice) :
    (Approval.notify pr notice).run.Ensures (Store.May repository) s fun _ s' =>
      Shift repository pr.id quiet (settle none) s.view s'.view := by
  refine ensures_asked.mpr fun r s' told => ?_
  rcases registerComment_answered answers told with same | ⟨c, rfl, plain, written⟩
  · rw [same]
    exact .refl _
  · rw [written]
    exact .post silent plain

theorem authorizeOrNotify_shift (plain : quiet → IsPlain user.name) :
    (Approval.authorizeOrNotify repository pr user).run.Ensures (Store.May repository) s
      fun r s' =>
        if mayApprove s.view repository user pr.author then r = .ok true ∧ s'.view = s.view
        else r ≠ .ok true ∧ Shift repository pr.id quiet (settle none) s.view s'.view := by
  unfold Approval.authorizeOrNotify
  refine ensures_andThen.mpr ((refusal?_told answers).imp ?_)
  rintro r s' ⟨view, rfl⟩
  cases mayApprove s.view repository user pr.author with
  | true => exact ensures_pure.mpr ⟨rfl, view⟩
  | false =>
    rw [← view] at answers ⊢
    refine ensures_andThen.mpr ((notify_shift answers fun hush => (plain hush).2.2).imp ?_)
    rintro (e | told) s'' shift
    · exact ⟨by simp, shift⟩
    · exact ensures_pure.mpr ⟨by simp, shift⟩

/-- What only those may do who may approve moves the label for no one else. -/
theorem guarded_shift {body : Action Unit} {wish : Option Bool} (plain : quiet → IsPlain user.name)
    (does : ∀ s', s'.view = s.view → body.run.Ensures (Store.May repository) s' fun _ s'' =>
      Shift repository pr.id quiet (settle wish) s'.view s''.view) :
    (do if ← Approval.authorizeOrNotify repository pr user then body : Action Unit).run.Ensures
      (Store.May repository) s fun _ s' =>
        Shift repository pr.id quiet
          (settle (if mayApprove s.view repository user pr.author then wish else none))
          s.view s'.view := by
  refine ensures_andThen.mpr ((authorizeOrNotify_shift answers plain).imp ?_)
  intro r s' told
  cases may : mayApprove s.view repository user pr.author with
  | true =>
    rw [may] at told
    obtain ⟨rfl, view⟩ := told
    refine (does s' view).imp fun _ s'' shift => ?_
    rw [← view]
    exact shift
  | false =>
    rw [may] at told
    obtain ⟨refused, shift⟩ := told
    cases r with
    | error e => exact shift
    | ok passed =>
      cases passed with
      | true => exact absurd rfl refused
      | false => exact ensures_pure.mpr shift

theorem label_told :
    (Approval.label pr).run.Ensures (Store.May repository) s fun r s' =>
      s'.view = s.view.change repository pr.id (RepoState.withLabel · approvedLabel) ∧
      (r = .ok () ↔ s.view.pull? repository pr.id ≠ none) :=
  ensures_asked.mpr fun _ _ => setLabel_answered answers

theorem unlabel_told :
    (Approval.unlabel pr).run.Ensures (Store.May repository) s fun r s' =>
      s'.view = s.view.change repository pr.id (RepoState.withoutLabel · approvedLabel) ∧
      (r = .ok () ↔ s.view.pull? repository pr.id ≠ none) :=
  ensures_asked.mpr fun _ _ => deleteLabel_answered answers

theorem label_shift :
    (Approval.label pr).run.Ensures (Store.May repository) s fun _ s' =>
      Shift repository pr.id quiet (settle (some true)) s.view s'.view := by
  refine (label_told answers).imp fun _ s' told => ?_
  rw [told.1]
  exact .change fun pr => labelSet_withLabel

theorem unlabel_shift :
    (Approval.unlabel pr).run.Ensures (Store.May repository) s fun _ s' =>
      Shift repository pr.id quiet (settle (some false)) s.view s'.view := by
  refine (unlabel_told answers).imp fun _ s' told => ?_
  rw [told.1]
  exact .change fun pr => labelSet_withoutLabel

/-- A turn and a notice of it: the turn counts even if the notice gets lost. -/
theorem andNotify_shift {turn : Action Unit} {f : Finset String → Finset String} {notice : String}
    (does : turn.run.Ensures (Store.May repository) s fun _ s' =>
      Shift repository pr.id quiet f s.view s'.view) (silent : quiet → Silent notice) :
    (do turn; Approval.notify pr notice : Action Unit).run.Ensures (Store.May repository) s
      fun _ s' => Shift repository pr.id quiet f s.view s'.view := by
  refine ensures_andThen.mpr (does.imp ?_)
  rintro (e | done) s' shift
  · exact shift
  · refine (notify_shift (shift.answers answers) silent).imp fun _ s'' more => ?_
    exact shift.trans more

theorem approve_shift {name : String} (plain : quiet → IsPlain name) :
    (Approval.approve pr name).run.Ensures (Store.May repository) s fun _ s' =>
      Shift repository pr.id quiet (settle (some true)) s.view s'.view :=
  andNotify_shift answers (label_shift answers) fun hush => (plain hush).1

theorem cancel_shift {name : String} (plain : quiet → IsPlain name) :
    (Approval.cancel pr name).run.Ensures (Store.May repository) s fun _ s' =>
      Shift repository pr.id quiet (settle (some false)) s.view s'.view :=
  andNotify_shift answers (unlabel_shift answers) fun hush => (plain hush).2.1

theorem isLabeled_told :
    (Approval.isLabeled pr).run.Ensures (Store.May repository) s fun r s' =>
      s'.view = s.view ∧
      match s.view.pull? repository pr.id with
      | some stored => r = .ok (stored.hasLabel approvedLabel)
      | none => ∃ e, r = .error e := by
  unfold Approval.isLabeled
  refine ensures_andThen.mpr (ensures_asked.mpr fun r s' told => ?_)
  obtain ⟨view, labels⟩ := listLabels_answered answers told
  cases there : s.view.pull? repository pr.id with
  | none =>
    rw [there] at labels
    obtain ⟨e, rfl⟩ := labels
    exact ⟨view, e, rfl⟩
  | some stored =>
    rw [there] at labels
    obtain rfl := labels
    exact ensures_pure.mpr ⟨view, rfl⟩

theorem check_shift {name : String} (plain : quiet → IsPlain name) :
    (Approval.check pr name).run.Ensures (Store.May repository) s fun _ s' =>
      Shift repository pr.id quiet
        (settle (some (verdict (s.view.comments repository pr.id)))) s.view s'.view := by
  unfold Approval.check
  refine ensures_andThen.mpr ((isLabeled_told answers).imp ?_)
  rintro r s₁ ⟨view₁, told⟩
  cases there : s.view.pull? repository pr.id with
  | none =>
    -- The first question fails, and where no pull request is there is no label to place.
    rw [there] at told
    obtain ⟨e, rfl⟩ := told
    rw [view₁]
    exact (Shift.refl _).absent there
  | some stored =>
    rw [there] at told
    obtain rfl := told
    rw [← view₁] at answers there ⊢
    refine ensures_andThen.mpr (ensures_asked.mpr fun r s₂ listed => ?_)
    obtain ⟨rfl, view₂⟩ := listComments_answered answers listed
    rw [← view₂] at answers there ⊢
    unfold verdict
    dsimp only
    cases approvalVerdict (newestFirst (s₂.view.comments repository pr.id)) with
    | true =>
      cases labeled : stored.hasLabel approvedLabel with
      | false => exact approve_shift answers plain
      | true =>
        have same := place_of_mem (mem_labelSet.mpr labeled)
        exact ensures_pure.mpr ((Shift.refl _).known there same.symm)
    | false =>
      cases labeled : stored.hasLabel approvedLabel with
      | true => exact cancel_shift answers plain
      | false =>
        have same := place_of_not_mem (not_mem_labelSet.mpr labeled)
        exact ensures_pure.mpr ((Shift.refl _).known there same.symm)

theorem handleReview_shift {review : Comment} {state : ReviewState}
    (of : review.pullRequest = some pr) (opened : pr.isOpen = true)
    (decides : review.reviewState = some state) (plain : quiet → IsPlain review.author.name) :
    (Approval.handleReview repository review).run.Ensures (Store.May repository) s fun _ s' =>
      Shift repository pr.id quiet
        (settle (if mayApprove s.view repository review.author pr.author then
          some (isApproval state) else none)) s.view s'.view := by
  unfold Approval.handleReview
  rw [of, decides]
  dsimp only
  rw [if_pos opened]
  refine guarded_shift answers plain fun s' view => ?_
  rw [← view] at answers
  cases state with
  | approved => exact approve_shift answers plain
  | unapproved => exact cancel_shift answers plain

theorem handleCommand_shift (subject : Approval.commentedPullRequest? w = some pr)
    (plain : quiet → IsPlain w.sender.name) :
    (Approval.handleCommand repository c w).run.Ensures (Store.May repository) s fun _ s' =>
      Shift repository pr.id quiet
        (settle (if mayApprove s.view repository w.sender pr.author then
          c.demand? (verdict (s.view.comments repository pr.id)) else none)) s.view s'.view := by
  unfold Approval.handleCommand
  rw [subject]
  refine guarded_shift answers plain fun s' view => ?_
  rw [← view] at answers ⊢
  unfold Command.demand?
  cases c.intent? with
  | none =>
    exact notify_shift answers fun _ => silent_of_nil extractCommands_helpNotice
  | some intent =>
    cases intent with
    | approve => exact approve_shift answers plain
    | cancel => exact cancel_shift answers plain
    | check => exact check_shift answers plain

/-- Where the label was moved by someone who may not, it is turned over as it is now. -/
theorem handleLabelEvent_shift (moved : pr.labelChanged.any (·.name == approvedLabel) = true)
    (plain : quiet → IsPlain user.name) :
    (Approval.handleLabelEvent repository pr user).run.Ensures (Store.May repository) s fun _ s' =>
      Shift repository pr.id quiet
        (if mayApprove s.view repository user pr.author then settle none else flip)
        s.view s'.view := by
  unfold Approval.handleLabelEvent
  rw [if_pos moved]
  refine ensures_andThen.mpr ((isLabeled_told answers).imp ?_)
  rintro r s₁ ⟨view₁, told⟩
  cases there : s.view.pull? repository pr.id with
  | none =>
    rw [there] at told
    obtain ⟨e, rfl⟩ := told
    rw [view₁]
    exact (Shift.refl _).absent there
  | some stored =>
    rw [there] at told
    obtain rfl := told
    rw [← view₁] at answers there ⊢
    refine ensures_andThen.mpr ((refusal?_told answers).imp ?_)
    rintro r s₂ ⟨view₂, rfl⟩
    rw [← view₂] at answers there ⊢
    cases mayApprove s₂.view repository user pr.author with
    | true => exact ensures_pure.mpr (.refl _)
    | false =>
      have hush : quiet → Silent (unauthorizedNotice user.name) := fun hush => (plain hush).2.2
      cases labeled : stored.hasLabel approvedLabel with
      | true =>
        have turned := flip_of_mem (mem_labelSet.mpr labeled)
        refine andNotify_shift answers ?_ hush
        exact (unlabel_shift answers).imp fun _ _ shift => shift.known there turned.symm
      | false =>
        have turned := flip_of_not_mem (not_mem_labelSet.mpr labeled)
        refine andNotify_shift answers ?_ hush
        exact (label_shift answers).imp fun _ _ shift => shift.known there turned.symm

end Answered

end Gatehouse.Chat
