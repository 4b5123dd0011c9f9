import Gatehouse.Proofs.Chat.Notices
import Gatehouse.Proofs.Git.NewestFirst

/-!
# What a history says

The verdict on a history is what its newest comment that says anything says. So comments that say
nothing can come and go (`verdict_append_silent`), the newest comment has its say first (`verdict_newest`),
and a choice of comments says the same as all of them if it has the one that counts
(`verdict_of_heeded`). Notices say nothing as long as they name plain people (`plain_of_oneLine`).
-/

namespace Gatehouse.Chat

open Git

variable {c : Comment} {cs new : List Comment} {keep : Comment → Bool}

/-- The entry has a review state, or a command that approves or cancels. -/
def Decisive (entry : Comment) : Prop :=
  entry.reviewState ≠ none ∨ ∃ c ∈ extractCommands entry.body, c.vote? ≠ none

theorem decisive_iff : Decisive c ↔ signal? c ≠ none := by
  unfold Decisive signal?
  cases c.reviewState with
  | some state => cases state <;> simp
  | none => simp [List.findSome?_eq_none_iff]

/-- What the comments under a pull request say about approval, in whatever order they are kept. -/
def verdict (cs : List Comment) : Bool := approvalVerdict (newestFirst cs)

theorem approvalVerdict_cons :
    approvalVerdict (c :: cs) = (signal? c).getD (approvalVerdict cs) := by
  unfold approvalVerdict
  rw [List.findSome?_cons]
  cases signal? c <;> rfl

theorem approvalVerdict_filter
    (heeded : ∀ c, (cs.find? fun c => (signal? c).isSome) = some c → keep c = true) :
    approvalVerdict (cs.filter keep) = approvalVerdict cs := by
  induction cs with
  | nil => rfl
  | cons c cs ih =>
    cases said : signal? c with
    | none =>
      have later := ih fun d found => heeded d (by simpa [said] using found)
      by_cases kept : keep c = true
      · rw [List.filter_cons_of_pos kept, approvalVerdict_cons, approvalVerdict_cons, later]
      · rw [List.filter_cons_of_neg kept, approvalVerdict_cons, later, said]
        rfl
    | some vote =>
      have kept : keep c = true := heeded c (by simp [said])
      rw [List.filter_cons_of_pos kept, approvalVerdict_cons, approvalVerdict_cons, said]
      rfl

/-- A choice of comments says what all of them say if it has the one that decides. -/
theorem verdict_of_heeded
    (heeded : ∀ c, ((newestFirst cs).find? fun c => (signal? c).isSome) = some c →
      keep c = true) : verdict (cs.filter keep) = verdict cs := by
  rw [verdict, ← filter_newestFirst]
  exact approvalVerdict_filter heeded

theorem verdict_append_silent (silent : ∀ c ∈ new, signal? c = none) :
    verdict (cs ++ new) = verdict cs := by
  have heard (cs : List Comment) : verdict (cs.filter fun c => (signal? c).isSome) = verdict cs :=
    verdict_of_heeded fun c found => by simpa using List.find?_some found
  have unheard : new.filter (fun c => (signal? c).isSome) = [] := by
    rw [List.filter_eq_nil_iff]
    intro c member
    simp [silent c member]
  rw [← heard (cs ++ new), List.filter_append, unheard, List.append_nil, heard cs]

theorem verdict_newest (newest : ∀ b ∈ cs, c.newer b) :
    verdict (cs ++ [c]) = approvalVerdict (c :: newestFirst cs) := by
  rw [verdict, newestFirst_newest newest]

/-- A text that says nothing about approval. -/
def Silent (text : String) : Prop := (extractCommands text).findSome? Command.vote? = none

instance (text : String) : Decidable (Silent text) :=
  inferInstanceAs (Decidable (_ = none))

theorem signal?_silent (silent : Silent c.body) (plain : c.reviewState = none) :
    signal? c = none := by
  rw [signal?, plain]
  exact silent

/-- A user whose name cannot be taken for a vote where a notice names them. -/
def IsPlain (user : String) : Prop :=
  Silent (approvedNotice user) ∧ Silent (canceledNotice user) ∧ Silent (unauthorizedNotice user)

instance (user : String) : Decidable (IsPlain user) := instDecidableAnd

theorem silent_of_nil {text : String} (none : extractCommands text = []) : Silent text := by
  rw [Silent, none]
  rfl

theorem plain_of_oneLine {user : String} (whole : OneLine user.toList) : IsPlain user :=
  ⟨silent_of_nil (extractCommands_approvedNotice whole),
    silent_of_nil (extractCommands_canceledNotice whole),
    silent_of_nil (extractCommands_unauthorizedNotice whole)⟩

set_option maxRecDepth 20000 in
example : ¬ IsPlain "bob\n/approve cancel\n" := by decide

end Gatehouse.Chat
