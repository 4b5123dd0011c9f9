import Gatehouse.Proofs.Chat.Handling

/-!
# Who has influence on a check

A check places the label as all comments say, whoever wrote them. So of two histories that differ only
in what users wrote who may not approve, a check makes the same of the label as long as the comments
that decide are by users who may (`check_unmoved`). It does not where the author of a pull request
has the last word.
-/

namespace Gatehouse.Chat

open Git Program

/-- Someone who may approve asks to check an open pull request, and for nothing else. -/
structure AskedToCheck (v : View) (repository : String) (w : Webhook) (pr : PullRequest) : Prop where
  type : w.eventType = .commentCreated
  subject : Approval.commentedPullRequest? w = some pr
  stored : v.pull? repository pr.id ≠ none
  entitled : mayApprove v repository w.sender pr.author = true
  asks : ∃ c, approvalCommands w = [c] ∧ c.intent? = some .check

def isTrusted (v : View) (repository : String) (pr : PullRequest) (c : Comment) : Bool :=
  mayApprove v repository c.author pr.author

/-- The comment that decides is by someone who may approve. -/
def Heeded (v : View) (repository : String) (pr : PullRequest) (cs : List Comment) : Prop :=
  ∀ c, ((newestFirst cs).find? fun c => (signal? c).isSome) = some c →
    isTrusted v repository pr c = true

variable {v : View} {s s' s₁ s₁' s₂ s₂' : Store} {repository : String} {w : Webhook}
  {pr : PullRequest} {cs : List Comment}

theorem AskedToCheck.transfer (asked : AskedToCheck s₁.view repository w pr)
    (rights : s₂.view.rights = s₁.view.rights) (labels : s₂.view.labels = s₁.view.labels) :
    AskedToCheck s₂.view repository w pr where
  type := asked.type
  subject := asked.subject
  stored := by
    have here := congrFun (congrFun labels repository) pr.id
    intro absent
    rw [View.labels, View.labels, absent, Option.map_none, eq_comm, Option.map_eq_none_iff] at here
    exact asked.stored here
  entitled := (mayApprove_congr rights).trans asked.entitled
  asks := asked.asks

/-- A check places the label as the comments say that are there when it is asked for. -/
theorem checked_labels (asked : AskedToCheck s.view repository w pr)
    (answers : s.view.Answers repository) (handled : Handled repository w s s') :
    s'.view.labels = relabel repository pr.id
      (place (verdict (s.view.comments repository pr.id))) s.view.labels := by
  obtain ⟨es, o, path, follows⟩ := handled
  obtain ⟨c, only, check⟩ := asked.asks
  have ensured : ((defaultDispatcher repository).dispatch w).Ensures (Store.May repository) s
      fun _ s' => Shift repository pr.id False
        (settle (some (verdict (s.view.comments repository pr.id)))) s.view s'.view := by
    rw [ensures_dispatch, handle_comment asked.type, only]
    refine ensures_pure.mpr (ensures_runAll_cons.mpr ?_)
    -- No command comes later, so it does not matter whether the notice is quiet.
    refine (handleCommand_shift answers asked.subject False.elim).imp fun _ s' shift => ?_
    rw [asked.entitled, if_pos rfl, Command.demand?, check] at shift
    exact ensures_done.mpr shift
  exact (ensures_iff.mp ensured es o s' path follows).labels

theorem relabel_place_inj {on on' : Bool} (stored : v.pull? repository pr.id ≠ none) :
    relabel repository pr.id (place on) v.labels = relabel repository pr.id (place on') v.labels ↔
      on = on' := by
  constructor
  · intro same
    obtain ⟨stored, there⟩ := Option.ne_none_iff_exists'.mp stored
    have here := congrFun (congrFun same repository) pr.id
    rw [relabel_self, relabel_self, View.labels, there] at here
    have placed := congrArg (approvedLabel ∈ ·) (Option.some.inj here)
    rw [eq_iff_iff, mem_place, mem_place, ← Bool.eq_iff_iff] at placed
    exact placed
  · rintro rfl
    rfl

/-- Two stores show the same but for what is written under the pull request. If the repository
answers, a check leaves them with the same labels exactly if both histories lead to one verdict. In
any case it does if they differ only in what users wrote who may not approve, as long as no such
comment decides. -/
theorem check_unmoved (asked : AskedToCheck s₁.view repository w pr)
    (rights : s₂.view.rights = s₁.view.rights) (labels : s₂.view.labels = s₁.view.labels)
    (handled₁ : Handled repository w s₁ s₁') (handled₂ : Handled repository w s₂ s₂') :
    (s₁.view.Answers repository → (s₂'.view.labels = s₁'.view.labels ↔
      verdict (s₂.view.comments repository pr.id) =
        verdict (s₁.view.comments repository pr.id))) ∧
    ((s₂.view.comments repository pr.id).filter (isTrusted s₁.view repository pr) =
        (s₁.view.comments repository pr.id).filter (isTrusted s₁.view repository pr) →
      Heeded s₁.view repository pr (s₁.view.comments repository pr.id) →
      Heeded s₁.view repository pr (s₂.view.comments repository pr.id) →
      s₂'.view.labels = s₁'.view.labels) := by
  have both : s₂.view.Answers repository ↔ s₁.view.Answers repository := by
    rw [View.Answers, View.Answers, rights]
  have iff (answers : s₁.view.Answers repository) : s₂'.view.labels = s₁'.view.labels ↔
      verdict (s₂.view.comments repository pr.id) =
        verdict (s₁.view.comments repository pr.id) := by
    rw [checked_labels asked answers handled₁,
      checked_labels (asked.transfer rights labels) (both.mpr answers) handled₂, labels]
    exact relabel_place_inj asked.stored
  refine ⟨iff, ?_⟩
  intro same heeded₁ heeded₂
  by_cases answers : s₁.view.Answers repository
  · rw [iff answers, ← verdict_of_heeded heeded₁, ← verdict_of_heeded heeded₂, same]
  · rw [handled_shut handled₁ answers, handled_shut handled₂ fun open₂ => answers (both.mp open₂),
      labels]

theorem asked_remarked (cs : List Comment) :
    AskedToCheck (desk [] cs).view "org/repo" (remarked "/approve check") bugFix where
  type := rfl
  subject := rfl
  stored := by simp [desk_pull?, bugFix]
  entitled := rfl
  asks := ⟨⟨"approve", ["check"]⟩, by decide, by decide⟩

def aliceWrites (body : String) : Comment where
  id := 101
  body
  author := bugFix.author
  createdAt := default

theorem newestFirst_alice (body : String) :
    newestFirst [remark "/approve", aliceWrites body] = [aliceWrites body, remark "/approve"] := by
  have newest : ∀ b ∈ [remark "/approve"], (aliceWrites body).newer b := by
    intro b member
    obtain rfl := List.mem_singleton.mp member
    simp [Comment.newer, Comment.notOlder, aliceWrites, remark]
  have first := newestFirst_newest newest
  rwa [newestFirst_single] at first

theorem check_unmoved_thanks :
    (deliver default "org/repo" (remarked "/approve check")
      (desk [] [remark "/approve", aliceWrites "thanks!"])).view.labels =
    (deliver default "org/repo" (remarked "/approve check")
      (desk [] [remark "/approve"])).view.labels := by
  have voted : signal? (remark "/approve") = some true := by decide
  have silent : signal? (aliceWrites "thanks!") = none := by decide
  have rights := (desk_rights [] [remark "/approve", aliceWrites "thanks!"]).trans
    (desk_rights [] [remark "/approve"]).symm
  have labels : (desk [] [remark "/approve", aliceWrites "thanks!"]).view.labels =
      (desk [] [remark "/approve"]).view.labels := by
    unfold View.labels
    rw [desk_pull?, desk_pull?]
  refine (check_unmoved (asked_remarked _) rights labels (handled_deliver ..)
    (handled_deliver ..)).2 ?_ ?_ ?_
  · decide
  · intro c found
    change (newestFirst [remark "/approve"]).find? _ = some c at found
    obtain rfl : remark "/approve" = c := by simpa [voted] using found
    decide
  · intro c found
    change (newestFirst [remark "/approve", aliceWrites "thanks!"]).find? _ = some c at found
    rw [newestFirst_alice] at found
    obtain rfl : remark "/approve" = c := by simpa [voted, silent] using found
    decide

/-- Alice's own approval, which was refused when she wrote it, counts when bob asks for a check. -/
theorem refused_approval_counts :
    isTrusted (desk [] []).view "org/repo" bugFix (aliceWrites "/approve") = false ∧
    (deliver default "org/repo" (remarked "/approve check") (desk [] [])).view.labels "org/repo" 42 =
      some ∅ ∧
    (deliver default "org/repo" (remarked "/approve check")
      (desk [] [aliceWrites "/approve"])).view.labels "org/repo" 42 = some {approvedLabel} := by
  have silence : verdict [] = false := by
    rw [verdict, newestFirst_nil]
    rfl
  have own : verdict [aliceWrites "/approve"] = true := by
    rw [verdict, newestFirst_single]
    decide
  refine ⟨by decide, ?_, ?_⟩
  · rw [checked_labels (asked_remarked []) (desk_answers ..) (handled_deliver ..)]
    change relabel _ _ (place (verdict [])) _ _ _ = _
    rw [silence]
    decide
  · rw [checked_labels (asked_remarked [aliceWrites "/approve"]) (desk_answers ..)
      (handled_deliver ..)]
    change relabel _ _ (place (verdict [aliceWrites "/approve"])) _ _ _ = _
    rw [own]
    decide

end Gatehouse.Chat
