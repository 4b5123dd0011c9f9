import Gatehouse.Proofs.Chat.Handling

/-!
# Live handling and the verdict

A new comment or review is read twice: when its event is handled, every command of it is run in order,
so the last one counts; when a verdict is found later, its review state or else its first vote counts.
Both come to the same if the last word of the event is the first word of the entry (`Concordant`).
Otherwise a comment of several commands leaves the label just where the verdict does not want it.
-/

namespace Gatehouse.Chat

open Git

variable {v : View} {repository : String} {w : Webhook} {pr : PullRequest} {entry : Comment}
  {history : List Comment} {c : Command} {commands : List Command} {recorded found : Bool}
  {s s' : Store}

def HasCheck (entry : Comment) : Prop := ∃ c ∈ extractCommands entry.body, c.intent? = some .check

def Labeled (v : View) (repository : String) (id : Int) : Prop :=
  ∃ set, v.labels repository id = some set ∧ approvedLabel ∈ set

/-- What an event says last is what its entry says first: a review has to have a state, a comment must
not have one, and its last demand has to be its first vote. -/
def Concordant (found : Bool) (w : Webhook) (entry : Comment) : Prop :=
  match w.eventType with
  | .reviewChanged => entry.reviewState ≠ none
  | _ => entry.reviewState = none ∧
      decided found (extractCommands entry.body) =
        (extractCommands entry.body).findSome? Command.vote?

/-- What is known about the comments while the event is handled: the new entry may be among them. -/
def onRecord (recorded : Bool) (entry : Comment) (history : List Comment) : List Comment :=
  if recorded then entry :: newestFirst history else newestFirst history

/-- An authorized user wrote a new entry under an open pull request, after all comments there were. -/
structure NewEntry (v : View) (repository : String) (w : Webhook) (pr : PullRequest)
    (entry : Comment) (history : List Comment) (recorded : Bool) : Prop where
  answers : v.Answers repository
  type : w.eventType = .reviewChanged ∨ w.eventType = .commentCreated
  here : w.comment = some entry
  of : entry.pullRequest = some pr
  opened : pr.isOpen = true
  stored : v.pull? repository pr.id ≠ none
  entitled : mayApprove v repository (actor w) pr.author = true
  newest : ∀ b ∈ history, entry.newer b
  comments : v.comments repository pr.id = if recorded then history ++ [entry] else history

theorem decided_filter :
    decided found (commands.filter fun c => approveCommands.contains c.name) =
      decided found commands := by
  induction commands with
  | nil => rfl
  | cons c rest ih =>
    by_cases named : approveCommands.contains c.name = true
    · rw [List.filter_cons, if_pos named, decided, decided, ih]
    · have mute : c.demand? found = none := by
        rw [Command.demand?, Command.intent?, if_neg named, Option.map_none]
      rw [List.filter_cons, if_neg named, decided, mute, ih]
      cases decided found rest <;> rfl

theorem demand?_eq_none :
    c.demand? found = none ↔ c.vote? = none ∧ c.intent? ≠ some .check := by
  unfold Command.demand? Command.vote?
  cases c.intent? with
  | none => simp
  | some intent => cases intent <;> simp

theorem decided_eq_none :
    decided found commands = none ↔ ∀ c ∈ commands, c.demand? found = none := by
  induction commands with
  | nil => simp [decided]
  | cons c rest ih =>
    rw [List.forall_mem_cons, ← ih, decided]
    cases decided found rest <;> simp

namespace NewEntry

variable (new : NewEntry v repository w pr entry history recorded)

include new

theorem subject : subject? w = some pr := by
  rw [subject?_commented new.type]
  exact commentedPullRequest?_eq_some.mpr ⟨entry, new.here, new.of, new.opened⟩

theorem verdict_eq :
    verdict (v.comments repository pr.id) = approvalVerdict (onRecord recorded entry history) := by
  rw [new.comments]
  cases recorded with
  | true => exact verdict_newest new.newest
  | false => rfl

theorem wish?_commands (type : w.eventType = .commentCreated) :
    wish? found w = decided found (extractCommands entry.body) := by
  rw [wish?_comment type, approvalCommands, decided_filter, Dispatcher.commandsOf, if_pos type,
    new.here]

theorem turn_eq :
    turn v repository w pr =
      settle (wish? (approvalVerdict (onRecord recorded entry history)) w) := by
  have unmoved : w.eventType ≠ .pullRequestChanged := by
    rcases new.type with type | type
    · rw [type]; decide
    · rw [type]; decide
  rw [turn, if_neg unmoved, if_pos new.entitled, new.verdict_eq]

theorem wish?_of_concordant (concordant : Concordant found w entry) :
    wish? found w = signal? entry := by
  rcases new.type with type | type
  · rw [Concordant, type] at concordant
    rw [wish?_review type new.here, signal?]
    cases state : entry.reviewState with
    | none => exact absurd state concordant
    | some decision => cases decision <;> rfl
  · rw [Concordant, type] at concordant
    rw [new.wish?_commands type, signal?, concordant.1]
    exact concordant.2

theorem wish?_of_discordant (type : w.eventType = .commentCreated)
    (stateless : entry.reviewState = none) (decisive : Decisive entry)
    (discordant : ¬ Concordant found w entry) :
    wish? found w = (signal? entry).map not := by
  rw [Concordant, type] at discordant
  have differ : decided found (extractCommands entry.body) ≠
      (extractCommands entry.body).findSome? Command.vote? :=
    fun same => discordant ⟨stateless, same⟩
  have voted : signal? entry = (extractCommands entry.body).findSome? Command.vote? := by
    rw [signal?, stateless]
  have demanded : decided found (extractCommands entry.body) ≠ none := by
    intro none
    rcases decisive with state | ⟨c, member, vote⟩
    · exact state stateless
    · exact vote (demand?_eq_none.mp (decided_eq_none.mp none c member)).1
  rw [new.wish?_commands type, voted]
  rw [decisive_iff, voted] at decisive
  revert differ demanded decisive
  cases decided found (extractCommands entry.body) with
  | none => simp
  | some last =>
    cases (extractCommands entry.body).findSome? Command.vote? with
    | none => simp
    | some first => cases last <;> cases first <;> simp

theorem wish?_of_indecisive (indecisive : ¬ Decisive entry) (unasked : ¬ HasCheck entry) :
    wish? found w = none := by
  have stateless : entry.reviewState = none := by
    by_contra state
    exact indecisive (.inl state)
  have voteless : ∀ c ∈ extractCommands entry.body, c.vote? = none := by
    intro c member
    by_contra vote
    exact indecisive (.inr ⟨c, member, vote⟩)
  rcases new.type with type | type
  · rw [wish?_review type new.here, stateless, Option.map_none]
  · rw [new.wish?_commands type, decided_eq_none]
    intro c member
    exact demand?_eq_none.mpr ⟨voteless c member, fun check => unasked ⟨c, member, check⟩⟩

end NewEntry

theorem labeled_settled {v' : View} {id : Int} {on : Bool} (stored : v.pull? repository id ≠ none)
    (settled : v'.labels = relabel repository id (settle (some on)) v.labels) :
    Labeled v' repository id ↔ on = true := by
  obtain ⟨pr, there⟩ := Option.ne_none_iff_exists'.mp stored
  have here : v'.labels repository id = some (place on pr.labelSet) := by
    rw [settled, relabel_self, View.labels, there]
    rfl
  unfold Labeled
  rw [here]
  simp [mem_place]

/-- If the last word of an event is the first word of its entry, then handling it leaves the label as
the verdict wants it. A comment of several commands with another last demand leaves it as the verdict
does not want it. An entry that is not decisive and asks for no check leaves all labels alone. -/
theorem live_agrees (new : NewEntry s.view repository w pr entry history recorded)
    (plain : AsksCheck w → IsPlain (actor w).name) (handled : Handled repository w s s') :
    (Decisive entry → Concordant (approvalVerdict (onRecord recorded entry history)) w entry →
      (Labeled s'.view repository pr.id ↔
        approvalVerdict (entry :: newestFirst history) = true)) ∧
    (Decisive entry → ¬ Concordant (approvalVerdict (onRecord recorded entry history)) w entry →
      w.eventType = .commentCreated → entry.reviewState = none →
      (Labeled s'.view repository pr.id ↔
        approvalVerdict (entry :: newestFirst history) = false)) ∧
    (w.eventType = .reviewChanged → entry.reviewState = none → s'.view.labels = s.view.labels) ∧
    (¬ Decisive entry → ¬ HasCheck entry → s'.view.labels = s.view.labels) := by
  have settled := (handled_shift handled new.answers new.subject plain).labels
  rw [new.turn_eq] at settled
  refine ⟨?_, ?_, ?_, ?_⟩
  · intro decisive concordant
    obtain ⟨vote, signal⟩ := Option.ne_none_iff_exists'.mp (decisive_iff.mp decisive)
    rw [new.wish?_of_concordant concordant, signal] at settled
    rw [labeled_settled new.stored settled, approvalVerdict_cons, signal, Option.getD_some]
  · intro decisive discordant type stateless
    obtain ⟨vote, signal⟩ := Option.ne_none_iff_exists'.mp (decisive_iff.mp decisive)
    rw [new.wish?_of_discordant type stateless decisive discordant, signal] at settled
    rw [labeled_settled new.stored settled, approvalVerdict_cons, signal, Option.getD_some,
      Bool.not_eq_true']
  · intro type stateless
    rw [wish?_review type new.here, stateless, Option.map_none] at settled
    rw [settled]
    exact relabel_keep
  · intro indecisive unasked
    rw [new.wish?_of_indecisive indecisive unasked] at settled
    rw [settled]
    exact relabel_keep

theorem new_remark (labels : List Label) (body : String) :
    NewEntry (desk labels []).view "org/repo" (remarked body) bugFix (remark body) [] false where
  answers := desk_answers labels []
  type := .inr rfl
  here := rfl
  of := rfl
  opened := rfl
  stored := by simp [desk, Store.view, Table.get?, Table.findIn, bugFix]
  entitled := rfl
  newest b member := by cases member
  comments := rfl

theorem live_agrees_approve :
    Labeled (deliver default "org/repo" (remarked "/approve") (desk [] [])).view "org/repo" 42 ∧
    approvalVerdict (remark "/approve" :: newestFirst []) = true := by
  have plain : IsPlain "bob" := plain_of_oneLine (by simp [OneLine])
  have approved : approvalVerdict (remark "/approve" :: newestFirst []) = true := by
    rw [approvalVerdict_cons]
    decide
  refine ⟨?_, approved⟩
  refine ((live_agrees (new_remark [] "/approve") (fun _ => plain)
    (handled_deliver default ..)).1 ?_ ?_).mpr approved
  · exact decisive_iff.mpr (by decide)
  · exact ⟨rfl, by decide⟩

/-- The first command withdraws the approval and the second gives it. -/
theorem last_command_wins :
    NewEntry (desk [] []).view "org/repo" (remarked "/approve cancel\n/approve") bugFix
      (remark "/approve cancel\n/approve") [] false ∧
    Decisive (remark "/approve cancel\n/approve") ∧
    Labeled (deliver default "org/repo" (remarked "/approve cancel\n/approve") (desk [] [])).view
      "org/repo" 42 ∧
    approvalVerdict (remark "/approve cancel\n/approve" :: newestFirst []) = false := by
  refine ⟨new_remark .., decisive_iff.mpr (by decide), ⟨{approvedLabel}, by decide, by decide⟩, ?_⟩
  rw [approvalVerdict_cons]
  decide

end Gatehouse.Chat
