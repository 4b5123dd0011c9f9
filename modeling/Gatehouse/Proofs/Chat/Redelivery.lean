import Gatehouse.Proofs.Chat.Handling

/-!
# Events that are delivered again

Handling an event again, after a first time that may have lost its comments, leaves the labels as
handling it once does, since setting a label is idempotent and what the comments say has not changed.
The exception is a label event of someone who may not approve: the plugin turns the label over as it
finds it, so a second delivery undoes the first.
-/

namespace Gatehouse.Chat

open Git Program

/-- Someone moved the label of a stored pull request who may not, so the label is turned over. -/
def Overturned (v : View) (repository : String) (w : Webhook) : Prop :=
  v.Answers repository ∧ w.eventType = .pullRequestChanged ∧
    ∃ pr, subject? w = some pr ∧ v.pull? repository pr.id ≠ none ∧
      mayApprove v repository (actor w) pr.author = false

variable {s s₀ s₁ s₂ : Store} {v v' : View} {repository : String} {w : Webhook} {pr : PullRequest}

theorem decided_congr {cs : List Command} (unasked : ∀ c ∈ cs, c.intent? ≠ some .check)
    (found found' : Bool) : decided found cs = decided found' cs := by
  induction cs with
  | nil => rfl
  | cons c cs ih =>
    have demanded := Command.demand?_congr (unasked c (List.mem_cons_self ..)) found found'
    rw [decided, decided, demanded, ih fun d member => unasked d (List.mem_cons_of_mem _ member)]

theorem wish?_congr (unasked : ¬ AsksCheck w) (found found' : Bool) :
    wish? found w = wish? found' w := by
  unfold wish?
  cases w.eventType with
  | commentCreated =>
    exact decided_congr (fun c member check => unasked ⟨c, member, check⟩) found found'
  | _ => rfl

theorem turn_congr (rights : v'.rights = v.rights)
    (heard : AsksCheck w →
      verdict (v'.comments repository pr.id) = verdict (v.comments repository pr.id)) :
    turn v' repository w pr = turn v repository w pr := by
  have wished : wish? (verdict (v'.comments repository pr.id)) w =
      wish? (verdict (v.comments repository pr.id)) w := by
    by_cases asked : AsksCheck w
    · rw [heard asked]
    · exact wish?_congr asked _ _
  rw [turn, turn, mayApprove_congr rights, wished]

/-- A turn sets the label, or it turns over what someone did who may not. -/
theorem turn_cases (v : View) (repository : String) (w : Webhook) (pr : PullRequest) :
    (∃ wish, turn v repository w pr = settle wish ∧
      ¬ (w.eventType = .pullRequestChanged ∧ mayApprove v repository (actor w) pr.author = false)) ∨
    (turn v repository w pr = flip ∧ w.eventType = .pullRequestChanged ∧
      mayApprove v repository (actor w) pr.author = false) := by
  unfold turn
  by_cases moved : w.eventType = .pullRequestChanged
  · rw [if_pos moved]
    cases may : mayApprove v repository (actor w) pr.author with
    | true => exact .inl ⟨none, rfl, by simp⟩
    | false => exact .inr ⟨rfl, moved, rfl⟩
  · rw [if_neg moved]
    exact .inl ⟨_, rfl, fun both => moved both.1⟩

theorem overturned_iff (answers : v.Answers repository) (subject : subject? w = some pr) :
    Overturned v repository w ↔ w.eventType = .pullRequestChanged ∧
      v.pull? repository pr.id ≠ none ∧ mayApprove v repository (actor w) pr.author = false := by
  constructor
  · rintro ⟨-, moved, pr', about, stored, refused⟩
    obtain rfl : pr = pr' := Option.some.inj (subject.symm.trans about)
    exact ⟨moved, stored, refused⟩
  · rintro ⟨moved, stored, refused⟩
    exact ⟨answers, moved, pr, subject, stored, refused⟩

theorem turned_twice (answers : v.Answers repository) (subject : subject? w = some pr) :
    relabel repository pr.id (turn v repository w pr ∘ turn v repository w pr) v.labels =
      relabel repository pr.id (turn v repository w pr) v.labels ↔ ¬ Overturned v repository w := by
  rw [overturned_iff answers subject]
  rcases turn_cases v repository w pr with ⟨wish, sets, entitled⟩ | ⟨turns, moved, refused⟩
  · rw [sets, iff_true_right fun both => entitled ⟨both.1, both.2.2⟩]
    exact relabel_congr fun set _ => settle_settle wish set
  · rw [turns]
    cases there : v.pull? repository pr.id with
    | none =>
      rw [iff_true_right fun both => both.2.1 rfl]
      exact relabel_congr fun set found => by simp [View.labels, there] at found
    | some stored =>
      rw [iff_false_right (not_not_intro ⟨moved, Option.some_ne_none stored, refused⟩)]
      have turned : relabel repository pr.id flip v.labels repository pr.id =
          some (flip stored.labelSet) := by
        simp [relabel_self, View.labels, there]
      rw [← relabel_relabel]
      exact relabel_flip_ne turned

/-- However often comments get lost: the labels after a second delivery are those after one delivery
exactly if the event was not overturned. An event that asks for a check has to come from someone whose
name cannot be taken for a command where a notice names them. -/
theorem redelivered_labels (plain : AsksCheck w → IsPlain (actor w).name)
    (once : Handled repository w s s₀) (first : Handled repository w s s₁)
    (again : Handled repository w s₁ s₂) :
    s₂.view.labels = s₀.view.labels ↔ ¬ Overturned s.view repository w := by
  by_cases answers : s.view.Answers repository
  · cases subject : subject? w with
    | none =>
      have same : s₂ = s₀ := by
        rw [handled_aside again subject, handled_aside first subject, handled_aside once subject]
      have left : ¬ Overturned s.view repository w := by
        rintro ⟨-, -, pr, about, -⟩
        rw [subject] at about
        cases about
      simp [same, left]
    | some pr =>
      have shift₀ := handled_shift once answers subject plain
      have shift₁ := handled_shift first answers subject plain
      have shift₂ := handled_shift again (shift₁.answers answers) subject plain
      have same : turn s₁.view repository w pr = turn s.view repository w pr :=
        turn_congr shift₁.rights fun asked => shift₁.heard (plain asked)
      rw [same] at shift₂
      rw [(shift₁.trans shift₂).labels, shift₀.labels]
      exact turned_twice answers subject
  · have same : s₂ = s₀ := by
      obtain rfl : s₁ = s := handled_shut first answers
      rw [handled_shut again answers, handled_shut once answers]
    have left : ¬ Overturned s.view repository w := fun turned => answers turned.1
    simp [same, left]

/-- How a store answers while no comment gets through. -/
def answerCutOff (now : Instant) (repository : String) (q : Query) (s : Store) : q.Outcome × Store :=
  match q with
  | .registerComment _ _ _ => (.error (.request "connection reset"), s)
  | q => s.answer now repository q

def deliverCutOff (now : Instant) (repository : String) (w : Webhook) (s : Store) : Store :=
  (Program.run (answerCutOff now repository) ((defaultDispatcher repository).dispatch w) s).2

theorem handled_deliverCutOff (now : Instant) (repository : String) (w : Webhook) (s : Store) :
    Handled repository w s (deliverCutOff now repository w s) := by
  refine handled_run fun q s => ?_
  cases q with
  | registerComment => exact .inr ⟨rfl, ⟨_, rfl⟩, rfl⟩
  | _ => exact .inl ⟨now, rfl⟩

def bobApproves : Webhook where
  eventType := .reviewChanged
  repo := { name := "org/repo", url := "" }
  sender := { id := 2, name := "bob" }
  comment := some { remark "" with reviewState := some .approved }

/-- The approval gets through at once, the comment only with the second delivery. -/
theorem redelivered_labels_review :
    (deliverCutOff default "org/repo" bobApproves (desk [] [])).view.labels "org/repo" 42 =
      some {approvedLabel} ∧
    (deliver default "org/repo" bobApproves
      (deliverCutOff default "org/repo" bobApproves (desk [] []))).view.labels =
    (deliver default "org/repo" bobApproves (desk [] [])).view.labels := by
  refine ⟨by decide, ?_⟩
  refine (redelivered_labels ?_ (handled_deliver ..) (handled_deliverCutOff ..)
    (handled_deliver ..)).mpr ?_
  · rintro ⟨c, member, -⟩
    rw [approvalCommands_nil (by decide)] at member
    cases member
  · rintro ⟨-, moved, -⟩
    cases moved

/-- The first delivery takes the label off again, the second puts it back on. -/
theorem overturned_twice :
    (deliver default "org/repo" malloryLabels (desk [⟨approvedLabel⟩] [])).view.labels "org/repo"
      42 = some ∅ ∧
    (deliver default "org/repo" malloryLabels
      (deliver default "org/repo" malloryLabels (desk [⟨approvedLabel⟩] []))).view.labels "org/repo"
      42 = some {approvedLabel} := by
  decide

end Gatehouse.Chat
