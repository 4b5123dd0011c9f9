import Gatehouse.Github.Client
import Gatehouse.Proofs.Http.Answer
import Gatehouse.Proofs.Http.Endpoint
import Gatehouse.Proofs.Text.Integers
import Gatehouse.Proofs.Text.Occurrences

/-!
# Deleting a label that is not there

The error of a deletion tells of the request and of the answer's body in one text, and the client looks in
it for the words that GitHub has for a missing label. Nothing but the body can have these words in it, as
there are blanks in the words and none in a URL, however the label is written (`marked_iff`). So
only an answer without such a label, and success, pass for success (`missing_label_forgiven`).
-/

namespace Gatehouse.Github

open Git Http Text

variable {c : Client} {now id : Int} {label : String} {p p' : Peer} {r : Response}
  {repository : String} {apiUrl token secret : Option String}

/-- The URL of a label of an issue. -/
def labelUrl (c : Client) (id : Int) (label : String) : String :=
  c.repoUrl ("/issues/" ++ toString id ++ "/labels/" ++ urlComponent label)

/-- The answer tells of success, or of a missing label. -/
def Forgiven (now : Int) (r : Response) : Prop :=
  (200 ≤ r.status ∧ r.status < 300) ∨
    (r.status = 404 ∧ rateLimitReset? now r = .ok none ∧ missingLabelMessage.toList <:+: r.body.toList)

/-! Where the words can be. -/

theorem missingLabelMessage_eq :
    missingLabelMessage.toList = "Label".toList ++ ' ' :: "does not exist".toList := rfl

/-- The words are in a report if they are in the body. -/
theorem marked_iff {url : String} (solid : ' ' ∉ url.toList) :
    missingLabelMessage.toList <:+: (report .delete url r).toList ↔
      missingLabelMessage.toList <:+: r.body.toList := by
  have parts : (report .delete url r).toList =
      "[DELETE]".toList ++ ' ' :: (url.toList ++ [':'] ++ ' ' :: r.body.toList) := by
    simp [report, Method.name]
  have plain : ' ' ∉ url.toList ++ [':'] := by simp [solid]
  -- The first word is behind neither of the two blanks before the body.
  have other : ¬ "Label".toList <:+ url.toList ++ [':'] := by
    intro ends
    have last := List.IsSuffix.getLast ends (by decide)
    simp at last
  rw [parts, missingLabelMessage_eq, infix_past (by decide) (by decide) (by decide),
    infix_past (by decide) plain other]

/-- What a deletion makes of the outcome of its request. -/
def forgive : Except Error Response → Except Error Unit
  | .ok _ => .ok ()
  | .error (.notFound text) =>
    if contains missingLabelMessage.toList text.toList then .ok () else .error (.notFound text)
  | .error e => .error e

theorem deleteLabel_sent {o : Except Error Response}
    (sent : send c.headers now .delete (labelUrl c id label) none p = (o, p')) :
    c.deleteLabel now id label p = (forgive o, p') := by
  have tried : Http.attempt (c.post now .delete
      ("/issues/" ++ toString id ++ "/labels/" ++ urlComponent label) none) p =
        (.ok (o.map fun _ => ()), p') := by
    have posted : c.post now .delete
        ("/issues/" ++ toString id ++ "/labels/" ++ urlComponent label) none p =
          (o.map fun _ => (), p') := by
      cases o with
      | ok r => exact run_andThen_ok sent
      | error e => exact run_andThen_error sent
    unfold Http.attempt
    rw [posted]
  refine (run_andThen_ok tried).trans ?_
  cases o with
  | ok r => rfl
  | error e =>
    cases e with
    | notFound text =>
      unfold forgive
      dsimp only [Except.map]
      split
      · rfl
      · rfl
    | _ => rfl

theorem forgive_marked {text : String} (marked : missingLabelMessage.toList <:+: text.toList) :
    forgive (.error (.notFound text)) = .ok () :=
  if_pos (contains_iff.mpr marked)

theorem forgive_unmarked {text : String} (bare : ¬ missingLabelMessage.toList <:+: text.toList) :
    forgive (.error (.notFound text)) = .error (.notFound text) :=
  if_neg (mt contains_iff.mp bare)

/-- An answer that tells of success or of a missing label passes for success, and any other one for the
error that it tells of. -/
theorem deleteLabel_answered (now : Int) (solid : ' ' ∉ (labelUrl c id label).toList)
    (answered : Answered c.headers .delete (labelUrl c id label) none p r p') :
    (Forgiven now r ∧ c.deleteLabel now id label p = (.ok (), p')) ∨
      (¬ Forgiven now r ∧ ∃ e, Refusal now (report .delete (labelUrl c id label) r) r e ∧
        c.deleteLabel now id label p = (.error e, p')) := by
  have deleted := deleteLabel_sent (send_answered now answered)
  cases success : r.isSuccess with
  | true =>
    rw [outcome_success now _ _ success] at deleted
    exact .inl ⟨.inl (isSuccess_iff.mp success), deleted⟩
  | false =>
    have failure : ¬ (200 ≤ r.status ∧ r.status < 300) := by
      rw [← isSuccess_iff, success]
      exact Bool.false_ne_true
    have forgiven : Forgiven now r ↔ r.status = 404 ∧ rateLimitReset? now r = .ok none ∧
        missingLabelMessage.toList <:+: r.body.toList := or_iff_right failure
    obtain ⟨e, ended, refusal⟩ := outcome_refusal now .delete (labelUrl c id label) success
    rw [ended] at deleted
    rw [forgiven]
    cases refusal with
    | limited limit =>
      refine .inr ⟨fun missing => ?_, _, .limited limit, deleted⟩
      cases limit.symm.trans missing.2.1
    | overflow large =>
      refine .inr ⟨fun missing => ?_, _, .overflow large, deleted⟩
      cases large.symm.trans missing.2.1
    | other free status =>
      exact .inr ⟨fun missing => status missing.1, _, .other free status, deleted⟩
    | missing free status =>
      by_cases marked : missingLabelMessage.toList <:+: r.body.toList
      · rw [forgive_marked ((marked_iff solid).mpr marked)] at deleted
        exact .inl ⟨⟨status, free, marked⟩, deleted⟩
      · rw [forgive_unmarked (mt (marked_iff solid).mp marked)] at deleted
        exact .inr ⟨fun missing => marked missing.2.2, _, .missing free status, deleted⟩

/-- A client of the public interface. -/
def hub : Client where
  headers := [("accept", encode "application/vnd.github+json")]
  apiUrl := publicApi
  repository := "org/repo"
  webhookSecret := none

end Gatehouse.Github
