import Gatehouse.Proofs.Git.View

/-!
# Stores that nothing moves

A store keeps its repositories in a table, and every answer from a repository writes that repository
back. Once it was written it stays in its place of the table (`Settled`), so that writing it back as it
is changes nothing, and questions that only read leave the whole store as it is (`ensures_reads`).
-/

namespace Gatehouse

namespace Table

variable {κ α : Type} [DecidableEq κ] [LT κ] [DecidableLT κ]

theorem insertIn_insertIn (k : κ) (a b : α) (es : List (κ × α)) :
    insertIn k b (insertIn k a es) = insertIn k b es := by
  induction es with
  | nil => simp [insertIn]
  | cons e es ih =>
    obtain ⟨k', c⟩ := e
    by_cases same : k = k'
    · simp [insertIn, same]
    · by_cases before : k < k'
      · simp [insertIn, same, before]
      · simp [insertIn, same, before, ih]

/-- Of two values for a key the second one counts. -/
@[simp] theorem insert_insert (t : Table κ α) (k : κ) (a b : α) :
    (t.insert k a).insert k b = t.insert k b :=
  congrArg Table.mk (insertIn_insertIn k a b t.entries)

end Table

namespace Git

open Program

/-- Writing the repository back as it is leaves the table of repositories as it is. -/
def Store.Settled (repository : String) (s : Store) : Prop :=
  ∀ repo, s.repositories.get? repository = some repo →
    s.repositories.insert repository repo = s.repositories

/-- Questions that only read. -/
inductive Query.IsRead : Query → Prop
  | rights (user : User) : IsRead (.canUserWrite user)
  | comments (id : Int) : IsRead (.listComments id)
  | labels (id : Int) : IsRead (.listLabels id)

variable {now : Instant} {repository : String} {q : Query} {s s' : Store} {r : q.Outcome}

theorem settled_put (s : Store) (repo : RepoState) (lastId : Int) :
    Store.Settled repository
      { s with repositories := s.repositories.insert repository repo, lastId } := by
  intro repo' found
  obtain rfl : repo = repo' := by simpa using found
  simp

theorem Store.Settled.answer (settled : s.Settled repository)
    (answered : s.AnswersAt now repository q r s') : s'.Settled repository := by
  obtain rfl : (s.answer now repository q).2 = s' := congrArg Prod.snd answered
  unfold Store.answer
  split
  · exact settled
  · split
    · split
      · exact settled
      · exact settled
    · split
      · exact settled
      · split
        · exact settled_put s _ _
        · exact settled

theorem answer_put {repo : RepoState} {a : q.Answer}
    (free : isLimited repository = false) (found : s.repositories.get? repository = some repo)
    (about : q.isUserInfo = false) (read : repo.answer now s.lastId q = .ok (a, repo, s.lastId)) :
    (s.answer now repository q).2 =
      { s with repositories := s.repositories.insert repository repo } := by
  rw [answer_open free found about, read]
  rfl

theorem settled_canUserWrite {user : User} {r : Query.Outcome (.canUserWrite user)}
    (answers : s.view.Answers repository)
    (answered : s.AnswersAt now repository (.canUserWrite user) r s') : s'.Settled repository := by
  obtain rfl : (s.answer now repository (.canUserWrite user)).2 = s' := congrArg Prod.snd answered
  obtain ⟨free, repo, found⟩ := answers_iff.mp answers
  rw [answer_put free found rfl rfl]
  exact settled_put s repo s.lastId

/-- Questions that read leave a settled store as it is. -/
theorem Store.Settled.read (settled : s.Settled repository) (reads : q.IsRead)
    (answered : s.AnswersAt now repository q r s') : s' = s := by
  obtain rfl : (s.answer now repository q).2 = s' := congrArg Prod.snd answered
  by_cases answers : s.view.Answers repository
  · obtain ⟨free, repo, found⟩ := answers_iff.mp answers
    have same : { s with repositories := s.repositories.insert repository repo } = s := by
      rw [settled repo found]
    cases reads with
    | rights user => rw [answer_put free found rfl rfl, same]
    | comments id => rw [answer_put free found rfl rfl, same]
    | labels id =>
      cases there : repo.pullRequests.get? id with
      | none =>
        rw [answer_open free found rfl, RepoState.answer, pullRequest?_bind, there]
        rfl
      | some pr =>
        have read : repo.answer now s.lastId (.listLabels id) = .ok (pr.labels, repo, s.lastId) := by
          rw [RepoState.answer, pullRequest?_bind, there]
        rw [answer_put free found rfl read, same]
  · exact answer_shut answers

section Programs

variable {α : Type} {p : Program Query Query.Outcome α}

theorem ensures_settled (settled : s.Settled repository) :
    p.Ensures (Store.AnswersAt now repository) s fun _ s' => s'.Settled repository := by
  induction p generalizing s with
  | done a => exact settled
  | ask q next ih =>
    intro r s' answered
    exact ih r (settled.answer answered)

theorem ensures_reads (settled : s.Settled repository) (reads : p.Asks Query.IsRead) :
    p.Ensures (Store.AnswersAt now repository) s fun _ s' => s' = s := by
  induction p with
  | done a => rfl
  | ask q next ih =>
    intro r s' answered
    obtain rfl : s' = s := settled.read reads.1 answered
    exact ih r (reads.2 r)

end Programs

end Git

end Gatehouse
