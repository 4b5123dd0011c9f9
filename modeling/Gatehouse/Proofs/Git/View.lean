import Gatehouse.Git.Store
import Gatehouse.Proofs.Program.Ensures

/-!
# What a store shows

A view of a store shows who may write to its repositories, its pull requests and what is written under
them; nothing else matters for approval. `Store.May` leaves open when the store is asked and whether
it takes a comment. Under it every operation that approval uses is an equation between views, and a
repository that does not answer keeps the whole store as it is (`follows_shut`).
-/

namespace Gatehouse.Git

open Program

/-- Does a repository answer everything with a rate limit? -/
def isLimited (repository : String) : Bool :=
  Text.contains rateLimitMarker.toList repository.toList

/-- What a store shows of its repositories. -/
@[ext] structure View where
  /-- Which users may write to a repository, by their names, if there is such a repository. -/
  rights : String → Option (String → Bool)
  pull? : String → Int → Option PullRequest
  /-- What is written under an issue, in the order of its creation. -/
  comments : String → Int → List Comment

namespace View

variable (v : View)

/-- The repository is there and not limited. -/
def Answers (repository : String) : Prop :=
  isLimited repository = false ∧ (v.rights repository).isSome = true

/-- May a user of that name write to the repository? -/
def mayWrite (repository name : String) : Bool := (v.rights repository).any (· name)

/-- Change a pull request, if it is there. -/
def change (repository : String) (id : Int) (f : PullRequest → PullRequest) : View :=
  { v with
    pull? := fun r i => if r = repository ∧ i = id then (v.pull? r i).map f else v.pull? r i }

/-- Write comments under an issue. -/
def post (repository : String) (id : Int) (cs : List Comment) : View :=
  { v with
    comments := fun r i =>
      if r = repository ∧ i = id then v.comments r i ++ cs else v.comments r i }

variable {repository : String} {id : Int} {f : PullRequest → PullRequest} {cs : List Comment}

@[simp] theorem rights_change : (v.change repository id f).rights = v.rights := rfl

@[simp] theorem comments_change : (v.change repository id f).comments = v.comments := rfl

@[simp] theorem rights_post : (v.post repository id cs).rights = v.rights := rfl

@[simp] theorem pull?_post : (v.post repository id cs).pull? = v.pull? := rfl

theorem pull?_change (r : String) (i : Int) :
    (v.change repository id f).pull? r i =
      if r = repository ∧ i = id then (v.pull? r i).map f else v.pull? r i := rfl

theorem comments_post (r : String) (i : Int) :
    (v.post repository id cs).comments r i =
      if r = repository ∧ i = id then v.comments r i ++ cs else v.comments r i := rfl

@[simp] theorem post_nil : v.post repository id [] = v := by
  ext r i
  · rfl
  · rfl
  · simp [comments_post]

theorem post_post (cs' : List Comment) :
    (v.post repository id cs).post repository id cs' = v.post repository id (cs ++ cs') := by
  ext r i
  · rfl
  · rfl
  · by_cases there : r = repository ∧ i = id
    · simp [comments_post, there]
    · simp [comments_post, there]

variable {v}

theorem change_none (absent : v.pull? repository id = none) : v.change repository id f = v := by
  ext r i
  · rfl
  · rw [pull?_change]
    split
    · rename_i there
      rw [there.1, there.2, absent, Option.map_none]
    · rfl
  · rfl

end View

/-- A store as it shows itself. -/
def Store.view (s : Store) : View where
  rights repository := (s.repositories.get? repository).map fun r name => r.canWrite.getD name false
  pull? repository id := (s.repositories.get? repository).bind (·.pullRequests.get? id)
  comments repository id := ((s.repositories.get? repository).map (·.comments.getD id [])).getD []

/-- Is it the wish to write a comment? -/
def Query.isPost : Query → Bool
  | .registerComment _ _ _ => true
  | _ => false

namespace Store

/-- The store answers as it does at some time, or refuses a comment. -/
def May (repository : String) (q : Query) (s : Store) (r : q.Outcome) (s' : Store) : Prop :=
  (∃ now, s.answer now repository q = (r, s')) ∨ q.isPost = true ∧ (∃ e, r = .error e) ∧ s' = s

/-- The store answers as it does at the given time. -/
def AnswersAt (now : Instant) (repository : String) (q : Query) (s : Store) (r : q.Outcome)
    (s' : Store) : Prop := s.answer now repository q = (r, s')

end Store

variable {now : Instant} {repository : String} {q : Query} {s s' : Store} {repo repo' : RepoState}
  {lastId id : Int}

theorem Store.AnswersAt.may {r : q.Outcome} (h : s.AnswersAt now repository q r s') :
    s.May repository q r s' := .inl ⟨now, h⟩

theorem ensures_answersAt {α : Type} {p : Program Query Query.Outcome α} {post : α → Store → Prop}
    (h : p.Ensures (Store.May repository) s post) :
    p.Ensures (Store.AnswersAt now repository) s post :=
  h.restrict fun _ _ _ _ => Store.AnswersAt.may

theorem rateLimitOf?_eq_none {seconds : Int} :
    rateLimitOf? seconds repository = none ↔ isLimited repository = false := by
  unfold rateLimitOf? isLimited
  split
  · rename_i limited
    simp [limited]
  · rename_i free
    simpa using free

theorem answers_iff :
    s.view.Answers repository ↔
      isLimited repository = false ∧ ∃ repo, s.repositories.get? repository = some repo := by
  simp [View.Answers, Store.view, Option.isSome_iff_exists]

theorem absent_of_shut (free : isLimited repository = false)
    (shut : ¬ s.view.Answers repository) : s.repositories.get? repository = none := by
  cases found : s.repositories.get? repository with
  | none => rfl
  | some repo => exact absurd (answers_iff.mpr ⟨free, repo, found⟩) shut

theorem answer_shut (shut : ¬ s.view.Answers repository) :
    (s.answer now repository q).2 = s := by
  unfold Store.answer
  split
  · rfl
  · rename_i free
    split
    · split <;> rfl
    · rw [absent_of_shut (rateLimitOf?_eq_none.mp free) shut]

theorem may_shut {r : q.Outcome} (shut : ¬ s.view.Answers repository)
    (h : s.May repository q r s') : s' = s := by
  rcases h with ⟨now, h⟩ | ⟨-, -, same⟩
  · rw [← answer_shut shut, h]
  · exact same

theorem follows_shut {es : List (Event Query.Outcome)} (shut : ¬ s.view.Answers repository)
    (follows : Follows (Store.May repository) s es s') : s' = s := by
  refine follows.keeps (P := fun s' => s' = s) ?_ rfl
  -- The next question finds the store as this one did, so it is refused as well.
  rintro e - s₁ s₂ answered rfl
  exact may_shut shut answered

@[simp] theorem ensures_asked {post : q.Outcome → Store → Prop} :
    (ask q).run.Ensures (Store.May repository) s post ↔
      ∀ r s', s.May repository q r s' → post r s' := Iff.rfl

/-! Repositories that answer. -/

/-- Is it the question about a user that needs no repository? -/
def Query.isUserInfo : Query → Bool
  | .getUserInfo _ => true
  | _ => false

/-- The store after an answer from a repository. -/
def Store.keep {α : Type} (s : Store) (repository : String) :
    Except Error (α × RepoState × Int) → Except Error α × Store
  | .ok (a, repo, lastId) =>
    (.ok a, { s with repositories := s.repositories.insert repository repo, lastId })
  | .error e => (.error e, s)

theorem answer_open (free : isLimited repository = false)
    (found : s.repositories.get? repository = some repo) (about : q.isUserInfo = false) :
    s.answer now repository q = s.keep repository (repo.answer now s.lastId q) := by
  unfold Store.answer
  rw [rateLimitOf?_eq_none.mpr free]
  cases q with
  | getUserInfo name => cases about
  | _ =>
    simp only [found]
    generalize repo.answer now s.lastId _ = outcome
    cases outcome <;> rfl

theorem view_put :
    Store.view { s with repositories := s.repositories.insert repository repo', lastId } =
      { rights := fun r =>
          if r = repository then some fun name => repo'.canWrite.getD name false
          else s.view.rights r
        pull? := fun r i =>
          if r = repository then repo'.pullRequests.get? i else s.view.pull? r i
        comments := fun r i =>
          if r = repository then repo'.comments.getD i [] else s.view.comments r i } := by
  ext r
  all_goals simp only [Store.view, Table.get?_insert]
  all_goals split <;> rfl

theorem view_put_same (found : s.repositories.get? repository = some repo) :
    Store.view { s with repositories := s.repositories.insert repository repo, lastId } =
      s.view := by
  rw [view_put]
  ext r
  all_goals dsimp only
  all_goals split
  all_goals first | rfl | (subst r; simp [Store.view, found])

theorem pullRequest?_bind {α : Type} (f : PullRequest → Except Error α) :
    (repo.pullRequest? id >>= f) =
      match repo.pullRequests.get? id with
      | some pr => f pr
      | none => .error (.notFound s!"pull request {id}") := by
  unfold RepoState.pullRequest?
  cases repo.pullRequests.get? id <;> rfl

theorem view_change {pr : PullRequest} {f : PullRequest → PullRequest}
    (found : s.repositories.get? repository = some repo)
    (there : repo.pullRequests.get? id = some pr) :
    Store.view
        { s with
          repositories := s.repositories.insert repository
            { repo with pullRequests := repo.pullRequests.insert id (f pr) }
          lastId } =
      s.view.change repository id f := by
  rw [view_put]
  refine View.ext (funext fun r => ?_) (funext fun r => funext fun i => ?_)
    (funext fun r => funext fun i => ?_)
  · by_cases here : r = repository
    · subst r
      simp [Store.view, found]
    · simp [here]
  · rw [View.pull?_change]
    by_cases here : r = repository
    · subst r
      by_cases same : i = id
      · subst i
        simp [Store.view, found, there]
      · simp [Store.view, found, same]
    · simp [here]
  · by_cases here : r = repository
    · subst r
      simp [Store.view, found]
    · simp [here]

/-- An operation that edits a pull request changes it, if it is there. -/
theorem view_edit {f : PullRequest → PullRequest} {r : Except Error Unit}
    (found : s.repositories.get? repository = some repo)
    (told : s.keep repository (repo.pullRequest? id >>= fun pr =>
      .ok ((), { repo with pullRequests := repo.pullRequests.insert id (f pr) }, lastId)) =
        (r, s')) :
    s'.view = s.view.change repository id f ∧
      (r = .ok () ↔ s.view.pull? repository id ≠ none) := by
  have known : s.view.pull? repository id = repo.pullRequests.get? id := by
    simp [Store.view, found]
  rw [pullRequest?_bind] at told
  cases there : repo.pullRequests.get? id with
  | none =>
    rw [there] at told known
    obtain ⟨rfl, rfl⟩ := Prod.mk.inj told
    simp [View.change_none known, known]
  | some pr =>
    rw [there] at told known
    obtain ⟨rfl, rfl⟩ := Prod.mk.inj told
    exact ⟨view_change found there, by simp [known]⟩

section Answered

variable (answers : s.view.Answers repository)

include answers

/-- An operation that is no wish to write is answered from memory. -/
theorem may_answered {r : q.Outcome} (about : q.isUserInfo = false) (quiet : q.isPost = false)
    (h : s.May repository q r s') :
    ∃ repo now, s.repositories.get? repository = some repo ∧
      s.keep repository (repo.answer now s.lastId q) = (r, s') := by
  obtain ⟨free, repo, found⟩ := answers_iff.mp answers
  rcases h with ⟨now, h⟩ | ⟨post, -⟩
  · exact ⟨repo, now, found, (answer_open free found about).symm.trans h⟩
  · rw [quiet] at post
    cases post

theorem canUserWrite_answered {user : User} {r : Except Error Bool}
    (h : s.May repository (.canUserWrite user) r s') :
    r = .ok (s.view.mayWrite repository user.name) ∧ s'.view = s.view := by
  obtain ⟨repo, now, found, told⟩ := may_answered answers rfl rfl h
  obtain ⟨rfl, rfl⟩ := Prod.mk.inj told
  refine ⟨?_, view_put_same found⟩
  simp [View.mayWrite, Store.view, found]

theorem listComments_answered {r : Except Error (List Comment)}
    (h : s.May repository (.listComments id) r s') :
    r = .ok (newestFirst (s.view.comments repository id)) ∧ s'.view = s.view := by
  obtain ⟨repo, now, found, told⟩ := may_answered answers rfl rfl h
  obtain ⟨rfl, rfl⟩ := Prod.mk.inj told
  refine ⟨?_, view_put_same found⟩
  simp [Store.view, found]

theorem listLabels_answered {r : Except Error (List Label)}
    (h : s.May repository (.listLabels id) r s') :
    s'.view = s.view ∧
      match s.view.pull? repository id with
      | some pr => r = .ok pr.labels
      | none => ∃ e, r = .error e := by
  obtain ⟨repo, now, found, told⟩ := may_answered answers rfl rfl h
  have known : s.view.pull? repository id = repo.pullRequests.get? id := by
    simp [Store.view, found]
  rw [RepoState.answer, pullRequest?_bind] at told
  rw [known]
  cases there : repo.pullRequests.get? id with
  | none =>
    rw [there] at told
    obtain ⟨rfl, rfl⟩ := Prod.mk.inj told
    exact ⟨rfl, _, rfl⟩
  | some pr =>
    rw [there] at told
    obtain ⟨rfl, rfl⟩ := Prod.mk.inj told
    exact ⟨view_put_same found, rfl⟩

theorem setLabel_answered {type : IssueType} {label : String} {r : Except Error Unit}
    (h : s.May repository (.setLabel type id label) r s') :
    s'.view = s.view.change repository id (RepoState.withLabel · label) ∧
      (r = .ok () ↔ s.view.pull? repository id ≠ none) := by
  obtain ⟨repo, now, found, told⟩ := may_answered answers rfl rfl h
  exact view_edit found told

theorem deleteLabel_answered {type : IssueType} {label : String} {r : Except Error Unit}
    (h : s.May repository (.deleteLabel type id label) r s') :
    s'.view = s.view.change repository id (RepoState.withoutLabel · label) ∧
      (r = .ok () ↔ s.view.pull? repository id ≠ none) := by
  obtain ⟨repo, now, found, told⟩ := may_answered answers rfl rfl h
  exact view_edit found told

/-- A comment is written once, by nobody, and is no review. -/
theorem registerComment_answeredAt {type : IssueType} {body : String} {r : Except Error Unit}
    (h : s.AnswersAt now repository (.registerComment type id body) r s') :
    r = .ok () ∧ ∃ c : Comment, c.body = body ∧ c.reviewState = none ∧
      s'.view = s.view.post repository id [c] := by
  obtain ⟨free, repo, found⟩ := answers_iff.mp answers
  rw [Store.AnswersAt, answer_open free found rfl] at h
  obtain ⟨rfl, rfl⟩ := Prod.mk.inj h
  refine ⟨rfl, { id := s.lastId + 1, body, author := {}, createdAt := now }, rfl, rfl, ?_⟩
  rw [view_put]
  refine View.ext (funext fun r => ?_) (funext fun r => funext fun i => ?_)
    (funext fun r => funext fun i => ?_)
  · by_cases here : r = repository
    · subst r
      simp [Store.view, found]
    · simp [here]
  · by_cases here : r = repository
    · subst r
      simp [Store.view, found]
    · simp [here]
  · rw [View.comments_post]
    by_cases here : r = repository
    · subst r
      by_cases same : i = id
      · subst i
        simp [Store.view, found, RepoState.append, Table.getD]
      · simp [Store.view, found, RepoState.append, Table.getD, same]
    · simp [here]

theorem registerComment_answered {type : IssueType} {body : String} {r : Except Error Unit}
    (h : s.May repository (.registerComment type id body) r s') :
    s'.view = s.view ∨ ∃ c : Comment, c.body = body ∧ c.reviewState = none ∧
      s'.view = s.view.post repository id [c] := by
  rcases h with ⟨now, h⟩ | ⟨-, -, rfl⟩
  · exact .inr (registerComment_answeredAt answers h).2
  · exact .inl rfl

end Answered

end Gatehouse.Git
