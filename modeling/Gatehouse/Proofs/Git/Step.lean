import Gatehouse.Proofs.Git.View

/-!
# What operations do to a repository in memory

An operation that succeeds reads its repository or makes one change to it, and two of them take the
next id (`RepoStep`). All operations on a store come down to this (`answer_cases`), so what is said
about them by cases is said about these changes.
-/

namespace Gatehouse.Git

/-- Is it an operation that lists, gets or asks? -/
def Query.isReading : Query → Bool
  | .listWebhooks | .listCommitStatuses _ | .getUserInfo _ | .canUserWrite _ | .listComments _
  | .listPullRequests _ | .getPullRequest _ | .getPullRequestDiff _ | .listPullRequestCommits _
  | .listLabels _ | .getBranch _ => true
  | _ => false

/-- What an operation that succeeds does to its repository and to the id handed out last. -/
inductive RepoStep (now : Instant) (repo : RepoState) (lastId : Int) :
    Query → RepoState → Int → Prop
  | read (q : Query) (reading : q.isReading = true) : RepoStep now repo lastId q repo lastId
  | hooked (url : String) :
      RepoStep now repo lastId (.registerWebhook url)
        { repo with hooks := repo.hooks.insert (lastId + 1) ⟨lastId + 1, url⟩ } (lastId + 1)
  | unhooked (id : Int) :
      RepoStep now repo lastId (.deleteWebhook id) { repo with hooks := repo.hooks.erase id } lastId
  | reported (sha : String) (status : CommitStatus) :
      RepoStep now repo lastId (.setCommitStatus sha status)
        { repo with statuses := RepoState.append repo.statuses sha status } lastId
  | commented (type : IssueType) (issue : Int) (body : String) :
      RepoStep now repo lastId (.registerComment type issue body)
        { repo with
          comments := RepoState.append repo.comments issue
            { id := lastId + 1, body, author := {}, createdAt := now } }
        (lastId + 1)
  | merged (id : Int) (sha : String) (method : MergeMethod) (message : String) (pr : PullRequest)
      (there : repo.pullRequests.get? id = some pr) :
      RepoStep now repo lastId (.mergePullRequest id sha method message)
        (repo.merged id pr message) lastId
  | labelled (type : IssueType) (id : Int) (label : String) (pr : PullRequest)
      (there : repo.pullRequests.get? id = some pr) :
      RepoStep now repo lastId (.setLabel type id label)
        { repo with pullRequests := repo.pullRequests.insert id (RepoState.withLabel pr label) }
        lastId
  | unlabelled (type : IssueType) (id : Int) (label : String) (pr : PullRequest)
      (there : repo.pullRequests.get? id = some pr) :
      RepoStep now repo lastId (.deleteLabel type id label)
        { repo with pullRequests := repo.pullRequests.insert id (RepoState.withoutLabel pr label) }
        lastId

variable {now : Instant} {repository : String} {q : Query} {s : Store} {repo repo' : RepoState}
  {lastId lastId' : Int}

theorem repoStep_of_answer {a : q.Answer}
    (answered : repo.answer now lastId q = .ok (a, repo', lastId')) :
    RepoStep now repo lastId q repo' lastId' := by
  cases q with
  | listWebhooks | canUserWrite _ | listComments _ | listPullRequests _
  | listPullRequestCommits _ =>
    cases answered
    exact .read _ rfl
  | getUserInfo _ => cases answered
  | listCommitStatuses _ | getPullRequestDiff _ | getBranch _ =>
    simp only [RepoState.answer] at answered
    split at answered
    · cases answered
      exact .read _ rfl
    · cases answered
  | getPullRequest id | listLabels id =>
    simp only [RepoState.answer, pullRequest?_bind] at answered
    split at answered
    · cases answered
      exact .read _ rfl
    · cases answered
  | registerWebhook url =>
    cases answered
    exact .hooked url
  | deleteWebhook id =>
    simp only [RepoState.answer] at answered
    split at answered
    · cases answered
      exact .unhooked id
    · cases answered
  | setCommitStatus sha status =>
    cases answered
    exact .reported sha status
  | registerComment type issue body =>
    cases answered
    exact .commented type issue body
  | mergePullRequest id sha method message =>
    simp only [RepoState.answer, pullRequest?_bind] at answered
    split at answered
    · rename_i pr there
      cases answered
      exact .merged id sha method message pr there
    · cases answered
  | setLabel type id label =>
    simp only [RepoState.answer, pullRequest?_bind] at answered
    split at answered
    · rename_i pr there
      cases answered
      exact .labelled type id label pr there
    · cases answered
  | deleteLabel type id label =>
    simp only [RepoState.answer, pullRequest?_bind] at answered
    split at answered
    · rename_i pr there
      cases answered
      exact .unlabelled type id label pr there
    · cases answered

/-- A repository that does not answer refuses everything that is asked about it. -/
theorem answer_refused (now : Instant) (shut : ¬ s.view.Answers repository)
    (about : q.isUserInfo = false) : ∃ e, s.answer now repository q = (.error e, s) := by
  unfold Store.answer
  split
  · exact ⟨_, rfl⟩
  · rename_i free
    rw [absent_of_shut (rateLimitOf?_eq_none.mp free) shut]
    cases q with
    | getUserInfo name => cases about
    | _ => exact ⟨_, rfl⟩

/-- An operation fails and changes nothing, asks for a user and changes nothing, or makes a step on
its repository. -/
theorem answer_cases (now : Instant) (repository : String) (q : Query) (s : Store) :
    (∃ e, s.answer now repository q = (.error e, s)) ∨
    (q.isReading = true ∧ ∃ a, s.answer now repository q = (.ok a, s)) ∨
    ∃ a repo repo' lastId, s.repositories.get? repository = some repo ∧
      RepoStep now repo s.lastId q repo' lastId ∧
      s.answer now repository q =
        (.ok a, { s with repositories := s.repositories.insert repository repo', lastId }) := by
  cases about : q.isUserInfo with
  | true =>
    cases q with
    | getUserInfo name =>
      unfold Store.answer
      split
      · exact .inl ⟨_, rfl⟩
      · dsimp only
        split
        · exact .inr (.inl ⟨rfl, _, rfl⟩)
        · exact .inl ⟨_, rfl⟩
    | _ => cases about
  | false =>
    by_cases answers : s.view.Answers repository
    · obtain ⟨free, repo, found⟩ := answers_iff.mp answers
      rw [answer_open free found about]
      cases answered : repo.answer now s.lastId q with
      | error e => exact .inl ⟨e, rfl⟩
      | ok told =>
        obtain ⟨a, repo', lastId⟩ := told
        exact .inr (.inr ⟨a, repo, repo', lastId, found, repoStep_of_answer answered, rfl⟩)
    · exact .inl (answer_refused now answers about)

end Gatehouse.Git
