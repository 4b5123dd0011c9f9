import Gatehouse.Git.Client
import Gatehouse.Proofs.Git.Body

/-!
# The commit that a delivery names

An event about a push or about a changed pull request has an object id, which comes from different
places: GitHub names the pushed commit and the head of a pull request, and GitLab the pushed commit and
the last commit of a merge request, which it may leave out. What the event has is what the document
names there, and the empty text where it names nothing (`parseWebhook_commit`).
-/

namespace Gatehouse

open Git Json

namespace Git

/-- The object id of what an event is about: what was pushed, or the head of the pull request. -/
def Webhook.commit? (w : Webhook) : Option String :=
  match w.eventType with
  | .push => w.push.map (·.sha)
  | .pullRequestChanged => w.pullRequest.map (·.head.sha)
  | _ => none

theorem map_eq_ok {α : Type} {a : α} {e : Except Error α} (mapped : e.map some = .ok (some a)) :
    e = .ok a := by
  cases e with
  | error e => cases mapped
  | ok b =>
    obtain rfl := Option.some.inj (Except.ok.inj mapped)
    rfl

end Git

namespace Json

variable {α β : Type} {a : α} {b : β} {v document : Json} {names : List String} {name : String}
  {f : Fields} {read : Json → Option α} {other : Json → Option β}

/-- The value of one field of a record. -/
def field? (names : List String) (name : String) (read : Json → Option α) (v : Json) : Option α := do
  let f ← fields? names v
  f.required name read

theorem field?_found (record : fields? names v = some f) (found : f.find? name = some document) :
    field? names name read v = read document := by
  rw [field?, record]
  change f.find? name >>= read = read document
  rw [found]
  rfl

/-- A field that must be there can be read in other ways as well. -/
theorem field?_required (record : fields? names v = some f)
    (given : f.required name read = some a)
    (each : ∀ document, read document = some a → other document = some b) :
    field? names name other v = some b := by
  obtain ⟨document, found, inside⟩ := Option.bind_eq_some_iff.mp given
  rw [field?_found record found, each document inside]

end Json

namespace Github

variable {v : Json} {w : Webhook} {now : Instant} {headers : Http.Headers} {body : Bytes}

/-- The object id that a document about a push names. -/
def pushed? : Json → Option String := field? ["ref", "after", "sender", "repository"] "after" text?

/-- The object id that the document of a branch names. -/
def tip? : Json → Option String := field? ["ref", "sha"] "sha" text?

/-- The object id that the document of a pull request names for its head. -/
def head? : Json → Option String :=
  field? ["number", "title", "html_url", "state", "user", "head", "base", "mergeable", "labels"]
    "head" tip?

/-- The object id that a document about a pull request names for its head. -/
def changed? : Json → Option String :=
  field? ["action", "pull_request", "label", "sender", "repository"] "pull_request" head?

theorem readPushEvent_commit (read : readPushEvent v = some w) :
    ∃ sha, pushed? v = some sha ∧ w.commit? = some sha := by
  simp only [readPushEvent, bind, Option.bind_eq_some_iff] at read
  obtain ⟨f, record, ref, -, sha, after, sender, -, repo, -, event⟩ := read
  obtain rfl := Option.some.inj event
  exact ⟨sha, field?_required record after fun _ read => read, rfl⟩

theorem readTip_sha {tip : Tip} (read : readTip v = some tip) : tip? v = some tip.sha := by
  simp only [readTip, bind, Option.bind_eq_some_iff] at read
  obtain ⟨f, record, ref, -, sha, given, same⟩ := read
  obtain rfl := Option.some.inj same
  exact field?_required record given fun _ read => read

theorem readPullRequest_head {pr : PullRequest} (read : readPullRequest v = some pr) :
    head? v = some pr.head.sha := by
  simp only [readPullRequest, bind, Option.bind_eq_some_iff] at read
  obtain ⟨f, record, id, -, title, -, url, -, state, -, author, -, head, given, base, -, mergeable, -,
    labels, -, same⟩ := read
  obtain rfl := Option.some.inj same
  exact field?_required record given fun _ => readTip_sha

theorem readPullRequestEvent_commit (read : readPullRequestEvent v = some w) :
    ∃ sha, changed? v = some sha ∧ w.commit? = some sha := by
  simp only [readPullRequestEvent, bind, Option.bind_eq_some_iff] at read
  obtain ⟨f, record, action, -, pr, given, label, -, sender, -, repo, -, event⟩ := read
  obtain rfl := Option.some.inj event
  exact ⟨pr.head.sha, field?_required record given fun _ => readPullRequest_head, rfl⟩

theorem readReviewEvent_commit (read : readReviewEvent now v = some (some w)) :
    w.commit? = none := by
  simp only [readReviewEvent, bind, Option.bind_eq_some_iff] at read
  obtain ⟨f, -, action, -, review, -, pr, -, sender, -, repo, -, event⟩ := read
  split at event
  · obtain rfl := Option.some.inj (Option.some.inj event)
    rfl
  · cases event

theorem readCommentEvent_commit (read : readCommentEvent v = some (some w)) :
    w.commit? = none := by
  simp only [readCommentEvent, bind, Option.bind_eq_some_iff] at read
  obtain ⟨f, -, action, -, issue, -, comment, -, sender, -, repo, -, event⟩ := read
  split at event
  · obtain rfl := Option.some.inj (Option.some.inj event)
    rfl
  · cases event

/-- The object id that a delivery names for what it is about. -/
def named? (headers : Http.Headers) (body : Bytes) : Option String :=
  match (headers.text? "x-github-event").getD "" with
  | "pull_request" => document? body >>= changed?
  | "push" => document? body >>= pushed?
  | _ => none

theorem eventOf_commit (read : eventOf now headers body = .ok (some w)) :
    w.commit? = named? headers body := by
  unfold eventOf at read
  unfold named?
  split at read
  · rename_i kind
    obtain ⟨v, document, event⟩ := readBody_eq_ok.mp (map_eq_ok read)
    obtain ⟨sha, named, about⟩ := readPullRequestEvent_commit event
    rw [kind, about, document]
    exact named.symm
  · rename_i kind
    obtain ⟨v, -, event⟩ := readBody_eq_ok.mp read
    rw [kind, readReviewEvent_commit event]
    rfl
  · rename_i kind
    obtain ⟨v, -, event⟩ := readBody_eq_ok.mp read
    rw [kind, readCommentEvent_commit event]
    rfl
  · rename_i kind
    obtain ⟨v, document, event⟩ := readBody_eq_ok.mp (map_eq_ok read)
    obtain ⟨sha, named, about⟩ := readPushEvent_commit event
    rw [kind, about, document]
    exact named.symm
  · cases read

theorem eventOf_of_parse {secret : Option String} {event? : Option Webhook}
    (parsed : parseWebhook now secret headers body = .ok event?) :
    eventOf now headers body = .ok event? := by
  unfold parseWebhook at parsed
  split at parsed
  · exact parsed
  · split at parsed
    · exact parsed
    · cases parsed

end Github

namespace Gitlab

variable {v : Json} {w : Webhook} {now : Instant} {headers : Http.Headers} {body : Bytes}

/-- The object id that a document about a push names. -/
def pushed? : Json → Option String :=
  field? ["ref", "after", "user_id", "user_username", "project"] "after" text?

/-- The object id that the document of a merge request names for its last commit. -/
def last? (v : Json) : Option String := do
  let f ← fields? ["iid", "title", "url", "state", "action", "source_branch", "target_branch",
    "last_commit", "oldrev", "merge_status", "author_id", "updated_at"] v
  let sha ← f.optional "last_commit" readCommitId
  sha

/-- The object id that a document about a merge request names for its last commit. -/
def changed? : Json → Option String :=
  field? ["user", "project", "object_attributes", "labels", "changes"] "object_attributes" last?

theorem readPushEvent_commit (read : readPushEvent v = some w) :
    ∃ sha, pushed? v = some sha ∧ w.commit? = some sha := by
  simp only [readPushEvent, bind, Option.bind_eq_some_iff] at read
  obtain ⟨f, record, ref, -, sha, after, id, -, name, -, repo, -, event⟩ := read
  obtain rfl := Option.some.inj event
  exact ⟨sha, field?_required record after fun _ read => read, rfl⟩

theorem readAttributes_head {a : Attributes} (read : readAttributes v = some a) :
    a.pullRequest.head.sha = (last? v).getD "" := by
  unfold readAttributes at read
  obtain ⟨f, record, read⟩ := Option.bind_eq_some_iff.mp read
  -- Seven parts are read before the last commit, and four after it.
  iterate 7 obtain ⟨_, -, read⟩ := Option.bind_eq_some_iff.mp read
  obtain ⟨sha, given, read⟩ := Option.bind_eq_some_iff.mp read
  iterate 4 obtain ⟨_, -, read⟩ := Option.bind_eq_some_iff.mp read
  obtain rfl := Option.some.inj read
  simp only [last?, bind, record, Option.bind_some, given]

theorem readMergeRequestEvent_commit {sha : String}
    (read : readMergeRequestEvent now v = some w) (about : w.commit? = some sha) :
    sha = (changed? v).getD "" := by
  simp only [readMergeRequestEvent, bind, Option.bind_eq_some_iff] at read
  obtain ⟨f, record, sender, -, repo, -, attributes, given, labels, -, change, -, event⟩ := read
  obtain ⟨document, found, whole⟩ := Option.bind_eq_some_iff.mp given
  have head : attributes.pullRequest.head.sha = (changed? v).getD "" := by
    rw [changed?, field?_found record found]
    exact readAttributes_head whole
  split at event
  · obtain rfl := Option.some.inj event
    cases about
  · obtain rfl := Option.some.inj event
    rw [← head]
    exact (Option.some.inj about).symm

theorem toWebhook_commit {e : NoteEvent} (made : e.toWebhook = .ok (some w)) :
    w.commit? = none := by
  unfold NoteEvent.toWebhook at made
  split at made
  · cases made
  · split at made
    · cases made
    · obtain rfl := Option.some.inj (Except.ok.inj made)
      rfl

/-- The object id that a delivery names for what it is about. -/
def named? (headers : Http.Headers) (body : Bytes) : Option String :=
  match (headers.text? "x-gitlab-event").getD "" with
  | "Merge Request Hook" => document? body >>= changed?
  | "Push Hook" => document? body >>= pushed?
  | _ => none

/-- A merge request without a last commit counts as one with an empty object id. -/
theorem eventOf_commit {sha : String} (read : eventOf now headers body = .ok (some w))
    (about : w.commit? = some sha) : sha = (named? headers body).getD "" := by
  unfold eventOf at read
  unfold named?
  split at read
  · rename_i kind
    obtain ⟨v, document, event⟩ := readBody_eq_ok.mp (map_eq_ok read)
    rw [kind, document]
    exact readMergeRequestEvent_commit event about
  · rename_i kind
    cases parsed : readBody readNoteEvent body with
    | error e =>
      rw [parsed] at read
      cases read
    | ok note =>
      rw [parsed] at read
      rw [toWebhook_commit read] at about
      cases about
  · rename_i kind
    obtain ⟨v, document, event⟩ := readBody_eq_ok.mp (map_eq_ok read)
    obtain ⟨sha', named, about'⟩ := readPushEvent_commit event
    obtain rfl : sha' = sha := Option.some.inj (about'.symm.trans about)
    rw [kind, document]
    exact (congrArg (·.getD "") named).symm
  · cases read

theorem eventOf_of_parse {secret : Option String} {event? : Option Webhook}
    (parsed : parseWebhook now secret headers body = .ok event?) :
    eventOf now headers body = .ok event? := by
  unfold parseWebhook at parsed
  split at parsed
  · exact parsed
  · split at parsed
    · exact parsed
    · cases parsed

end Gitlab

namespace Git

variable {w : Webhook} {now : Instant} {headers : Http.Headers} {body : Bytes} {client : Client}

/-- The object id that a delivery to a client names for what it is about. -/
def Client.named? (headers : Http.Headers) (body : Bytes) : Client → Option String
  | .inMemory _ => none
  | .github _ => Github.named? headers body
  | .gitlab _ => Gitlab.named? headers body

/-- Does the client belong to GitHub or GitLab? -/
def Client.isRemote : Client → Bool
  | .inMemory _ => false
  | _ => true

theorem parseWebhook_commit {sha : String} (remote : client.isRemote = true)
    (read : client.parseWebhook now headers body = .ok (some w)) (about : w.commit? = some sha) :
    sha = (client.named? headers body).getD "" := by
  cases client with
  | inMemory repository => cases remote
  | github c =>
    change sha = (Github.named? headers body).getD ""
    rw [← Github.eventOf_commit (Github.eventOf_of_parse read), about]
    rfl
  | gitlab c => exact Gitlab.eventOf_commit (Gitlab.eventOf_of_parse read) about

end Git

end Gatehouse
