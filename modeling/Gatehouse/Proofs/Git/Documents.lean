import Gatehouse.Proofs.Json.Faithful

/-!
# Git objects are written faithfully

Each git object of an event is read back from its document, if its numbers have at most 64 bits and
its times are in the years that a time may have; `Fits` says so for each kind of object. An object
is read back because its parts are.
-/

namespace Gatehouse.Git

open Json

/-! Parts in which everything fits. -/

theorem PullRequestState.faithful : Faithful true (fun _ => True) toJson ofJson? :=
  faithful_of_back (fun s => by cases s <;> exact .str _) (fun s => by cases s <;> rfl)

theorem PullRequestAction.faithful : Faithful true (fun _ => True) toJson ofJson? :=
  faithful_of_back (fun a => by cases a <;> exact .str _) (fun a => by cases a <;> rfl)

theorem ReviewState.faithful : Faithful true (fun _ => True) toJson ofJson? :=
  faithful_of_back (fun s => by cases s <;> exact .str _) (fun s => by cases s <;> rfl)

theorem ReviewState.toJson_ne_null (s : ReviewState) : s.toJson ≠ .null := by
  cases s <;> exact str_ne_null _

theorem EventType.faithful : Faithful true (fun _ => True) toJson ofJson? :=
  faithful_of_back (fun e => .str e.name) (fun e => by cases e <;> rfl)

theorem Repository.faithful : Faithful true (fun _ => True) toJson ofJson? :=
  faithful_of_back (fun r => by simp [toJson]) (fun _ => rfl)

theorem Label.faithful : Faithful true (fun _ => True) toJson ofJson? :=
  faithful_of_back (fun l => by simp [toJson]) (fun _ => rfl)

theorem Tip.faithful : Faithful true (fun _ => True) toJson ofJson? :=
  faithful_of_back (fun t => by simp [toJson]) (fun _ => rfl)

theorem Push.faithful : Faithful true (fun _ => True) toJson ofJson? :=
  faithful_of_back (fun p => by simp [toJson]) (fun _ => rfl)

/-! Accounts. -/

/-- The id is a signed 64-bit word. -/
def User.Fits (u : User) : Prop := Text.isInt64 u.id = true

theorem User.faithful : Faithful true Fits toJson ofJson? where
  written u fits := by
    have id := (faithful_int64 true).written u.id fits
    have email := ((faithful_text true).option str_ne_null).written u.email (by simp)
    simp [toJson, id, email]
  back u fits := by
    have id := (faithful_int64 true).back u.id fits
    have email := ((faithful_text true).option str_ne_null).back u.email (by simp)
    simp [toJson, ofJson?, fields?, Fields.required, Fields.nullable, Fields.find?,
      List.lookup_cons, text?, id, email]
  fits {v u} read := by
    obtain ⟨f, -, read⟩ := Option.bind_eq_some_iff.mp read
    obtain ⟨id, seen, read⟩ := Option.bind_eq_some_iff.mp read
    obtain ⟨name, -, read⟩ := Option.bind_eq_some_iff.mp read
    obtain ⟨email, -, same⟩ := Option.bind_eq_some_iff.mp read
    obtain rfl := Option.some.inj same
    exact (faithful_int64 true).of_required seen

/-! Pull requests. -/

/-- The numbers of a pull request are signed 64-bit words. -/
structure PullRequest.Fits (pr : PullRequest) : Prop where
  id : Text.isInt64 pr.id = true
  author : pr.author.Fits

theorem PullRequest.faithful : Faithful true Fits toJson ofJson? where
  written pr fits := by
    have id := (faithful_int64 true).written pr.id fits.id
    have author := User.faithful.written pr.author fits.author
    have state := PullRequestState.faithful.written pr.state trivial
    have action := PullRequestAction.faithful.written pr.action trivial
    have head := Tip.faithful.written pr.head trivial
    have base := Tip.faithful.written pr.base trivial
    have labels := Label.faithful.list.written pr.labels (by simp)
    have changed := Label.faithful.list.written pr.labelChanged (by simp)
    simp [toJson, id, author, state, action, head, base, labels, changed]
  back pr fits := by
    have id := (faithful_int64 true).back pr.id fits.id
    have author := User.faithful.back pr.author fits.author
    have state := PullRequestState.faithful.back pr.state trivial
    have action := PullRequestAction.faithful.back pr.action trivial
    have head := Tip.faithful.back pr.head trivial
    have base := Tip.faithful.back pr.base trivial
    have labels := Label.faithful.list.back pr.labels (by simp)
    have changed := Label.faithful.list.back pr.labelChanged (by simp)
    simp [toJson, ofJson?, fields?, Fields.required, Fields.find?, List.lookup_cons, text?, bool?,
      id, author, state, action, head, base, labels, changed]
  fits {v pr} read := by
    -- All fields were read, but only the id and the author can fail to fit.
    obtain ⟨f, -, read⟩ := Option.bind_eq_some_iff.mp read
    obtain ⟨id, seen, read⟩ := Option.bind_eq_some_iff.mp read
    obtain ⟨title, -, read⟩ := Option.bind_eq_some_iff.mp read
    obtain ⟨url, -, read⟩ := Option.bind_eq_some_iff.mp read
    obtain ⟨author, wrote, read⟩ := Option.bind_eq_some_iff.mp read
    obtain ⟨state, -, read⟩ := Option.bind_eq_some_iff.mp read
    obtain ⟨action, -, read⟩ := Option.bind_eq_some_iff.mp read
    obtain ⟨head, -, read⟩ := Option.bind_eq_some_iff.mp read
    obtain ⟨base, -, read⟩ := Option.bind_eq_some_iff.mp read
    obtain ⟨mergeable, -, read⟩ := Option.bind_eq_some_iff.mp read
    obtain ⟨labels, -, read⟩ := Option.bind_eq_some_iff.mp read
    obtain ⟨changed, -, same⟩ := Option.bind_eq_some_iff.mp read
    obtain rfl := Option.some.inj same
    exact ⟨(faithful_int64 true).of_required seen, User.faithful.of_required wrote⟩

/-! Comments. -/

/-- The numbers of a comment are signed 64-bit words, and its time can be written. -/
structure Comment.Fits (c : Comment) : Prop where
  id : Text.isInt64 c.id = true
  author : c.author.Fits
  createdAt : c.createdAt.date.inRange = true
  pullRequest : ∀ pr ∈ c.pullRequest, pr.Fits

theorem Comment.faithful : Faithful true Fits toJson ofJson? where
  written c fits := by
    have id := (faithful_int64 true).written c.id fits.id
    have author := User.faithful.written c.author fits.author
    have created := (faithful_time true).written c.createdAt fits.createdAt
    have review := (ReviewState.faithful.option ReviewState.toJson_ne_null).written c.reviewState
      (by simp)
    have about := (PullRequest.faithful.option fun _ => obj_ne_null _).written c.pullRequest
      fits.pullRequest
    simp [toJson, id, author, created, review, about]
  back c fits := by
    have id := (faithful_int64 true).back c.id fits.id
    have author := User.faithful.back c.author fits.author
    have created := (faithful_time true).back c.createdAt fits.createdAt
    have review := (ReviewState.faithful.option ReviewState.toJson_ne_null).back c.reviewState
      (by simp)
    have about := (PullRequest.faithful.option fun _ => obj_ne_null _).back c.pullRequest
      fits.pullRequest
    simp [toJson, ofJson?, fields?, Fields.required, Fields.nullable, Fields.find?,
      List.lookup_cons, text?, id, author, created, review, about]
  fits {v c} read := by
    obtain ⟨f, -, read⟩ := Option.bind_eq_some_iff.mp read
    obtain ⟨id, seen, read⟩ := Option.bind_eq_some_iff.mp read
    obtain ⟨body, -, read⟩ := Option.bind_eq_some_iff.mp read
    obtain ⟨author, wrote, read⟩ := Option.bind_eq_some_iff.mp read
    obtain ⟨created, dated, read⟩ := Option.bind_eq_some_iff.mp read
    obtain ⟨review, -, read⟩ := Option.bind_eq_some_iff.mp read
    obtain ⟨about, belongs, same⟩ := Option.bind_eq_some_iff.mp read
    obtain rfl := Option.some.inj same
    exact ⟨(faithful_int64 true).of_required seen, User.faithful.of_required wrote,
      (faithful_time true).of_required dated, PullRequest.faithful.of_nullable belongs⟩

/-! Events. -/

/-- All parts of an event fit. -/
structure Webhook.Fits (w : Webhook) : Prop where
  sender : w.sender.Fits
  pullRequest : ∀ pr ∈ w.pullRequest, pr.Fits
  comment : ∀ c ∈ w.comment, c.Fits

theorem Webhook.faithful : Faithful true Fits toJson ofJson? where
  written w fits := by
    have event := EventType.faithful.written w.eventType trivial
    have repo := Repository.faithful.written w.repo trivial
    have sender := User.faithful.written w.sender fits.sender
    have push := (Push.faithful.option fun _ => obj_ne_null _).written w.push (by simp)
    have about := (PullRequest.faithful.option fun _ => obj_ne_null _).written w.pullRequest
      fits.pullRequest
    have comment := (Comment.faithful.option fun _ => obj_ne_null _).written w.comment fits.comment
    simp [toJson, event, repo, sender, push, about, comment]
  back w fits := by
    have event := EventType.faithful.back w.eventType trivial
    have repo := Repository.faithful.back w.repo trivial
    have sender := User.faithful.back w.sender fits.sender
    have push := (Push.faithful.option fun _ => obj_ne_null _).back w.push (by simp)
    have about := (PullRequest.faithful.option fun _ => obj_ne_null _).back w.pullRequest
      fits.pullRequest
    have comment := (Comment.faithful.option fun _ => obj_ne_null _).back w.comment fits.comment
    simp [toJson, ofJson?, fields?, Fields.required, Fields.nullable, Fields.find?,
      List.lookup_cons, event, repo, sender, push, about, comment]
  fits {v w} read := by
    obtain ⟨f, -, read⟩ := Option.bind_eq_some_iff.mp read
    obtain ⟨event, -, read⟩ := Option.bind_eq_some_iff.mp read
    obtain ⟨repo, -, read⟩ := Option.bind_eq_some_iff.mp read
    obtain ⟨sender, sent, read⟩ := Option.bind_eq_some_iff.mp read
    obtain ⟨push, -, read⟩ := Option.bind_eq_some_iff.mp read
    obtain ⟨about, changed, read⟩ := Option.bind_eq_some_iff.mp read
    obtain ⟨comment, said, same⟩ := Option.bind_eq_some_iff.mp read
    obtain rfl := Option.some.inj same
    exact ⟨User.faithful.of_required sent, PullRequest.faithful.of_nullable changed,
      Comment.faithful.of_nullable said⟩

end Gatehouse.Git
