import Gatehouse.Github.Client
import Gatehouse.Gitlab.Client
import Gatehouse.Proofs.Chat.Decision
import Gatehouse.Proofs.Http.Gathering

/-!
# Comments, listed

The comments of a pull request are gathered from pages, and from two listings where reviews are kept
apart. All of them are listed, each as often as it was gathered and the newest first, or the first error
ends the request (`Complete`). So neither the pages nor the order in which the comments come make a
difference where no two have the same time and id (`Complete.agree`). What is gathered is all there is
where the links to the next pages can be followed; a review behind one that cannot is not listed
(`review_lost`).
-/

namespace Gatehouse

open Http

namespace Git

variable {cs cs' listed listed' : List Comment}

/-- The list has each of the comments once, the newest first. -/
structure Lists (cs listed : List Comment) : Prop where
  each : listed.Perm cs
  newest : listed.Pairwise fun a b => b.stamp ≤ a.stamp

theorem lists_newestFirst (cs : List Comment) : Lists cs (newestFirst cs) where
  each := List.mergeSort_perm cs _
  newest := (pairwise_newestFirst cs).imp Comment.notOlder_iff_stamp.mp

/-- There is one way to list comments of which no two have the same time and id. -/
theorem Lists.unique (distinct : AllDistinct cs) (lists : Lists cs listed)
    (lists' : Lists cs' listed') (same : cs.Perm cs') : listed = listed' := by
  refine List.Perm.eq_of_pairwise (fun a b here there older newer => ?_) lists.newest lists'.newest
    ((lists.each.trans same).trans lists'.each.symm)
  have member : b ∈ cs := same.mem_iff.mpr (lists'.each.mem_iff.mp there)
  exact distinct.eq_of_stamp (lists.each.mem_iff.mp here) member (le_antisymm newer older)

/-- What a request for comments ends with, by what there was to list or the error before that. -/
def Delivers : Except Error (List Comment) → Except Error (List Comment) → Prop
  | .error e, ended => ended = .error e
  | .ok cs, ended => ∃ listed, ended = .ok listed ∧ Lists cs listed

/-- A request for comments gathers things, and lists the comments that they show. -/
structure Complete {γ : Type} (request : Http.Call (List Comment))
    (gathers : (Response → Option String) → Peer → Peer → Except Error γ → Prop)
    (shown : γ → List Comment) : Prop where
  gathered : ∀ next p, Followable next p → ∃ things p', gathers next p p' things
  delivered : ∀ next p p' things, Followable next p → gathers next p p' things →
    (request p).2 = p' ∧ Delivers (things.map shown) (request p).1

section

variable {γ γ' : Type} {request request' : Http.Call (List Comment)}
  {gathers : (Response → Option String) → Peer → Peer → Except Error γ → Prop}
  {gathers' : (Response → Option String) → Peer → Peer → Except Error γ' → Prop}
  {shown : γ → List Comment} {shown' : γ' → List Comment} {next next' : Response → Option String}
  {p p' q q' : Peer} {things : γ} {things' : γ'}

/-- Two requests that gather the same comments list them alike, in whatever order they come. -/
theorem Complete.agree (complete : Complete request gathers shown)
    (complete' : Complete request' gathers' shown') (followable : Followable next p)
    (followable' : Followable next' q) (gathered : gathers next p p' (.ok things))
    (gathered' : gathers' next' q q' (.ok things')) (same : (shown things).Perm (shown' things'))
    (distinct : AllDistinct (shown things)) : (request p).1 = (request' q).1 := by
  obtain ⟨-, listed, ended, lists⟩ := complete.delivered _ _ _ _ followable gathered
  obtain ⟨-, listed', ended', lists'⟩ := complete'.delivered _ _ _ _ followable' gathered'
  rw [ended, ended', lists.unique distinct lists' same]

theorem Complete.of_ended
    (ends : ∀ next p, Followable next p → ∃ things p', gathers next p p' things)
    (ended : ∀ next p p' things, Followable next p → gathers next p p' things →
      request p = (things.map fun t => newestFirst (shown t), p')) :
    Complete request gathers shown := by
  refine ⟨ends, fun next p p' things followable gathered => ?_⟩
  rw [ended next p p' things followable gathered]
  refine ⟨rfl, ?_⟩
  cases things with
  | error e => rfl
  | ok things => exact ⟨_, rfl, lists_newestFirst _⟩

end

end Git

/-! Issue comments and reviews. -/

namespace Github

open Git

variable {r : Review} {c : Comment}

/-- A review shows as a comment of the time when it was submitted. -/
inductive Review.Shows (r : Review) : Comment → Prop
  | submitted {time : Instant} (submitted : r.submittedAt = some time) :
    Shows r { id := r.id, body := r.body, author := r.author, createdAt := time
              reviewState := reviewStateOf? r.state }

theorem Review.toComment?_eq_some_iff : r.toComment? = some c ↔ r.Shows c := by
  unfold Review.toComment?
  constructor
  · intro shown
    obtain ⟨time, submitted, rfl⟩ := Option.map_eq_some_iff.mp shown
    exact .submitted submitted
  · rintro ⟨submitted⟩
    rw [submitted]
    rfl

/-- The comments among issue comments and reviews. -/
def shown (things : List Comment × List Review) : List Comment :=
  things.1 ++ things.2.filterMap Review.toComment?

theorem shown_perm {cs cs' : List Comment} {rs rs' : List Review} (comments : cs.Perm cs')
    (reviews : rs.Perm rs') : (shown (cs, rs)).Perm (shown (cs', rs')) :=
  comments.append (reviews.filterMap _)

namespace Client

variable {c : Client} {now id : Int} {next : Response → Option String} {p p' : Peer}
  {things : Except Git.Error (List Comment × List Review)}

/-- The issue comments of a pull request are gathered, and its reviews after them. -/
inductive Gathers (c : Client) (now id : Int) (next : Response → Option String) (p p' : Peer) :
    Except Git.Error (List Comment × List Review) → Prop
  | noComments {e : Git.Error}
    (comments : Http.Gathers c.headers now readComment next
      (c.repoUrl s!"/issues/{id}/comments") p p' (.error e)) : Gathers c now id next p p' (.error e)
  | noReviews {e : Git.Error} {cs : List Comment} {between : Peer}
    (comments : Http.Gathers c.headers now readComment next
      (c.repoUrl s!"/issues/{id}/comments") p between (.ok cs))
    (reviews : Http.Gathers c.headers now readReview next
      (c.repoUrl s!"/pulls/{id}/reviews") between p' (.error e)) :
    Gathers c now id next p p' (.error e)
  | both {cs : List Comment} {rs : List Review} {between : Peer}
    (comments : Http.Gathers c.headers now readComment next
      (c.repoUrl s!"/issues/{id}/comments") p between (.ok cs))
    (reviews : Http.Gathers c.headers now readReview next
      (c.repoUrl s!"/pulls/{id}/reviews") between p' (.ok rs)) :
    Gathers c now id next p p' (.ok (cs, rs))

theorem exists_gathers (c : Client) (now id : Int) (followable : Followable next p) :
    ∃ things p', c.Gathers now id next p p' things := by
  rcases first : getAll c.headers now readComment (c.repoUrl s!"/issues/{id}/comments") p
    with ⟨comments, between⟩
  have gathers := (getAll_eq_iff_gathers followable).mp first
  cases comments with
  | error e => exact ⟨_, _, .noComments gathers⟩
  | ok cs =>
    rcases second : getAll c.headers now readReview (c.repoUrl s!"/pulls/{id}/reviews") between
      with ⟨reviews, after⟩
    have gathers' := (getAll_eq_iff_gathers (followable.after gathers)).mp second
    cases reviews with
    | error e => exact ⟨_, _, .noReviews gathers gathers'⟩
    | ok rs => exact ⟨_, _, .both gathers gathers'⟩

theorem reviews_gathers {ended : Except Git.Error (List Review)} (followable : Followable next p)
    (gathers : Http.Gathers c.headers now readReview next (c.repoUrl s!"/pulls/{id}/reviews") p p'
      ended) :
    c.reviews now id p = (ended.map (·.filterMap Review.toComment?), p') := by
  have done := (getAll_eq_iff_gathers followable).mpr gathers
  unfold reviews
  cases ended with
  | error e =>
    rw [run_andThen_error done]
    rfl
  | ok rs =>
    rw [run_andThen_ok done]
    rfl

theorem answer_gathers (followable : Followable next p) (gathers : c.Gathers now id next p p' things) :
    c.answer now (.listComments id) p = (things.map fun t => newestFirst (shown t), p') := by
  change (c.issueComments now id >>= fun comments => c.reviews now id >>= fun reviews =>
    pure (newestFirst (comments ++ reviews)) : Http.Call (List Comment)) p = _
  cases gathers with
  | noComments comments =>
    have failed : c.issueComments now id p = _ := (getAll_eq_iff_gathers followable).mpr comments
    rw [run_andThen_error failed]
    rfl
  | noReviews comments reviews =>
    have first : c.issueComments now id p = _ := (getAll_eq_iff_gathers followable).mpr comments
    rw [run_andThen_ok first,
      run_andThen_error (reviews_gathers (followable.after comments) reviews)]
    rfl
  | both comments reviews =>
    have first : c.issueComments now id p = _ := (getAll_eq_iff_gathers followable).mpr comments
    rw [run_andThen_ok first,
      run_andThen_ok (reviews_gathers (followable.after comments) reviews)]
    rfl

theorem listComments_complete (c : Client) (now id : Int) :
    Complete (c.answer now (.listComments id)) (c.Gathers now id) shown :=
  .of_ended (fun _ _ => c.exists_gathers now id) fun _ _ _ _ => answer_gathers

end Client

end Github

/-! Notes. -/

namespace Gitlab

open Git

variable {n : Note} {c : Comment}

/-- A note of a user shows as a plain comment, and a record of the system only if it tells of an
approval or that one was withdrawn. -/
inductive Note.Shows (n : Note) : Comment → Prop
  | user (user : n.system = false) :
    Shows n { id := n.id, body := n.body, author := n.author, createdAt := n.createdAt }
  | approved (system : n.system = true) (record : n.body = "approved this merge request") :
    Shows n { id := n.id, body := n.body, author := n.author, createdAt := n.createdAt
              reviewState := some .approved }
  | unapproved (system : n.system = true) (record : n.body = "unapproved this merge request") :
    Shows n { id := n.id, body := n.body, author := n.author, createdAt := n.createdAt
              reviewState := some .unapproved }

theorem Note.toComment?_eq_some_iff : n.toComment? = some c ↔ n.Shows c := by
  unfold Note.toComment?
  constructor
  · intro shown
    split at shown
    · rename_i system
      obtain ⟨state, recorded, rfl⟩ := Option.map_eq_some_iff.mp shown
      unfold recordedReview? at recorded
      split at recorded
      · cases recorded
        exact .approved system ‹_›
      · cases recorded
        exact .unapproved system ‹_›
      · cases recorded
    · rename_i user
      cases shown
      exact .user (Bool.eq_false_of_not_eq_true user)
  · rintro (user | ⟨system, record⟩ | ⟨system, record⟩)
    · rw [user]
      rfl
    · rw [system, record]
      rfl
    · rw [system, record]
      rfl

theorem Note.Shows.plain (shows : n.Shows c) (user : n.system = false) : c.reviewState = none := by
  cases shows with
  | user => rfl
  | approved system => simp [user] at system
  | unapproved system => simp [user] at system

/-- The comments among notes. -/
def shown (notes : List Note) : List Comment := notes.filterMap Note.toComment?

namespace Client

/-- The notes of a merge request are gathered. -/
def Gathers (c : Client) (now id : Int) (next : Response → Option String) (p p' : Peer) :
    Except Git.Error (List Note) → Prop :=
  Http.Gathers c.headers now readNote next (c.url s!"/merge_requests/{id}/notes?sort=desc") p p'

theorem listComments_complete (c : Client) (now id : Int) :
    Complete (c.answer now (.listComments id)) (c.Gathers now id) shown := by
  refine .of_ended (fun next p followable => ?_) fun next p p' things followable gathers => ?_
  · exact ⟨_, _, (getAll_eq_iff_gathers followable).mp rfl⟩
  · have done := (getAll_eq_iff_gathers followable).mpr gathers
    change (getAll c.headers now readNote (c.url s!"/merge_requests/{id}/notes?sort=desc") >>=
      fun notes => pure (newestFirst (shown notes)) : Http.Call (List Comment)) p = _
    cases things with
    | error e =>
      rw [run_andThen_error done]
      rfl
    | ok notes =>
      rw [run_andThen_ok done]
      rfl

end Client

end Gitlab

namespace Git

open Chat

/-- Comments are listed completely, whatever the pages they come on: all that were gathered, each once
and the newest first, or the first error. Two requests that gather the same in another order end alike
if no two comments have the same time and id. Of the reviews those that were submitted are listed, and of
the notes those of users and the records of approvals; only the latter tell of a review. All there is
is gathered where no link to a next page has a comma or a semicolon in its URL. -/
theorem comments_listed {next next' : Response → Option String} {p q : Peer}
    (followable : Followable next p) (followable' : Followable next' q) (now now' id id' : Int) :
    (∀ c : Github.Client,
      (∃ things p', c.Gathers now id next p p' things) ∧
      (∀ things p', c.Gathers now id next p p' things →
        (c.answer now (.listComments id) p).2 = p' ∧
        Delivers (things.map Github.shown) (c.answer now (.listComments id) p).1) ∧
      ∀ (d : Github.Client) p' q' cs cs' rs rs', c.Gathers now id next p p' (.ok (cs, rs)) →
        d.Gathers now' id' next' q q' (.ok (cs', rs')) → cs.Perm cs' → rs.Perm rs' →
        AllDistinct (Github.shown (cs, rs)) →
        (c.answer now (.listComments id) p).1 = (d.answer now' (.listComments id') q).1) ∧
    (∀ c : Gitlab.Client,
      (∃ notes p', c.Gathers now id next p p' notes) ∧
      (∀ notes p', c.Gathers now id next p p' notes →
        (c.answer now (.listComments id) p).2 = p' ∧
        Delivers (notes.map Gitlab.shown) (c.answer now (.listComments id) p).1) ∧
      ∀ (d : Gitlab.Client) p' q' notes notes', c.Gathers now id next p p' (.ok notes) →
        d.Gathers now' id' next' q q' (.ok notes') → notes.Perm notes' →
        AllDistinct (Gitlab.shown notes) →
        (c.answer now (.listComments id) p).1 = (d.answer now' (.listComments id') q).1) ∧
    (∀ (r : Github.Review) c, r.toComment? = some c ↔ r.Shows c) ∧
    (∀ (n : Gitlab.Note) c, (n.toComment? = some c ↔ n.Shows c) ∧
      (n.system = false → n.toComment? = some c → c.reviewState = none)) ∧
    ∀ links : Response → List Link,
      (∀ r, some r ∈ p.script → Link.Carries r.headers (links r)) →
      (Followable (fun r => Link.announced? (links r)) p ↔ ∀ r, some r ∈ p.script →
        ∀ l, (links r).find? Link.isNext = some l → l.isBare = true) := by
  refine ⟨fun c => ?hub, fun c => ?lab, fun _ _ => Github.Review.toComment?_eq_some_iff, ?note,
    fun _ => followable_announced_iff⟩
  case hub =>
    have complete := c.listComments_complete now id
    refine ⟨complete.gathered _ _ followable, fun _ _ => complete.delivered _ _ _ _ followable, ?_⟩
    intro d _ _ _ _ _ _ gathers gathers' comments reviews distinct
    exact complete.agree (d.listComments_complete now' id') followable followable' gathers gathers'
      (Github.shown_perm comments reviews) distinct
  case lab =>
    have complete := c.listComments_complete now id
    refine ⟨complete.gathered _ _ followable, fun _ _ => complete.delivered _ _ _ _ followable, ?_⟩
    intro d _ _ _ _ gathers gathers' same distinct
    exact complete.agree (d.listComments_complete now' id') followable followable' gathers gathers'
      (same.filterMap _) distinct
  case note =>
    intro n c
    refine ⟨Gitlab.Note.toComment?_eq_some_iff, fun user shown => ?_⟩
    exact (Gitlab.Note.toComment?_eq_some_iff.mp shown).plain user

/-! Comments on several pages. -/

deriving instance DecidableEq for Github.Review, Gitlab.Note

/-- A client of a repository. -/
def hub : Github.Client where
  headers := []
  apiUrl := "https://h"
  repository := "o/r"
  webhookSecret := none

/-- A document of the user bob. -/
def byBob (id : Int) (members : List (String × String)) : Json :=
  .obj ([("id", .int id), ("user", .obj [("id", .int 2), ("login", .str "bob")])] ++
    members.map fun m => (m.1, .str m.2))

theorem bob_written (name : String) :
    Json.Written false (.obj [("id", .int 2), (name, .str "bob")]) := by
  refine .obj _ ?_
  simp only [List.forall_mem_cons, List.not_mem_nil, false_implies, implies_true, and_true]
  exact ⟨.int 2 rfl, .str "bob"⟩

theorem byBob_written {id : Int} (small : Json.isInteger id = true)
    (members : List (String × String)) : Json.Written false (byBob id members) := by
  refine .obj _ fun m member => ?_
  rcases List.mem_append.mp member with fixed | text
  · simp only [List.mem_cons, List.not_mem_nil, or_false] at fixed
    rcases fixed with rfl | rfl
    · exact .int id small
    · exact bob_written "login"
  · obtain ⟨m, -, rfl⟩ := List.mem_map.mp text
    exact .str m.2

/-- The document of a comment of the first moment. -/
def comment (id : Int) : Json :=
  byBob id [("body", "text"), ("created_at", "1970-01-01T00:00:00Z")]

/-- The document of an approval of the first moment. -/
def approval (id : Int) : Json :=
  byBob id [("state", "approved"), ("submitted_at", "1970-01-01T00:00:00Z")]

/-- The document of an approval that is not submitted. -/
def pending (id : Int) : Json := byBob id [("state", "approved")]

theorem comment_written {id : Int} (small : Json.isInteger id = true) :
    Json.Written false (comment id) := byBob_written small _

theorem approval_written {id : Int} (small : Json.isInteger id = true) :
    Json.Written false (approval id) := byBob_written small _

theorem pending_written {id : Int} (small : Json.isInteger id = true) :
    Json.Written false (pending id) := byBob_written small _

/-- A review that approves. -/
def approving (id : Int) (submittedAt : Option Instant) : Github.Review where
  id
  body := ""
  author := { id := 2, name := "bob" }
  state := "approved"
  submittedAt

/-- A comment, and three reviews on two pages. -/
def paged : Peer where
  script := [some (page none [comment 2]),
    some (page (some "https://h/more?page=2") [approval 5, pending 6]),
    some (page none [approval 1])]

/-- The comment and the reviews of `paged`, all reviews on one page and in another order. -/
def repaged : Peer where
  script := [some (page none [comment 2]), some (page none [pending 6, approval 1, approval 5])]

/-- A client of a project. -/
def lab : Gitlab.Client where
  headers := []
  projectUrl := "https://h/p"
  repository := "p"
  webhookSecret := none

/-- Where the listings of `hub` and `lab` start. -/
theorem first_pages :
    withPageSize (hub.repoUrl s!"/issues/{(7 : Int)}/comments") =
      .ok "https://h/repos/o/r/issues/7/comments?per_page=100" ∧
    withPageSize (hub.repoUrl s!"/pulls/{(7 : Int)}/reviews") =
      .ok "https://h/repos/o/r/pulls/7/reviews?per_page=100" ∧
    withPageSize (lab.url s!"/merge_requests/{(7 : Int)}/notes?sort=desc") =
      .ok "https://h/p/merge_requests/7/notes?sort=desc&per_page=100" ∧
    (arriving [] (fun _ => true) "https://h/repos/o/r/issues/7/comments?per_page=100").isSome ∧
    (arriving [] (fun _ => true) "https://h/repos/o/r/pulls/7/reviews?per_page=100").isSome ∧
    (arriving [] (fun _ => true)
      "https://h/p/merge_requests/7/notes?sort=desc&per_page=100").isSome := by
  decide +kernel

/-- The links to second pages. -/
theorem second_pages : ∀ url ∈ ["https://h/more?page=2", "https://h/more?after=1,2"],
    (arriving [] (fun _ => true) url).isSome = true ∧
    valueText? (Text.encode (Link.renderAll [⟨url, "next"⟩])) =
      some (Link.renderAll [⟨url, "next"⟩]) ∧
    Link.next? (page (some url) []).headers =
      if url.toList.contains ',' then none else some url := by decide +kernel

section

variable {next : Response → Option String} {p : Peer} {comments reviews more : List Json}
  {cs : List Comment} {rs rs' : List Github.Review} {rest : List (Option Response)}

theorem reached_by {url : String} (connects : p.connects = fun _ => true)
    (reached : (arriving [] (fun _ => true) url).isSome = true) :
    (arriving [] p.connects url).isSome = true := by
  rw [connects]
  exact reached

/-- One page of comments, and one page of reviews. -/
theorem hub_gathers_one {goal : Option String} (connects : p.connects = fun _ => true)
    (script : p.script = some (page none comments) :: some (page goal reviews) :: rest)
    (written : ∀ v ∈ comments ++ reviews, Json.Written false v)
    (each : comments.mapM Github.readComment = some cs)
    (each' : reviews.mapM Github.readReview = some rs) (last : next (page none comments) = none)
    (last' : next (page goal reviews) = none) :
    ∃ p', hub.Gathers 0 7 next p p' (.ok (cs, rs)) := by
  obtain ⟨start, start', -, reached, reached', -⟩ := first_pages
  obtain ⟨here, there⟩ := List.forall_mem_append.mp written
  obtain ⟨q, first, left, kept⟩ := gathers_one start (reached_by connects reached) script here each last
  obtain ⟨p', second, -⟩ := gathers_one start' (reached_by (kept.trans connects) reached') left there
    each' last'
  exact ⟨p', .both first second⟩

/-- One page of comments, and two pages of reviews. -/
theorem hub_gathers_two {url : String} (connects : p.connects = fun _ => true)
    (further : (arriving [] (fun _ => true) url).isSome = true)
    (script : p.script = some (page none comments) :: some (page (some url) reviews) ::
      some (page none more) :: rest)
    (written : ∀ v ∈ comments ++ (reviews ++ more), Json.Written false v)
    (each : comments.mapM Github.readComment = some cs)
    (each' : reviews.mapM Github.readReview = some rs)
    (each'' : more.mapM Github.readReview = some rs') (last : next (page none comments) = none)
    (leads : next (page (some url) reviews) = some url) (last' : next (page none more) = none) :
    ∃ p', hub.Gathers 0 7 next p p' (.ok (cs, rs ++ rs')) := by
  obtain ⟨start, start', -, reached, reached', -⟩ := first_pages
  obtain ⟨here, there⟩ := List.forall_mem_append.mp written
  obtain ⟨q, first, left, kept⟩ := gathers_one start (reached_by connects reached) script here each last
  have connects' : q.connects = fun _ => true := kept.trans connects
  obtain ⟨p', second, -⟩ := gathers_two start' (reached_by connects' reached')
    (reached_by connects' further) left there each' each'' leads last'
  exact ⟨p', .both first second⟩

end

/-- A note of the first moment that says that the merge request was approved. -/
def approvalNote (id : Int) (system : Bool) : Gitlab.Note where
  id
  body := "approved this merge request"
  author := { id := 2, name := "bob" }
  createdAt := default
  system

/-- The document of `approvalNote`. -/
def noteDocument (id : Int) (system : Bool) : Json :=
  .obj [("id", .int id), ("body", .str "approved this merge request"),
    ("author", .obj [("id", .int 2), ("username", .str "bob")]),
    ("created_at", .str "1970-01-01T00:00:00Z"), ("system", .bool system)]

theorem noteDocument_written {id : Int} (small : Json.isInteger id = true) (system : Bool) :
    Json.Written false (noteDocument id system) := by
  refine .obj _ ?_
  simp only [List.forall_mem_cons, List.not_mem_nil, false_implies, implies_true, and_true]
  exact ⟨.int id small, .str _, bob_written "username", .str _, .bool system⟩

/-- The documents are read as what they tell of. -/
theorem documents_read :
    [comment 2].mapM Github.readComment = some [early 2 "text" none] ∧
    [approval 5, pending 6].mapM Github.readReview =
      some [approving 5 (some default), approving 6 none] ∧
    [approval 1].mapM Github.readReview = some [approving 1 (some default)] ∧
    [pending 6, approval 1, approval 5].mapM Github.readReview =
      some [approving 6 none, approving 1 (some default), approving 5 (some default)] ∧
    [noteDocument 1 false, noteDocument 2 true].mapM Gitlab.readNote =
      some [approvalNote 1 false, approvalNote 2 true] ∧
    [noteDocument 2 true, noteDocument 1 false].mapM Gitlab.readNote =
      some [approvalNote 2 true, approvalNote 1 false] ∧
    Github.reviewStateOf? "approved" = some .approved ∧
    Gitlab.recordedReview? "approved this merge request" = some .approved := by decide +kernel

theorem toComment?_approving (id : Int) :
    (approving id (some default)).toComment? = some (early id "" (some .approved)) := by
  obtain ⟨-, -, -, -, -, -, review, -⟩ := documents_read
  unfold Github.Review.toComment?
  exact congrArg (fun state => some (early id "" state)) review

theorem toComment?_approvalNote (id : Int) (system : Bool) :
    (approvalNote id system).toComment? = some (early id "approved this merge request"
      (if system then some .approved else none)) := by
  obtain ⟨-, -, -, -, -, -, -, record⟩ := documents_read
  cases system with
  | false => rfl
  | true => exact congrArg (Option.map fun state => early id _ (some state)) record

theorem paged_gathers : ∃ p', hub.Gathers 0 7 (toNext "https://h/more?page=2") paged p'
    (.ok ([early 2 "text" none],
      [approving 5 (some default), approving 6 none, approving 1 (some default)])) := by
  obtain ⟨comments, reviews, more, -⟩ := documents_read
  refine hub_gathers_two rfl (second_pages _ (by simp)).1 rfl ?_ comments reviews more rfl (by decide)
    rfl
  simpa using ⟨comment_written (by decide), approval_written (by decide), pending_written (by decide),
    approval_written (by decide)⟩

theorem repaged_gathers : ∃ p', hub.Gathers 0 7 (Link.next? ·.headers) repaged p'
    (.ok ([early 2 "text" none],
      [approving 6 none, approving 1 (some default), approving 5 (some default)])) := by
  obtain ⟨comments, -, -, reviews, -⟩ := documents_read
  refine hub_gathers_one rfl rfl ?_ comments reviews rfl rfl
  simpa using ⟨comment_written (by decide), pending_written (by decide), approval_written (by decide),
    approval_written (by decide)⟩

theorem paged_followable : Followable (toNext "https://h/more?page=2") paged := by
  refine (followable_announced_iff ?_).mpr fun r given l first => ?_
  · refine page_carries (by decide) (by decide) (second_pages _ (by simp)).2.1 ?_
    simp only [paged, List.forall_mem_cons, List.not_mem_nil, false_implies, implies_true, and_true]
    exact ⟨⟨_, .inr rfl⟩, ⟨_, .inl rfl⟩, ⟨_, .inr rfl⟩⟩
  · rw [find?_pageLinks first]
    decide

/-- What is listed of `paged` and `repaged`. -/
def listing : List Comment :=
  [early 5 "" (some .approved), early 2 "text" none, early 1 "" (some .approved)]

theorem shown_paged :
    Github.shown ([early 2 "text" none],
      [approving 5 (some default), approving 6 none, approving 1 (some default)]) =
        [early 2 "text" none, early 5 "" (some .approved), early 1 "" (some .approved)] := by
  have silent : (approving 6 none).toComment? = none := rfl
  simp [Github.shown, toComment?_approving, silent]

theorem listing_lists :
    Lists [early 2 "text" none, early 5 "" (some .approved), early 1 "" (some .approved)]
      listing := by
  refine ⟨by decide, ?_⟩
  simp only [listing, List.pairwise_cons, List.forall_mem_cons, List.not_mem_nil, false_implies,
    implies_true, and_true, List.Pairwise.nil]
  exact ⟨⟨early_le (by decide), early_le (by decide)⟩, early_le (by decide)⟩

/-- A page with two notes. -/
def noted (first second : Json) : Peer where
  script := [some (page none [first, second])]

theorem noted_gathers (first second : Json) (notes : List Gitlab.Note)
    (written : Json.Written false first ∧ Json.Written false second)
    (each : [first, second].mapM Gitlab.readNote = some notes) :
    ∃ p', lab.Gathers 0 7 (Link.next? ·.headers) (noted first second) p' (.ok notes) := by
  obtain ⟨-, -, start, -, -, reached⟩ := first_pages
  obtain ⟨p', gathers, -⟩ : ∃ p', Gathers [] 0 Gitlab.readNote (Link.next? ·.headers) _ _ p' _ ∧ _ :=
    gathers_one start (p := noted first second) reached rfl (by simpa using written) each rfl
  exact ⟨p', gathers⟩

/-- What is listed of the same note of a user and of the system. -/
def approvals : List Comment :=
  [early 2 "approved this merge request" (some .approved),
    early 1 "approved this merge request" none]

theorem shown_notes : Gitlab.shown [approvalNote 1 false, approvalNote 2 true] =
    [early 1 "approved this merge request" none,
      early 2 "approved this merge request" (some .approved)] := by
  simp [Gitlab.shown, toComment?_approvalNote]

theorem approvals_lists :
    Lists [early 1 "approved this merge request" none,
      early 2 "approved this merge request" (some .approved)] approvals := by
  refine ⟨by decide, ?_⟩
  simp only [approvals, List.pairwise_cons, List.forall_mem_cons, List.not_mem_nil, false_implies,
    implies_true, and_true, List.Pairwise.nil]
  exact early_le (by decide)

theorem comments_listed_repaged :
    (hub.answer 0 (.listComments 7) paged).1 = .ok listing ∧
    (hub.answer 0 (.listComments 7) repaged).1 = .ok listing ∧
    (lab.answer 0 (.listComments 7) (noted (noteDocument 1 false) (noteDocument 2 true))).1 =
      .ok approvals ∧
    (lab.answer 0 (.listComments 7) (noted (noteDocument 2 true) (noteDocument 1 false))).1 =
      .ok approvals := by
  obtain ⟨hubs, -⟩ := comments_listed paged_followable (followable_own repaged) 0 0 7 7
  obtain ⟨-, labs, -⟩ := comments_listed
    (followable_own (noted (noteDocument 1 false) (noteDocument 2 true)))
    (followable_own (noted (noteDocument 2 true) (noteDocument 1 false))) 0 0 7 7
  obtain ⟨-, delivered, agree⟩ := hubs hub
  obtain ⟨-, delivered', agree'⟩ := labs lab
  obtain ⟨-, -, -, -, first, second, -⟩ := documents_read
  obtain ⟨p', gathers⟩ := paged_gathers
  obtain ⟨q', gathers'⟩ := repaged_gathers
  obtain ⟨n', notes⟩ := noted_gathers _ _ _
    ⟨noteDocument_written (by decide) _, noteDocument_written (by decide) _⟩ first
  obtain ⟨m', notes'⟩ := noted_gathers _ _ _
    ⟨noteDocument_written (by decide) _, noteDocument_written (by decide) _⟩ second
  have distinct : AllDistinct (Github.shown ([early 2 "text" none],
      [approving 5 (some default), approving 6 none, approving 1 (some default)])) := by
    rw [shown_paged]
    unfold AllDistinct
    decide
  have distinct' : AllDistinct (Gitlab.shown [approvalNote 1 false, approvalNote 2 true]) := by
    rw [shown_notes]
    unfold AllDistinct
    decide
  obtain ⟨-, listed, ended, lists⟩ := delivered _ _ gathers
  obtain ⟨-, listed', ended', lists'⟩ := delivered' _ _ notes
  obtain rfl : listed = listing := lists.unique distinct listing_lists (.of_eq shown_paged)
  obtain rfl : listed' = approvals := lists'.unique distinct' approvals_lists (.of_eq shown_notes)
  refine ⟨ended, ?_, ended', ?_⟩
  · rw [← ended]
    exact (agree hub p' q' _ _ _ _ gathers gathers' (.refl _) (by decide) distinct).symm
  · rw [← ended']
    exact (agree' lab n' m' _ _ notes notes' (.swap _ _ _) distinct').symm

/-- A review on the second page. -/
def behindLink (goal : String) : Peer where
  script := [some (page none []), some (page (some goal) []), some (page none [approval 1])]

/-- The review of `behindLink` on the first page. -/
def inFront : Peer where
  script := [some (page none []), some (page none [approval 1])]

/-- Two peers have no comments and the same review. The one that has it on a page whose URL has a comma
in it is taken to have none. -/
theorem review_lost :
    (∀ r, some r ∈ (behindLink "https://h/more?after=1,2").script →
      Link.Carries r.headers (pageLinks "https://h/more?after=1,2" r)) ∧
    (∃ p', hub.Gathers 0 7 (fun r => Link.announced? (pageLinks "https://h/more?after=1,2" r))
      (behindLink "https://h/more?after=1,2") p' (.ok ([], [approving 1 (some default)]))) ∧
    (∃ p', hub.Gathers 0 7 (Link.next? ·.headers) inFront p'
      (.ok ([], [approving 1 (some default)]))) ∧
    (hub.answer 0 (.listComments 7) (behindLink "https://h/more?after=1,2")).1 = .ok [] ∧
    (hub.answer 0 (.listComments 7) inFront).1 = .ok [early 1 "" (some .approved)] := by
  obtain ⟨-, -, review, -⟩ := documents_read
  obtain ⟨further, visible, lost⟩ := second_pages "https://h/more?after=1,2" (by simp)
  have written : ∀ v ∈ [approval 1], Json.Written false v := by
    simpa using approval_written (by decide)
  have behind : ∃ p', hub.Gathers 0 7 (toNext "https://h/more?after=1,2")
      (behindLink "https://h/more?after=1,2") p' (.ok ([], [] ++ [approving 1 (some default)])) :=
    hub_gathers_two rfl further rfl written rfl rfl review rfl (by decide) rfl
  obtain ⟨p', less⟩ : ∃ p', hub.Gathers 0 7 (Link.next? ·.headers)
      (behindLink "https://h/more?after=1,2") p' (.ok ([], [])) :=
    hub_gathers_one rfl rfl (by simp) rfl rfl rfl lost
  have front : ∃ p', hub.Gathers 0 7 (Link.next? ·.headers) inFront p'
      (.ok ([], [approving 1 (some default)])) :=
    hub_gathers_one rfl rfl written rfl review rfl rfl
  refine ⟨?_, behind, front, ?_, ?_⟩
  · refine page_carries (by decide) (by decide) visible ?_
    simp only [behindLink, List.forall_mem_cons, List.not_mem_nil, false_implies, implies_true,
      and_true]
    exact ⟨⟨_, .inr rfl⟩, ⟨_, .inl rfl⟩, ⟨_, .inr rfl⟩⟩
  · rw [Github.Client.answer_gathers (followable_own _) less]
    exact congrArg Except.ok newestFirst_nil
  · obtain ⟨q', gathers⟩ := front
    have seen : Github.shown ([], [approving 1 (some default)]) = [early 1 "" (some .approved)] := by
      simp [Github.shown, toComment?_approving]
    rw [Github.Client.answer_gathers (followable_own _) gathers, Except.map, seen,
      newestFirst_single]

end Git

end Gatehouse
