import Gatehouse.Proofs.Chat.Refusal
import Gatehouse.Proofs.Program.Interleaving

/-!
# Two moves of the label at the same time

A refused move of the label is handled in two steps: the handler looks whether the label is there, and
later puts it the other way. `Touch` keeps of the questions of a handler just what they do with the
label. If two moves are handled at the same time, the label ends as it was unless both handlers look
before either puts it (`lastPut_woven`); then both put it the same way.
-/

namespace Gatehouse.Chat

open Git Program

/-- What a question does with the label of a pull request. -/
inductive Touch
  | sees (there : Bool)
  | puts (on : Bool)
  deriving DecidableEq

/-- Every look sees the label as it was put last. -/
def Faithful : Bool → List Touch → Prop
  | _, [] => True
  | there, .sees seen :: ts => seen = there ∧ Faithful there ts
  | _, .puts on :: ts => Faithful on ts

/-- How the label was put last, if it was put at all. -/
def lastPut : List Touch → Option Bool
  | [] => none
  | .sees _ :: ts => lastPut ts
  | .puts on :: ts => lastPut ts <|> some on

/-- Was the label looked at twice before it was put? -/
def overlapping : List Touch → Bool
  | .sees _ :: .sees _ :: _ => true
  | _ => false

theorem lastPut_append (ts us : List Touch) :
    lastPut (ts ++ us) = (lastPut us <|> lastPut ts) := by
  induction ts with
  | nil => simp [lastPut]
  | cons t ts ih =>
    cases t with
    | sees there => simp [lastPut, ih]
    | puts on =>
      simp only [List.cons_append, lastPut, ih]
      cases lastPut us <;> simp

theorem faithful_append {there : Bool} {ts us : List Touch} :
    Faithful there (ts ++ us) ↔
      Faithful there ts ∧ Faithful ((lastPut ts).getD there) us := by
  induction ts generalizing there with
  | nil => simp [Faithful, lastPut]
  | cons t ts ih =>
    cases t with
    | sees seen => simp [Faithful, lastPut, ih, and_assoc]
    | puts on =>
      simp only [List.cons_append, Faithful, lastPut, ih]
      cases lastPut ts <;> simp

/-- Two handlers put the label the other way than they see it. That leaves it as it was, unless they
overlap. -/
theorem lastPut_woven {seen seen' there : Bool} {ts : List Touch}
    (woven : Woven [.sees seen, .puts (!seen)] [.sees seen', .puts (!seen')] ts)
    (faithful : Faithful there ts) :
    lastPut ts = some (if overlapping ts then !there else there) := by
  -- In the four orders that begin with both looks the same is put twice; in the other two the second
  -- handler sees what the first one put, and puts it back.
  rcases woven_pairs woven with rfl | rfl | rfl | rfl | rfl | rfl
  all_goals simp_all [Faithful, lastPut, overlapping]

/-- A question about the approval of a pull request, as handling a move of the label asks it. -/
inductive OnLabel (id : Int) : Query → Prop
  | look : OnLabel id (.listLabels id)
  | rights (user : User) : OnLabel id (.canUserWrite user)
  | on : OnLabel id (.setLabel .pullRequest id approvedLabel)
  | off : OnLabel id (.deleteLabel .pullRequest id approvedLabel)
  | notice (text : String) : OnLabel id (.registerComment .pullRequest id text)

/-- An operation with its outcome. -/
abbrev Operation : Type := Program.Event Query.Outcome

/-- What such a question does with the label. A look that fails sees nothing. -/
def touch? : Operation → Option Touch
  | ⟨.listLabels _, .ok labels⟩ => some (.sees (labels.any (·.name == approvedLabel)))
  | ⟨.setLabel _ _ _, _⟩ => some (.puts true)
  | ⟨.deleteLabel _ _ _, _⟩ => some (.puts false)
  | _ => none

/-- The label is looked at without failure, and rights are told as they are. -/
def Truthful (v : View) (repository : String) : Operation → Prop
  | ⟨.listLabels _, r⟩ => ∃ labels, r = .ok labels
  | ⟨.canUserWrite user, r⟩ => r = .ok (v.mayWrite repository user.name)
  | _ => True

variable {s s' : Store} {v : View} {repository : String} {id : Int} {set : Finset String}
  {pr : PullRequest} {user : User} {e : Operation} {es : List Operation}

/-- What a question about the label is answered with by a repository that answers, and what it leaves. -/
theorem onLabel_step (answers : s.view.Answers repository)
    (stored : s.view.labels repository id = some set) (about : OnLabel id e.1)
    (h : Store.May repository e.1 s e.2 s') :
    Truthful s.view repository e ∧
    Faithful (decide (approvedLabel ∈ set)) (touch? e).toList ∧
    Shift repository id False (settle (lastPut (touch? e).toList)) s.view s'.view := by
  obtain ⟨q, r⟩ := e
  cases about with
  | look =>
    obtain ⟨pr, there, rfl⟩ := Option.map_eq_some_iff.mp stored
    obtain ⟨view, labels⟩ := listLabels_answered answers h
    rw [there] at labels
    obtain rfl := labels
    have seen : pr.hasLabel approvedLabel = decide (approvedLabel ∈ pr.labelSet) := by
      simp [mem_labelSet]
    refine ⟨⟨pr.labels, rfl⟩, ⟨seen, trivial⟩, ?_⟩
    rw [view]
    exact .refl _
  | rights user =>
    obtain ⟨rfl, view⟩ := canUserWrite_answered answers h
    refine ⟨rfl, trivial, ?_⟩
    rw [view]
    exact .refl _
  | on =>
    refine ⟨trivial, trivial, ?_⟩
    rw [(setLabel_answered answers h).1]
    exact .change fun _ => labelSet_withLabel
  | off =>
    refine ⟨trivial, trivial, ?_⟩
    rw [(deleteLabel_answered answers h).1]
    exact .change fun _ => labelSet_withoutLabel
  | notice text =>
    refine ⟨trivial, trivial, ?_⟩
    rcases registerComment_answered answers h with same | ⟨c, -, plain, view⟩
    · rw [same]
      exact .refl _
    · rw [view]
      exact .post False.elim plain

theorem onLabel_run (answers : s.view.Answers repository)
    (stored : s.view.labels repository id = some set) (about : ∀ e ∈ es, OnLabel id e.1)
    (follows : Follows (Store.May repository) s es s') :
    (∀ e ∈ es, Truthful s.view repository e) ∧
    Faithful (decide (approvedLabel ∈ set)) (es.filterMap touch?) ∧
    Shift repository id False (settle (lastPut (es.filterMap touch?))) s.view s'.view := by
  induction follows generalizing set with
  | nil s => exact ⟨by simp, trivial, .refl _⟩
  | @cons q r s s₁ s' es answered follows ih =>
    obtain ⟨first, later⟩ := List.forall_mem_cons.mp about
    obtain ⟨truthful, faithful, shift⟩ := onLabel_step answers stored first answered
    have stored₁ : s₁.view.labels repository id =
        some (settle (lastPut (touch? ⟨q, r⟩).toList) set) := by
      rw [shift.labels, relabel_self, stored, Option.map_some]
    obtain ⟨truthfuls, faithfuls, shifts⟩ := ih (shift.answers answers) stored₁ later
    -- The later looks see the label as the first operation left it.
    have split : (⟨q, r⟩ :: es : List Operation).filterMap touch? =
        (touch? ⟨q, r⟩).toList ++ es.filterMap touch? := by
      cases touched : touch? ⟨q, r⟩ <;> simp [touched]
    rw [split, faithful_append, lastPut_append, settle_orElse]
    refine ⟨?_, ⟨faithful, ?_⟩, shift.trans shifts⟩
    · intro e member
      rcases List.mem_cons.mp member with rfl | member
      · exact truthful
      · have told := truthfuls e member
        unfold Truthful View.mayWrite at told ⊢
        rwa [shift.rights] at told
    · rwa [decide_mem_settle] at faithfuls

@[simp] theorem path_asked {q : Query} {r : q.Outcome} :
    Path (Git.ask q).run es r ↔ es = [⟨q, r⟩] := path_query

theorem path_attempt {α : Type} {action : Action α} {r : Except Error (Except Error α)} :
    Path (Git.attempt action).run es r ↔ ∃ o, r = .ok o ∧ Path action.run es o := by
  constructor
  · intro path
    obtain ⟨first, o, second, rfl, tried, ended⟩ := path_bind.mp path
    obtain ⟨rfl, rfl⟩ := path_done.mp ended
    exact ⟨o, rfl, by simpa using tried⟩
  · rintro ⟨o, rfl, tried⟩
    have whole : Path (Git.attempt action).run (es ++ []) (.ok o) :=
      Path.bind tried (.done _)
    simpa using whole

theorem asks_handleLabelEvent :
    (Approval.handleLabelEvent repository pr user).run.Asks (OnLabel pr.id) := by
  have looks : (Approval.isLabeled pr).run.Asks (OnLabel pr.id) :=
    Asks.andThen ⟨.look, fun _ => trivial⟩ fun _ => trivial
  have rights : (Approval.refusal? repository user pr.author).run.Asks (OnLabel pr.id) := by
    have authorizes : (Approval.authorize repository user pr.author).run.Asks (OnLabel pr.id) := by
      unfold Approval.authorize
      split
      · trivial
      · refine Asks.andThen ⟨.rights user, fun _ => trivial⟩ fun may => ?_
        cases may <;> trivial
    refine Asks.andThen (Asks.bind authorizes fun _ => trivial) fun outcome => ?_
    split <;> trivial
  have tells (text : String) : (Approval.notify pr text).run.Asks (OnLabel pr.id) :=
    ⟨.notice text, fun _ => trivial⟩
  unfold Approval.handleLabelEvent
  split
  · refine Asks.andThen looks fun labeled => Asks.andThen rights fun refused => ?_
    cases refused with
    | none => trivial
    | some name =>
      cases labeled with
      | true => exact Asks.andThen ⟨.off, fun _ => trivial⟩ fun _ => tells _
      | false => exact Asks.andThen ⟨.on, fun _ => trivial⟩ fun _ => tells _
  · trivial

theorem path_isLabeled {r : Except Error Bool} (path : Path (Approval.isLabeled pr).run es r) :
    ∃ a, es = [⟨.listLabels pr.id, a⟩] ∧ r = a.map fun ls => ls.any (·.name == approvedLabel) := by
  rcases path_andThen.mp path with ⟨e, rfl, asked⟩ | ⟨first, labels, second, rfl, asked, rest⟩
  · exact ⟨.error e, path_asked.mp asked, rfl⟩
  · obtain rfl := path_asked.mp asked
    obtain ⟨rfl, rfl⟩ := path_done.mp rest
    exact ⟨.ok labels, rfl, rfl⟩

theorem path_authorize {author : User} {r : Except Error Unit}
    (refused : mayApprove v repository user author = false)
    (path : Path (Approval.authorize repository user author).run es r)
    (truthful : ∀ e ∈ es, Truthful v repository e) :
    r = .error (.unauthorized user.name repository) ∧ es.filterMap touch? = [] := by
  unfold Approval.authorize at path
  rcases mayApprove_eq_false.mp refused with same | denied
  · rw [if_pos same] at path
    obtain ⟨rfl, rfl⟩ := path_done.mp path
    exact ⟨rfl, rfl⟩
  · split at path
    · obtain ⟨rfl, rfl⟩ := path_done.mp path
      exact ⟨rfl, rfl⟩
    · rcases path_andThen.mp path with ⟨e, rfl, asked⟩ | ⟨first, may, second, rfl, asked, rest⟩
      · obtain rfl := path_asked.mp asked
        simp [Truthful] at truthful
      · obtain rfl := path_asked.mp asked
        have told : Truthful v repository ⟨.canUserWrite user, .ok may⟩ :=
          truthful _ (by simp)
        obtain rfl : may = false := (Except.ok.inj told).trans denied
        obtain ⟨rfl, rfl⟩ := path_done.mp rest
        exact ⟨rfl, rfl⟩

theorem path_refusal? {author : User} {r : Except Error (Option String)}
    (refused : mayApprove v repository user author = false)
    (path : Path (Approval.refusal? repository user author).run es r)
    (truthful : ∀ e ∈ es, Truthful v repository e) :
    r = .ok (some user.name) ∧ es.filterMap touch? = [] := by
  unfold Approval.refusal? at path
  rcases path_andThen.mp path with ⟨e, rfl, tried⟩ | ⟨first, o, second, rfl, tried, rest⟩
  · obtain ⟨o, impossible, -⟩ := path_attempt.mp tried
    cases impossible
  · obtain ⟨o', same, authorized⟩ := path_attempt.mp tried
    obtain rfl := Except.ok.inj same
    obtain ⟨rfl, untouched⟩ := path_authorize refused authorized fun e member =>
      truthful e (by simp [member])
    obtain ⟨rfl, rfl⟩ := path_done.mp rest
    exact ⟨rfl, by simp [untouched]⟩

theorem touched_label {es : List Operation} {r : Except Error Unit}
    (path : Path (Approval.label pr).run es r) : es.filterMap touch? = [.puts true] := by
  obtain rfl := path_asked.mp path
  rfl

theorem touched_unlabel {es : List Operation} {r : Except Error Unit}
    (path : Path (Approval.unlabel pr).run es r) : es.filterMap touch? = [.puts false] := by
  obtain rfl := path_asked.mp path
  rfl

/-- The notice of a turn does nothing with the label, so it does not matter whether it is sent. -/
theorem touched_andNotify {t : Touch} {notice : String} {r : Except Error Unit}
    {turn : Action Unit} (turns : ∀ es r, Path turn.run es r → es.filterMap touch? = [t])
    (path : Path (do turn; Approval.notify pr notice : Action Unit).run es r) :
    es.filterMap touch? = [t] := by
  rcases path_andThen.mp path with ⟨e, rfl, turned⟩ | ⟨first, _, second, rfl, turned, told⟩
  · exact turns _ _ turned
  · have silent : second.filterMap touch? = [] := by
      obtain rfl := path_asked.mp told
      rfl
    rw [List.filterMap_append, turns _ _ turned, silent, List.append_nil]

theorem touched_handleLabelEvent {r : Except Error Unit}
    (moved : pr.labelChanged.any (·.name == approvedLabel) = true)
    (refused : mayApprove v repository user pr.author = false)
    (path : Path (Approval.handleLabelEvent repository pr user).run es r)
    (truthful : ∀ e ∈ es, Truthful v repository e) :
    ∃ seen, es.filterMap touch? = [.sees seen, .puts (!seen)] := by
  unfold Approval.handleLabelEvent at path
  rw [if_pos moved] at path
  rcases path_andThen.mp path with ⟨e, rfl, looked⟩ | ⟨first, labeled, second, rfl, looked, rest⟩
  · obtain ⟨a, rfl, failed⟩ := path_isLabeled looked
    obtain ⟨labels, rfl⟩ := truthful _ (List.mem_singleton_self _)
    cases failed
  obtain ⟨a, rfl, seen⟩ := path_isLabeled looked
  cases a with
  | error e => cases seen
  | ok labels =>
    have look : touch? ⟨.listLabels pr.id, .ok labels⟩ = some (.sees labeled) :=
      congrArg (fun there => some (Touch.sees there)) (Except.ok.inj seen).symm
    have truthful₂ : ∀ e ∈ second, Truthful v repository e :=
      fun e member => truthful e (by simp [member])
    rcases path_andThen.mp rest with ⟨e, rfl, asked⟩ | ⟨third, o, fourth, rfl, asked, turned⟩
    · obtain ⟨impossible, -⟩ := path_refusal? refused asked truthful₂
      cases impossible
    obtain ⟨refusal, untouched⟩ := path_refusal? refused asked fun e member =>
      truthful₂ e (by simp [member])
    obtain rfl := Except.ok.inj refusal
    have put : fourth.filterMap touch? = [.puts (!labeled)] := by
      cases labeled with
      | true => exact touched_andNotify (fun _ _ => touched_unlabel) turned
      | false => exact touched_andNotify (fun _ _ => touched_label) turned
    refine ⟨labeled, ?_⟩
    rw [List.filterMap_append, List.filterMap_append, untouched, put]
    simp [look]

/-- Someone moved the label of a pull request who may not approve it. -/
structure RefusedMove (v : View) (repository : String) (id : Int) (w : Webhook) : Prop where
  type : w.eventType = .pullRequestChanged
  subject : ∃ pr, subject? w = some pr ∧ pr.id = id ∧
    mayApprove v repository w.sender pr.author = false

/-- The move of a label is dispatched to the plugin and to no handler. -/
theorem path_dispatch_moved {w : Webhook} {o : Outcome} (type : w.eventType = .pullRequestChanged)
    (subject : subject? w = some pr) (path : Path ((defaultDispatcher repository).dispatch w) es o) :
    ∃ r, Path (Approval.handleLabelEvent repository pr w.sender).run es r := by
  obtain ⟨here, action, -⟩ := (subject?_moved type).mp subject
  rw [Dispatcher.dispatch, calls_default, approvalCommands_nil (by rw [type]; decide),
    handle_moved type here action] at path
  obtain ⟨first, r, second, rfl, handled, rest⟩ := path_bind.mp path
  obtain ⟨rfl, -⟩ := path_done.mp rest
  exact ⟨r, by simpa using handled⟩

theorem RefusedMove.asks {w : Webhook} {o : Outcome} (move : RefusedMove v repository id w)
    (path : Path ((defaultDispatcher repository).dispatch w) es o) :
    ∀ e ∈ es, OnLabel id e.1 := by
  obtain ⟨pr, subject, rfl, -⟩ := move.subject
  obtain ⟨r, handled⟩ := path_dispatch_moved move.type subject path
  exact asks_handleLabelEvent.path handled

theorem RefusedMove.touched {w : Webhook} {o : Outcome} (move : RefusedMove v repository id w)
    (path : Path ((defaultDispatcher repository).dispatch w) es o)
    (truthful : ∀ e ∈ es, Truthful v repository e) :
    ∃ seen, es.filterMap touch? = [.sees seen, .puts (!seen)] := by
  obtain ⟨pr, subject, rfl, refused⟩ := move.subject
  obtain ⟨r, handled⟩ := path_dispatch_moved move.type subject path
  obtain ⟨-, -, moved⟩ := (subject?_moved move.type).mp subject
  exact touched_handleLabelEvent moved refused handled truthful

/-- Two refused moves that are handled at the same time. -/
theorem moves_woven {w₁ w₂ : Webhook} {o₁ o₂ : Outcome} {es₁ es₂ : List Operation}
    (answers : s.view.Answers repository) (stored : s.view.labels repository id = some set)
    (move₁ : RefusedMove s.view repository id w₁) (move₂ : RefusedMove s.view repository id w₂)
    (path₁ : Path ((defaultDispatcher repository).dispatch w₁) es₁ o₁)
    (path₂ : Path ((defaultDispatcher repository).dispatch w₂) es₂ o₂)
    (woven : Woven es₁ es₂ es) (follows : Follows (Store.May repository) s es s') :
    s'.view.labels = relabel repository id
      (if overlapping (es.filterMap touch?) then flip else fun set => set) s.view.labels := by
  have about : ∀ e ∈ es, OnLabel id e.1 := by
    intro e member
    rcases woven.mem_iff.mp member with member | member
    · exact move₁.asks path₁ e member
    · exact move₂.asks path₂ e member
  obtain ⟨truthful, faithful, shift⟩ := onLabel_run answers stored about follows
  obtain ⟨seen₁, touched₁⟩ := move₁.touched path₁ fun e member =>
    truthful e (woven.mem_iff.mpr (.inl member))
  obtain ⟨seen₂, touched₂⟩ := move₂.touched path₂ fun e member =>
    truthful e (woven.mem_iff.mpr (.inr member))
  have touches := woven.filterMap touch?
  rw [touched₁, touched₂] at touches
  rw [shift.labels, lastPut_woven touches faithful]
  refine relabel_congr fun set' found => ?_
  obtain rfl : set = set' := Option.some.inj (stored.symm.trans found)
  cases overlapping (es.filterMap touch?) with
  | true => simp [settle, flip]
  | false =>
    by_cases there : approvedLabel ∈ set
    · simp [settle, there, place_of_mem]
    · simp [settle, there, place_of_not_mem]

end Gatehouse.Chat
