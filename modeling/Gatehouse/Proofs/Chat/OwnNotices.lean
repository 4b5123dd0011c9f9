import Gatehouse.Proofs.Chat.Handling

/-!
# Approval and its own notices

A notice about a user whose name stays on one line holds no command. So the event of a comment with
such a notice is not answered, and a history says the same with and without comments of that kind.
Whatever approval writes for an event is such a notice (`dispatch_discreet`), as long as clients leave it
to approval to call a user unauthorized (`Unjudged`). Together: approval does not answer what it wrote
itself (`notices_unheard`).
-/

namespace Gatehouse.Chat

open Git Program

/-- The texts that approval writes, about users whose names stay on one line. -/
inductive IsNotice : String → Prop
  | unauthorized {user : String} (whole : OneLine user.toList) :
      IsNotice (unauthorizedNotice user)
  | approved {user : String} (whole : OneLine user.toList) : IsNotice (approvedNotice user)
  | canceled {user : String} (whole : OneLine user.toList) : IsNotice (canceledNotice user)
  | help : IsNotice helpNotice

/-- A comment as approval leaves it: a notice, and no review (`registerComment_answered`). -/
def IsOwn (c : Comment) : Prop := IsNotice c.body ∧ c.reviewState = none

/-- The second history is the first one with comments of approval's own put in anywhere. -/
inductive Annotated : List Comment → List Comment → Prop
  | nil : Annotated [] []
  | kept (c : Comment) {cs cs' : List Comment} : Annotated cs cs' → Annotated (c :: cs) (c :: cs')
  | own {c : Comment} {cs cs' : List Comment} : IsOwn c → Annotated cs cs' →
      Annotated cs (c :: cs')

variable {α β : Type} {repository body : String} {w : Webhook} {c : Comment}
  {cs cs' : List Comment} {pr : PullRequest} {sender author : User}

theorem IsNotice.commandless (notice : IsNotice body) : extractCommands body = [] := by
  cases notice with
  | unauthorized whole => exact extractCommands_unauthorizedNotice whole
  | approved whole => exact extractCommands_approvedNotice whole
  | canceled whole => exact extractCommands_canceledNotice whole
  | help => exact extractCommands_helpNotice

/-- A comment event without commands leads to no question. -/
theorem dispatch_commandless (type : w.eventType = .commentCreated) (here : w.comment = some c)
    (commandless : extractCommands c.body = []) :
    (defaultDispatcher repository).dispatch w = pure (.ok ()) := by
  have none : approvalCommands w = [] := by
    rw [approvalCommands, Dispatcher.commandsOf, if_pos type, here]
    simp only [commandless, List.filter_nil]
  rw [Dispatcher.dispatch, calls_default, handle_comment type, none]
  exact runAll_pure (by simp)

theorem approvalVerdict_annotated (annotated : Annotated cs cs') :
    approvalVerdict cs' = approvalVerdict cs := by
  induction annotated with
  | nil => rfl
  | kept c _ ih => rw [approvalVerdict_cons, approvalVerdict_cons, ih]
  | own written _ ih =>
    obtain ⟨notice, plain⟩ := written
    rw [approvalVerdict_cons, signal?_silent (silent_of_nil notice.commandless) plain, ih]
    rfl

/-! What approval writes. -/

/-- A client answers whether a user may write, or fails; it does not call anybody unauthorized. -/
def Unjudged : Event Query.Outcome → Prop
  | ⟨.canUserWrite _, r⟩ => ∀ user repository, r ≠ .error (.unauthorized user repository)
  | _ => True

/-- If a comment is written, it is a notice. -/
def WritesNotice : Query → Prop
  | .registerComment _ _ body => IsNotice body
  | _ => True

/-- The program writes nothing but notices, and ends with a result that satisfies `post`. -/
def Discreet (p : Program Query Query.Outcome α) (post : α → Prop) : Prop :=
  ∀ es r, Path p es r → (∀ e ∈ es, Unjudged e) → (∀ e ∈ es, WritesNotice e.1) ∧ post r

section Discreet

variable {p : Program Query Query.Outcome α} {f : α → Program Query Query.Outcome β}
  {x : Action α} {g : α → Action β} {q : Query}

theorem discreet_done {a : α} {post : α → Prop} (ends : post a) :
    Discreet (.done a) post := by
  intro es r path _
  obtain ⟨rfl, rfl⟩ := path_done.mp path
  exact ⟨by simp, ends⟩

theorem discreet_ask (writes : WritesNotice q) :
    Discreet (Git.ask q).run fun r => Unjudged ⟨q, r⟩ := by
  intro es r path unjudged
  obtain rfl := path_query.mp path
  exact ⟨by simpa using writes, unjudged _ List.mem_cons_self⟩

theorem Discreet.bind {post : α → Prop} {post' : β → Prop} (h : Discreet p post)
    (h' : ∀ a, post a → Discreet (f a) post') : Discreet (p.bind f) post' := by
  intro es r path unjudged
  obtain ⟨first, a, second, rfl, before, after⟩ := path_bind.mp path
  obtain ⟨early, late⟩ := List.forall_mem_append.mp unjudged
  obtain ⟨notices, between⟩ := h first a before early
  obtain ⟨more, ends⟩ := h' a between second r after late
  exact ⟨List.forall_mem_append.mpr ⟨notices, more⟩, ends⟩

theorem Discreet.andThen {post : Except Error α → Prop} {post' : Except Error β → Prop}
    (h : Discreet x.run post) (h' : ∀ a, post (.ok a) → Discreet (g a).run post')
    (failed : ∀ e, post (.error e) → post' (.error e)) : Discreet (x >>= g).run post' := by
  refine h.bind fun r between => ?_
  cases r with
  | ok a => exact h' a between
  | error e => exact discreet_done (failed e between)

theorem Discreet.next {post : Except Error α → Prop} (h : Discreet x.run post)
    (h' : ∀ a, post (.ok a) → Discreet (g a).run fun _ => True) :
    Discreet (x >>= g).run fun _ => True :=
  h.andThen h' fun _ _ => trivial

theorem asks_discreet (writes : WritesNotice q) : Discreet (Git.ask q).run fun _ => True :=
  fun es r path unjudged => ⟨(discreet_ask writes es r path unjudged).1, trivial⟩

theorem Discreet.attempt {post : Except Error α → Prop} (h : Discreet x.run post) :
    Discreet (Git.attempt x).run fun r => ∃ o, r = .ok o ∧ post o :=
  h.bind fun o ends => discreet_done ⟨o, rfl, ends⟩

end Discreet

/-- Nobody is called unauthorized but the sender. -/
theorem authorize_discreet :
    Discreet (Approval.authorize repository sender author).run fun r =>
      ∀ user repo, r = .error (.unauthorized user repo) → user = sender.name := by
  unfold Approval.authorize
  have blamed (user repo : String) : (.error (.unauthorized sender.name repository) :
      Except Error Unit) = .error (.unauthorized user repo) → user = sender.name := by
    rintro ⟨⟩
    rfl
  by_cases same : sender.isSame author = true
  · rw [if_pos same]
    exact discreet_done blamed
  · rw [if_neg same]
    have rights : WritesNotice (.canUserWrite sender) := trivial
    refine (discreet_ask rights).andThen (fun may _ => ?_) fun e judged user repo told => ?_
    · cases may with
      | true => exact discreet_done (by simp)
      | false => exact discreet_done blamed
    · cases told
      exact absurd rfl (judged user repo)

theorem refusal?_discreet :
    Discreet (Approval.refusal? repository sender author).run fun r =>
      ∀ user, r = .ok (some user) → user = sender.name := by
  unfold Approval.refusal?
  refine authorize_discreet.attempt.andThen ?_ (by simp)
  rintro o ⟨_, ⟨⟩, blamed⟩
  split
  · exact discreet_done (by simp)
  · rename_i user repo
    exact discreet_done fun _ told => by
      cases told
      exact blamed user repo rfl
  · exact discreet_done (by simp)

theorem notify_discreet {notice : String} (named : IsNotice notice) :
    Discreet (Approval.notify pr notice).run fun _ => True :=
  asks_discreet (q := .registerComment .pullRequest pr.id notice) named

theorem label_discreet : Discreet (Approval.label pr).run fun _ => True :=
  asks_discreet (q := .setLabel .pullRequest pr.id approvedLabel) trivial

theorem unlabel_discreet : Discreet (Approval.unlabel pr).run fun _ => True :=
  asks_discreet (q := .deleteLabel .pullRequest pr.id approvedLabel) trivial

theorem approve_discreet {user : String} (whole : OneLine user.toList) :
    Discreet (Approval.approve pr user).run fun _ => True :=
  label_discreet.next fun _ _ => notify_discreet (.approved whole)

theorem cancel_discreet {user : String} (whole : OneLine user.toList) :
    Discreet (Approval.cancel pr user).run fun _ => True :=
  unlabel_discreet.next fun _ _ => notify_discreet (.canceled whole)

theorem authorizeOrNotify_discreet (whole : OneLine sender.name.toList) :
    Discreet (Approval.authorizeOrNotify repository pr sender).run fun _ => True := by
  unfold Approval.authorizeOrNotify
  refine refusal?_discreet.next fun refused told => ?_
  cases refused with
  | none => exact discreet_done trivial
  | some user =>
    obtain rfl := told user rfl
    exact (notify_discreet (.unauthorized whole)).next fun _ _ => discreet_done trivial

theorem isLabeled_discreet : Discreet (Approval.isLabeled pr).run fun _ => True := by
  have looks := asks_discreet (q := .listLabels pr.id) trivial
  exact looks.next fun _ _ => discreet_done trivial

theorem check_discreet {user : String} (whole : OneLine user.toList) :
    Discreet (Approval.check pr user).run fun _ => True := by
  unfold Approval.check
  have looks := asks_discreet (q := .listComments pr.id) trivial
  refine isLabeled_discreet.next fun labeled _ => looks.next fun comments _ => ?_
  split
  · exact approve_discreet whole
  · exact cancel_discreet whole
  · exact discreet_done trivial

theorem handleReview_discreet {review : Comment} (whole : OneLine review.author.name.toList) :
    Discreet (Approval.handleReview repository review).run fun _ => True := by
  unfold Approval.handleReview
  split
  · split
    · refine (authorizeOrNotify_discreet whole).next fun allowed _ => ?_
      split
      · split
        · exact approve_discreet whole
        · exact cancel_discreet whole
      · exact discreet_done trivial
    · exact discreet_done trivial
  · exact discreet_done trivial

theorem handleLabelEvent_discreet (whole : OneLine sender.name.toList) :
    Discreet (Approval.handleLabelEvent repository pr sender).run fun _ => True := by
  unfold Approval.handleLabelEvent
  split
  · refine isLabeled_discreet.next fun labeled _ => refusal?_discreet.next fun refused told => ?_
    cases refused with
    | none => exact discreet_done trivial
    | some user =>
      obtain rfl := told user rfl
      have notice : Discreet (Approval.notify pr (unauthorizedNotice sender.name)).run
        fun _ => True := notify_discreet (.unauthorized whole)
      dsimp only
      split
      · exact unlabel_discreet.next fun _ _ => notice
      · exact label_discreet.next fun _ _ => notice
  · exact discreet_done trivial

theorem handle_discreet (whole : OneLine (actor w).name.toList) :
    Discreet (Approval.handle repository w).run fun _ => True := by
  unfold Approval.handle
  cases type : w.eventType with
  | push => exact discreet_done trivial
  | commentCreated => exact discreet_done trivial
  | reviewChanged =>
    cases here : w.comment with
    | none => exact discreet_done trivial
    | some review =>
      rw [actor_review type here] at whole
      exact handleReview_discreet whole
  | pullRequestChanged =>
    rw [actor_sender (by rw [type]; decide)] at whole
    cases w.pullRequest with
    | none => exact discreet_done trivial
    | some pr =>
      dsimp only
      split
      · exact handleLabelEvent_discreet whole
      · exact discreet_done trivial

theorem handleCommand_discreet {c : Command} (whole : OneLine w.sender.name.toList) :
    Discreet (Approval.handleCommand repository c w).run fun _ => True := by
  unfold Approval.handleCommand
  split
  · exact discreet_done trivial
  · refine (authorizeOrNotify_discreet whole).next fun allowed _ => ?_
    split
    · split
      · exact approve_discreet whole
      · exact cancel_discreet whole
      · exact check_discreet whole
      · exact notify_discreet .help
    · exact discreet_done trivial

theorem runAll_discreet {calls : List (GitEffect Outcome)}
    (each : ∀ call ∈ calls, Discreet call fun _ => True) :
    Discreet (Dispatcher.runAll calls) fun _ => True := by
  induction calls with
  | nil => exact discreet_done trivial
  | cons call rest ih =>
    obtain ⟨first, later⟩ := List.forall_mem_cons.mp each
    exact first.bind fun _ _ => (ih later).bind fun _ _ => discreet_done trivial

/-- Whatever is written for an event is a notice. -/
theorem dispatch_discreet (whole : OneLine (actor w).name.toList) :
    Discreet ((defaultDispatcher repository).dispatch w) fun _ => True := by
  rw [Dispatcher.dispatch, calls_default]
  refine runAll_discreet (List.forall_mem_cons.mpr ⟨handle_discreet whole, fun call member => ?_⟩)
  obtain ⟨c, called, rfl⟩ := List.mem_map.mp member
  rw [actor_sender (by rw [commented_of_called called]; decide)] at whole
  exact handleCommand_discreet whole

/-- Notices hold no command. The event of a comment with one leads to no question, and a history
says the same whatever comments of approval's own are put into it. All that is written for an event is a
notice, so what was written for one event is never answered as another one. -/
theorem notices_unheard :
    (∀ body, IsNotice body → extractCommands body = []) ∧
    (∀ repository w c, w.eventType = .commentCreated → w.comment = some c → IsNotice c.body →
      (defaultDispatcher repository).dispatch w = pure (.ok ())) ∧
    (∀ cs cs', Annotated cs cs' → approvalVerdict cs' = approvalVerdict cs) ∧
    ∀ repository w es o, Path ((defaultDispatcher repository).dispatch w) es o →
      OneLine (actor w).name.toList → (∀ e ∈ es, Unjudged e) → ∀ e ∈ es, WritesNotice e.1 :=
  ⟨fun _ notice => notice.commandless,
    fun _ _ _ type here notice => dispatch_commandless type here notice.commandless,
    fun _ _ annotated => approvalVerdict_annotated annotated,
    fun _ _ es o path whole unjudged => (dispatch_discreet whole es o path unjudged).1⟩

theorem notices_unheard_bob :
    extractCommands (approvedNotice "bob") = [] ∧
    (defaultDispatcher "org/repo").dispatch (remarked (approvedNotice "bob")) = pure (.ok ()) ∧
    approvalVerdict [remark (canceledNotice "bob"), remark "/approve", remark helpNotice] =
      approvalVerdict [remark "/approve"] := by
  have bob : OneLine "bob".toList := by simp [OneLine]
  have notice : IsNotice (approvedNotice "bob") := .approved bob
  obtain ⟨commandless, silent, unheard, -⟩ := notices_unheard
  exact ⟨commandless _ notice, silent _ _ _ rfl rfl notice,
    unheard _ _ (.own ⟨.canceled bob, rfl⟩ (.kept _ (.own ⟨.help, rfl⟩ .nil)))⟩

end Gatehouse.Chat
