import Gatehouse.Control.Access
import Gatehouse.Proofs.Program.Path

/-!
# Courses of passes

A course is one way in which a pass can go: the questions that it asked, the answers that it got, and
how it ended. There is one equation for each way of building a pass, so the courses of a pass are
worked out by following its text. What the course tells about jobs is read off by `notifications`,
`statusWrites`, `finalizerWrites` and `finalizerRefusals`.
-/

namespace Gatehouse.Control

open Program Resource

/-- A question of the controller with its answer. -/
abbrev Event : Type := Program.Event Query.Outcome

variable {α β : Type} {es : List Event}

/-- A pass can ask the questions of the events, be answered so, and end so. -/
def Course (pass : Pass α) (es : List Event) (r : Except Error α) : Prop := Path pass.run es r

@[simp] theorem course_pure {a : α} {r : Except Error α} :
    Course (pure a) es r ↔ es = [] ∧ r = .ok a := path_done

@[simp] theorem course_throw {e : Error} {r : Except Error α} :
    Course (throw e) es r ↔ es = [] ∧ r = .error e := path_done

@[simp] theorem course_lift {x r : Except Error α} :
    Course (liftM x) es r ↔ es = [] ∧ r = x := path_done

@[simp] theorem course_askCluster {q : Cluster.Query} {r : q.Outcome} :
    Course (askCluster q) es r ↔ es = [⟨.cluster q, r⟩] :=
  path_query (A := Query.Outcome) (q := Query.cluster q)

@[simp] theorem course_notify {job : PipelineJob} {r : Except Error Unit} :
    Course (notify job) es r ↔ es = [⟨.notify job, ()⟩] ∧ r = .ok () := by
  constructor
  · intro h
    obtain ⟨_, rest, rfl, tail⟩ := path_ask.mp h
    obtain ⟨rfl, rfl⟩ := path_done.mp tail
    exact ⟨rfl, rfl⟩
  · rintro ⟨rfl, rfl⟩
    exact Path.ask (A := Query.Outcome) (Query.notify job) () (.done _)

/-- A pass goes on after a step unless the step failed. -/
@[simp] theorem course_bind {pass : Pass α} {f : α → Pass β} {r : Except Error β} :
    Course (pass >>= f) es r ↔
      (∃ e, r = .error e ∧ Course pass es (.error e)) ∨
      ∃ first a second, es = first ++ second ∧ Course pass first (.ok a) ∧
        Course (f a) second r :=
  path_andThen

theorem course_lift_bind {x : Except Error α} {f : α → Pass β} {r : Except Error β} :
    Course (liftM x >>= f) es r ↔
      (∃ e, x = .error e ∧ r = .error e ∧ es = []) ∨ ∃ a, x = .ok a ∧ Course (f a) es r := by
  rw [course_bind]
  constructor
  · rintro (⟨e, rfl, h⟩ | ⟨first, a, second, rfl, first_a, h⟩)
    · obtain ⟨rfl, rfl⟩ := course_lift.mp h
      exact .inl ⟨e, rfl, rfl, rfl⟩
    · obtain ⟨rfl, rfl⟩ := course_lift.mp first_a
      exact .inr ⟨a, rfl, h⟩
  · rintro (⟨e, rfl, rfl, rfl⟩ | ⟨a, rfl, h⟩)
    · exact .inl ⟨e, rfl, course_lift.mpr ⟨rfl, rfl⟩⟩
    · exact .inr ⟨[], a, es, rfl, course_lift.mpr ⟨rfl, rfl⟩, h⟩

theorem course_askCluster_bind {q : Cluster.Query} {f : q.Answer → Pass β} {r : Except Error β} :
    Course (askCluster q >>= f) es r ↔
      (∃ e, r = .error e ∧ es = [⟨.cluster q, .error e⟩]) ∨
      ∃ a rest, es = ⟨.cluster q, .ok a⟩ :: rest ∧ Course (f a) rest r := by
  rw [course_bind]
  constructor
  · rintro (⟨e, rfl, asked⟩ | ⟨first, a, rest, rfl, asked, h⟩)
    · exact .inl ⟨e, rfl, course_askCluster.mp asked⟩
    · obtain rfl := course_askCluster.mp asked
      exact .inr ⟨a, rest, rfl, h⟩
  · rintro (⟨e, rfl, rfl⟩ | ⟨a, rest, rfl, h⟩)
    · exact .inl ⟨e, rfl, course_askCluster.mpr rfl⟩
    · exact .inr ⟨[⟨.cluster q, .ok a⟩], a, rest, rfl, course_askCluster.mpr rfl, h⟩

/-- A failure of an attempted pass does not keep the rest from going on. -/
@[simp] theorem course_attempt_bind {pass : Pass α} {f : Except Error α → Pass β}
    {r : Except Error β} :
    Course (attempt pass >>= f) es r ↔
      ∃ first o second, es = first ++ second ∧ Course pass first o ∧ Course (f o) second r := by
  constructor
  · intro h
    obtain ⟨first, o, second, rfl, h₁, h₂⟩ := path_bind.mp h
    obtain ⟨before, o', after, rfl, h₃, h₄⟩ := path_bind.mp h₁
    obtain ⟨rfl, rfl⟩ := path_done.mp h₄
    rw [List.append_nil]
    exact ⟨before, o', second, rfl, h₃, h₂⟩
  · rintro ⟨first, o, second, rfl, h₁, h₂⟩
    have attempted : Path (attempt pass).run (first ++ []) (.ok o) := h₁.bind (.done _)
    rw [List.append_nil] at attempted
    exact attempted.bind h₂

/-- An operation of a git provider. -/
def Event.isGit (e : Event) : Prop := ∃ client q, e.1 = .git client q

theorem isGit_through {client : Git.Client} {p : Program Git.Query Git.Query.Outcome α} {a : α}
    (h : Path (through client p) es a) : ∀ e ∈ es, e.isGit := by
  refine Path.forall_translate ?_ h
  intro q es r asked e member
  obtain rfl := (path_query (A := Query.Outcome) (q := Query.git client q)).mp asked
  obtain rfl := List.mem_singleton.mp member
  exact ⟨client, q, rfl⟩

/-- Work through a client asks nothing but the provider, and its failures are values. -/
theorem course_viaGit {client : Git.Client} {action : Git.Action α}
    {r : Except Error (Except Git.Error α)} (h : Course (viaGit client action) es r) :
    (∀ e ∈ es, e.isGit) ∧ ∃ o, r = .ok o := by
  obtain ⟨first, o, second, rfl, h₁, h₂⟩ := path_bind.mp h
  obtain ⟨rfl, rfl⟩ := path_done.mp h₂
  rw [List.append_nil]
  exact ⟨isGit_through h₁, o, rfl⟩

/-! What events tell about jobs. -/

/-- The job that the queue was told about. -/
def Event.notified? : Event → Option PipelineJob
  | ⟨.notify job, _⟩ => some job
  | _ => none

/-- The status that a job was to get, whatever came of it. -/
def Event.statusWrite? : Event → Option PipelineJobStatus
  | ⟨.cluster (.patchJobStatus _ s), _⟩ => some s
  | _ => none

/-- Why the finalizers of a job could not be changed. -/
def Event.finalizerRefusal? : Event → Option Error
  | ⟨.cluster (.patchJobFinalizers _ _), .error e⟩ => some e
  | _ => none

/-- The finalizers that an object was to get, whatever came of it. -/
def Event.finalizerWrite? : Event → Option (List String)
  | ⟨.cluster (.patchJobFinalizers _ fs), _⟩ => some fs
  | ⟨.cluster (.patchConfigFinalizers _ fs), _⟩ => some fs
  | _ => none

/-- The stored version of the job that a pass is about, after an event. -/
def stored (job : PipelineJob) : Event → PipelineJob
  | ⟨.cluster (.patchJobFinalizers _ fs), .ok _⟩ => job.withFinalizers fs
  | ⟨.cluster (.patchJobStatus _ s), .ok _⟩ => job.withStatus s
  | _ => job

/-- The jobs that the queue was told about, in order. -/
def notifications (es : List Event) : List PipelineJob := es.filterMap Event.notified?

/-- The statuses that jobs were to get, in order. -/
def statusWrites (es : List Event) : List PipelineJobStatus := es.filterMap Event.statusWrite?

/-- The failures to change the finalizers of a job, in order. -/
def finalizerRefusals (es : List Event) : List Error := es.filterMap Event.finalizerRefusal?

/-- The finalizers that objects were to get, in order. -/
def finalizerWrites (es : List Event) : List (List String) := es.filterMap Event.finalizerWrite?

section Reading

variable (first second : List Event)

@[simp] theorem notifications_append :
    notifications (first ++ second) = notifications first ++ notifications second :=
  List.filterMap_append

@[simp] theorem statusWrites_append :
    statusWrites (first ++ second) = statusWrites first ++ statusWrites second :=
  List.filterMap_append

@[simp] theorem finalizerRefusals_append :
    finalizerRefusals (first ++ second) = finalizerRefusals first ++ finalizerRefusals second :=
  List.filterMap_append

@[simp] theorem finalizerWrites_append :
    finalizerWrites (first ++ second) = finalizerWrites first ++ finalizerWrites second :=
  List.filterMap_append

end Reading

/-- The event reads the cluster or has to do with a git provider. It neither changes nor mentions a
job. -/
inductive Event.Aside : Event → Prop
  | getConfig (ns name : String) (r) : Aside ⟨.cluster (.getConfig ns name), r⟩
  | getRun (ns name : String) (r) : Aside ⟨.cluster (.getRun ns name), r⟩
  | readSecret (ns name key : String) (r) : Aside ⟨.cluster (.readSecret ns name key), r⟩
  | git (client : Git.Client) (q : Git.Query) (r) : Aside ⟨.git client q, r⟩

theorem Event.isGit.aside {e : Event} (h : e.isGit) : e.Aside := by
  obtain ⟨q, r⟩ := e
  obtain ⟨client, q', rfl⟩ := h
  exact .git client q' r

theorem filterMap_aside {γ : Type} {f : Event → Option γ} (none : ∀ e, e.Aside → f e = .none)
    (h : ∀ e ∈ es, e.Aside) : es.filterMap f = [] :=
  List.filterMap_eq_nil_iff.mpr fun e member => none e (h e member)

theorem notifications_aside (h : ∀ e ∈ es, e.Aside) : notifications es = [] :=
  filterMap_aside (fun _ aside => by cases aside <;> rfl) h

theorem statusWrites_aside (h : ∀ e ∈ es, e.Aside) : statusWrites es = [] :=
  filterMap_aside (fun _ aside => by cases aside <;> rfl) h

theorem finalizerWrites_aside (h : ∀ e ∈ es, e.Aside) : finalizerWrites es = [] :=
  filterMap_aside (fun _ aside => by cases aside <;> rfl) h

theorem finalizerRefusals_aside (h : ∀ e ∈ es, e.Aside) : finalizerRefusals es = [] :=
  filterMap_aside (fun _ aside => by cases aside <;> rfl) h

theorem namespaceOf_ok {Spec Status : Type} {o : Object Spec Status} {ns : String}
    (h : namespaceOf o = .ok ns) : o.metadata.inNamespace = some ns := by
  unfold namespaceOf at h
  split at h
  · rename_i found
    cases h
    exact found
  · cases h

/-- The question reads a config or a secret. -/
inductive Reads : Query → Prop
  | config (ns name : String) : Reads (.cluster (.getConfig ns name))
  | secret (ns name key : String) : Reads (.cluster (.readSecret ns name key))

variable {hasStore : Bool} {config : RepoConfig} {ns : String} {key : SecretKey}

theorem asks_readSecret : (readSecret ns key).run.Asks Reads := ⟨.secret .., fun _ => trivial⟩

theorem asks_webhookSecret : (webhookSecret ns config).run.Asks Reads := by
  unfold webhookSecret
  cases config.spec.webhookSecret with
  | none => trivial
  | some key =>
    refine Asks.andThen asks_readSecret fun secret => ?_
    cases secret <;> trivial

theorem asks_lift {α : Type} (x : Except Error α) : (liftM x : Pass α).run.Asks Reads := by
  cases x <;> trivial

theorem asks_clientFor : (clientFor hasStore config).run.Asks Reads := by
  unfold clientFor
  refine Asks.andThen (asks_lift _) fun ns => ?_
  cases config.spec.git.token with
  | none => trivial
  | some key =>
    refine Asks.andThen asks_readSecret fun token => ?_
    cases token with
    | none => trivial
    | some token =>
      refine Asks.andThen asks_webhookSecret fun secret => ?_
      exact Asks.andThen (asks_lift _) fun client => trivial

theorem Reads.aside {e : Event} (reads : Reads e.1) : e.Aside := by
  obtain ⟨q, r⟩ := e
  cases reads with
  | config ns name => exact .getConfig ns name r
  | secret ns name key => exact .readSecret ns name key r

/-- Making a client only reads secrets. -/
theorem aside_clientFor {r : Except Error (Option Git.Client)}
    (h : Course (clientFor hasStore config) es r) : ∀ e ∈ es, e.Aside := by
  intro e member
  have reads : Reads e.1 := asks_clientFor.path h e member
  exact reads.aside

end Gatehouse.Control
