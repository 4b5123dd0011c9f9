import Gatehouse.Proofs.Control.AdmissionQueue
import Gatehouse.Proofs.Control.JobCourse
import Gatehouse.Proofs.Control.RunOwner

/-!
# What work does to jobs and runs

A view of a world shows its jobs, its runs and what the queue is yet to hear of; nothing else decides
who holds a slot. `World.May` leaves open which requests to the cluster fail and what git providers
do. Under it a course that is about one job changes that job and nothing else (`view_on`), and
starting a job leaves it with a run or changes nothing (`view_started`, `view_unstarted`).
-/

namespace Gatehouse.Control

open Program Resource

/-- Has the engine said how the run ended? -/
def hasEnded (run : PipelineRun) : Bool :=
  (run.status.getD {}).succeeded?.any fun c => c.status = "True" || c.status = "False"

/-- What a world shows of jobs and runs. -/
@[ext] structure View where
  job? : String → Option PipelineJob
  run? : String → Option PipelineRun
  /-- The jobs that the queue was told about and has not come to. -/
  notified : List PipelineJob

namespace View

variable (v : View)

/-- Store a job under a key. -/
def putJob (key : String) (job : PipelineJob) : View :=
  { v with job? := fun k => if k = key then some job else v.job? k }

/-- Store a run under a key. -/
def putRun (key : String) (run : PipelineRun) : View :=
  { v with run? := fun k => if k = key then some run else v.run? k }

/-- Tell the queue of jobs. -/
def tell (told : List PipelineJob) : View := { v with notified := v.notified ++ told }

@[simp] theorem job?_putJob (key k : String) (job : PipelineJob) :
    (v.putJob key job).job? k = if k = key then some job else v.job? k := rfl

@[simp] theorem run?_putJob (key : String) (job : PipelineJob) :
    (v.putJob key job).run? = v.run? := rfl

@[simp] theorem notified_putJob (key : String) (job : PipelineJob) :
    (v.putJob key job).notified = v.notified := rfl

@[simp] theorem job?_putRun (key : String) (run : PipelineRun) :
    (v.putRun key run).job? = v.job? := rfl

@[simp] theorem run?_putRun (key k : String) (run : PipelineRun) :
    (v.putRun key run).run? k = if k = key then some run else v.run? k := rfl

@[simp] theorem notified_putRun (key : String) (run : PipelineRun) :
    (v.putRun key run).notified = v.notified := rfl

@[simp] theorem job?_tell (told : List PipelineJob) : (v.tell told).job? = v.job? := rfl

@[simp] theorem run?_tell (told : List PipelineJob) : (v.tell told).run? = v.run? := rfl

@[simp] theorem notified_tell (told : List PipelineJob) :
    (v.tell told).notified = v.notified ++ told := rfl

@[simp] theorem tell_nil : v.tell [] = v := by
  simp [tell]

@[simp] theorem tell_tell (first second : List PipelineJob) :
    (v.tell first).tell second = v.tell (first ++ second) := by
  simp [tell]

@[simp] theorem putJob_tell (key : String) (job : PipelineJob) (told : List PipelineJob) :
    (v.tell told).putJob key job = (v.putJob key job).tell told := rfl

@[simp] theorem putJob_putJob (key : String) (first second : PipelineJob) :
    (v.putJob key first).putJob key second = v.putJob key second := by
  ext k
  all_goals simp
  split <;> rfl

variable {v}

/-- Storing what is stored changes nothing. -/
theorem putJob_self {key : String} {job : PipelineJob} (h : v.job? key = some job) :
    v.putJob key job = v := by
  ext k
  · by_cases same : k = key
    · simp [same, h]
    · simp [same]
  · simp
  · simp

end View

namespace World

/-- What a world shows of jobs and runs. -/
def view (w : World) : View where
  job? := w.cluster.jobs.get?
  run? := w.cluster.runs.get?
  notified := w.notified

/-- How a question may be answered in a world, and which world that leaves: the cluster refuses a
request, which changes nothing, or serves it; a provider may do anything; and what the queue is told
is kept for it. -/
def May : (q : Query) → World → q.Outcome → World → Prop
  | .cluster q, w, r, w' =>
    (∃ e, r = .error e ∧ w' = w) ∨
      r = (w.cluster.serve q).1 ∧ w' = { w with cluster := (w.cluster.serve q).2 }
  | .git _ _, w, _, w' => ∃ servers, w' = { w with servers }
  | .notify job, w, _, w' => w' = { w with notified := w.notified ++ [job] }

theorem may_answer (now : Instant) (q : Query) (w : World) :
    May q w (w.answer now q).1 (w.answer now q).2 := by
  cases q with
  | cluster q =>
    simp only [answer, Cluster.Memory.answer, May]
    split
    · exact .inl ⟨_, rfl, rfl⟩
    · exact .inr ⟨rfl, rfl⟩
  | git client q => exact ⟨_, rfl⟩
  | notify job => rfl

end World

variable {job cur : PipelineJob} {w w' : World} {es : List Event}

/-! Requests, one by one. -/

theorem view_aside {e : Event} (aside : e.Aside) (h : World.May e.1 w e.2 w') :
    w'.view = w.view := by
  cases aside with
  | getConfig ns name r | getRun ns name r | readSecret ns name key r =>
    rcases h with ⟨e, -, rfl⟩ | ⟨-, rfl⟩
    · rfl
    · rfl
  | git client q r =>
    obtain ⟨servers, rfl⟩ := h
    rfl

theorem view_putJob (w : World) (job : PipelineJob) :
    World.view { w with cluster := w.cluster.putJob job } = w.view.putJob job.key job := by
  ext k
  · simp [World.view, Cluster.Memory.putJob]
  · rfl
  · rfl

theorem view_insertRun (w : World) (key : String) (run : PipelineRun) :
    World.view { w with cluster.runs := w.cluster.runs.insert key run } =
      w.view.putRun key run := by
  ext k
  · rfl
  · simp [World.view]
  · rfl

theorem view_patchJob (w : World) (job : PipelineJob) (change : PipelineJob → PipelineJob) :
    World.view { w with cluster := w.cluster.patchJob job change } =
      w.view.putJob job.key (change ((w.view.job? job.key).getD job)) := by
  ext k
  · simp [World.view, Cluster.Memory.patchJob, Table.getD]
  · rfl
  · rfl

theorem view_createRun {run : PipelineRun} {r : Except Error Unit}
    (h : World.May (.cluster (.createRun run)) w r w') :
    (∃ e, r = .error e ∧ w'.view = w.view) ∨
    r = .ok () ∧ w.view.run? run.key = none ∧ w'.view = w.view.putRun run.key run := by
  rcases h with ⟨e, rfl, rfl⟩ | ⟨rfl, rfl⟩
  · exact .inl ⟨e, rfl, rfl⟩
  · rw [Cluster.Memory.serve]
    by_cases present : w.cluster.runs.contains run.key = true
    · rw [if_pos present]
      exact .inl ⟨_, rfl, rfl⟩
    · rw [if_neg present]
      exact .inr ⟨rfl, Option.not_isSome_iff_eq_none.mp present, view_insertRun w run.key run⟩

/-- What the cluster says of a run is what it has. -/
theorem run_read {ns name : String} {run : Option PipelineRun}
    (h : World.May (.cluster (.getRun ns name)) w (.ok run) w') :
    run = w.view.run? (keyOf ns name) := by
  rcases h with ⟨e, impossible, -⟩ | ⟨served, -⟩
  · cases impossible
  · cases served
    rfl

/-! Courses. -/

theorem view_asides (h : Follows World.May w es w') (aside : ∀ e ∈ es, e.Aside) :
    w'.view = w.view := by
  refine h.keeps (P := fun w' => w'.view = w.view) ?_ rfl
  intro e member s s' may same
  exact (view_aside (aside e member) may).trans same

/-- The event leaves all jobs but one as they are. -/
inductive Event.On (job : PipelineJob) : Event → Prop
  | aside {e : Event} : e.Aside → On job e
  | finalizers (fs : List String) (r : Except Error Unit) :
      On job ⟨.cluster (.patchJobFinalizers job fs), r⟩
  | status (s : PipelineJobStatus) (r : Except Error Unit) :
      On job ⟨.cluster (.patchJobStatus job s), r⟩
  | told (told : PipelineJob) : On job ⟨.notify told, ()⟩

theorem stored_aside {e : Event} (aside : e.Aside) : stored cur e = cur := by
  cases aside <;> rfl

theorem stored_asides (aside : ∀ e ∈ es, e.Aside) : es.foldl stored cur = cur := by
  induction es with
  | nil => rfl
  | cons e es ih =>
    rw [List.foldl_cons, stored_aside (aside e (by simp))]
    exact ih fun e member => aside e (List.mem_cons_of_mem _ member)

theorem view_on_one {e : Event} (on : e.On job) (h : World.May e.1 w e.2 w')
    (there : w.view.job? job.key = some cur) :
    w'.view = (w.view.putJob job.key (stored cur e)).tell (notifications [e]) := by
  cases on with
  | aside aside =>
    rw [stored_aside aside, View.putJob_self there, notifications_aside (by simpa using aside),
      View.tell_nil]
    exact view_aside aside h
  | finalizers fs r =>
    rw [show notifications [_] = [] from rfl, View.tell_nil]
    rcases h with ⟨e, rfl, rfl⟩ | ⟨rfl, rfl⟩
    · exact (View.putJob_self there).symm
    · refine (view_patchJob w job _).trans ?_
      rw [there]
      rfl
  | status s r =>
    rw [show notifications [_] = [] from rfl, View.tell_nil]
    rcases h with ⟨e, rfl, rfl⟩ | ⟨rfl, rfl⟩
    · exact (View.putJob_self there).symm
    · refine (view_patchJob w job _).trans ?_
      rw [there]
      rfl
  | told p =>
    obtain rfl := h
    rw [show stored cur _ = cur from rfl, View.putJob_self there]
    rfl

/-- A course on one job changes that job as the events say, tells the queue what they say, and
leaves everything else as it is. -/
theorem view_on (h : Follows World.May w es w') (on : ∀ e ∈ es, e.On job)
    (there : w.view.job? job.key = some cur) :
    w'.view = (w.view.putJob job.key (es.foldl stored cur)).tell (notifications es) := by
  -- Each event may replace the stored version, which the next one then starts from.
  induction h generalizing cur with
  | nil w =>
    rw [List.foldl_nil, View.putJob_self there]
    exact (View.tell_nil _).symm
  | @cons q r w w₁ w₂ es may _ ih =>
    have first := view_on_one (on ⟨q, r⟩ (by simp)) may there
    have next : w₁.view.job? job.key = some (stored cur ⟨q, r⟩) := by
      simp [first]
    have rest := ih (fun e member => on e (List.mem_cons_of_mem _ member)) next
    rw [rest, first, List.foldl_cons, View.putJob_tell, View.putJob_putJob, View.tell_tell,
      ← notifications_append, List.singleton_append]

/-- A pass is about its job. -/
theorem JobCourse.on {hasStore : Bool} {now : Instant} {r : Except Error Schedule}
    (h : JobCourse hasStore now job es r) : ∀ e ∈ es, e.On job := by
  have reading {reads : List Event} (aside : ∀ e ∈ reads, e.Aside) : ∀ e ∈ reads, e.On job :=
    fun e member => .aside (aside e member)
  cases h with
  | claimed alive new => simpa using Event.On.finalizers _ _
  | unclaimed alive new e o => simpa using ⟨Event.On.finalizers _ _, Event.On.status _ _⟩
  | released deleting own => simpa using ⟨Event.On.told _, Event.On.finalizers _ _⟩
  | unreleased deleting own e o =>
    simpa using ⟨Event.On.told _, Event.On.finalizers _ _, Event.On.status _ _⟩
  | left deleting foreign => simp
  | completed alive own done => simp
  | unreflected alive own going failed o =>
    refine List.forall_mem_append.mpr ⟨reading (aside_reflect failed), ?_⟩
    simpa using ⟨Event.On.status _ _, Event.On.told _⟩
  | unsaved alive own going reflected e =>
    refine List.forall_mem_append.mpr ⟨reading (aside_reflect reflected), ?_⟩
    simpa using ⟨Event.On.status _ _, Event.On.told _⟩
  | saved alive own going reflected reported =>
    refine List.forall_mem_append.mpr ⟨List.forall_mem_append.mpr ⟨?_, ?_⟩, ?_⟩
    · exact reading (aside_reflect reflected)
    · exact List.forall_mem_cons.mpr ⟨.status _ _, reading (course_reportIfNew reported).1⟩
    · simpa using Event.On.told _

/-- A pass that is run on a world is one of its courses, and the stored job ends up as that says. -/
theorem course_perform (hasStore : Bool) (now : Instant) (there : w.view.job? job.key = some job) :
    ∃ es r, Course (reconcileJob hasStore now job) es r ∧
      (w.perform now (reconcileJob hasStore now job).run).2.view.job? job.key =
        some (es.foldl stored job) := by
  obtain ⟨es, path, follows⟩ := path_run World.May (World.answer now) (World.may_answer now)
    (reconcileJob hasStore now job).run w
  have effect := view_on follows (JobCourse.of_course path).on there
  refine ⟨es, _, path, ?_⟩
  rw [World.perform, effect]
  simp

/-- What looking up a job finds is what the cluster has for it. -/
theorem view_lookUp {r : Except Error (RepoConfig × Option PipelineRun)} (looked : LookUp job es r)
    (h : Follows World.May w es w') :
    w'.view = w.view ∧ ∀ config run?, r = .ok (config, run?) → run? = w.view.run? job.key := by
  refine ⟨view_asides h looked.aside, ?_⟩
  rintro config run? rfl
  cases looked with
  | @seen ns place =>
    obtain ⟨w₁, first, after⟩ := follows_cons.mp h
    obtain ⟨w₂, second, -⟩ := follows_cons.mp after
    have same : w₁.view = w.view := view_aside (.getConfig ..) first
    rw [run_read second, same, keyOf_runName place]

/-- A job that was started has a run: the one that was there, or a new one that it owns. -/
theorem view_started (started : Course (start job) es (.ok ())) (h : Follows World.May w es w') :
    ∃ run, w'.view.run? job.key = some run ∧
      (w'.view = w.view ∨
        owns job run = true ∧ w.view.run? job.key = none ∧
          w'.view = w.view.putRun job.key run) := by
  rcases course_start started with ⟨e, impossible, -⟩ | ⟨config, run, -, looked⟩ |
    ⟨config, reads, looked, ⟨e, -, impossible, -⟩ | ⟨run, made, rfl⟩⟩
  · cases impossible
  · obtain ⟨same, found⟩ := view_lookUp looked h
    refine ⟨run, ?_, .inl same⟩
    rw [same]
    exact (found config (some run) rfl).symm
  · cases impossible
  · obtain ⟨w₁, reading, last⟩ := follows_append.mp h
    obtain ⟨w₂, created, stop⟩ := follows_cons.mp last
    obtain rfl := follows_nil.mp stop
    obtain ⟨same, found⟩ := view_lookUp looked reading
    rcases view_createRun created with ⟨e, impossible, -⟩ | ⟨-, -, put⟩
    · cases impossible
    · rw [same, key_generateRun made] at put
      exact ⟨run, by simp [put], .inr ⟨owns_generateRun made rfl, (found config none rfl).symm, put⟩⟩

/-- A start that fails changes nothing. -/
theorem view_unstarted {e : Error} (failed : Course (start job) es (.error e))
    (h : Follows World.May w es w') : w'.view = w.view := by
  rcases course_start failed with ⟨e', -, looked⟩ | ⟨config, run, impossible, -⟩ |
    ⟨config, reads, looked, ⟨e', -, -, rfl⟩ | ⟨run, made, rfl⟩⟩
  · exact (view_lookUp looked h).1
  · cases impossible
  · exact (view_lookUp looked h).1
  · obtain ⟨w₁, reading, last⟩ := follows_append.mp h
    obtain ⟨w₂, refused, stop⟩ := follows_cons.mp last
    obtain rfl := follows_nil.mp stop
    rcases view_createRun refused with ⟨e', -, same⟩ | ⟨impossible, -⟩
    · exact same.trans (view_lookUp looked reading).1
    · cases impossible

end Gatehouse.Control
