import Gatehouse.Control.Admission
import Gatehouse.Control.JobPass
import Gatehouse.Proofs.Control.Course

/-!
# Looking up the run of a job

The queue starts a job, and a pass reflects one, after the same look at the cluster: both read the
config of the job and then the run of its name. `lookUp` is that look; what the two do is
`lookUp` and a last step of their own (`start_eq`, `reflect_eq`).
-/

namespace Gatehouse.Control

open Program Resource

variable {now : Instant} {job : PipelineJob} {es : List Event}

/-- Read the config of a job, and its run if there is one. -/
def lookUp (job : PipelineJob) : Pass (RepoConfig × Option PipelineRun) := do
  let ns ← (namespaceOf job : Except Error String)
  match ← askCluster (.getConfig ns job.spec.config) with
  | none => throw (.notFound ("repo config " ++ job.spec.config))
  | some config =>
    let run? ← askCluster (.getRun ns (runName job))
    return (config, run?)

/-- What starting a job does once it is looked up: see to it that there is a run. -/
def ensureRun (job : PipelineJob) : RepoConfig × Option PipelineRun → Pass Unit
  | (_, some _) => return ()
  | (config, none) => do
    let run ← (generateRun job config : Except Error PipelineRun)
    askCluster (.createRun run)

theorem start_eq (job : PipelineJob) : start job = lookUp job >>= ensureRun job := by
  simp only [start, lookUp, LawfulMonad.bind_assoc]
  congr 1
  funext ns
  congr 1
  funext config?
  cases config? with
  | none => rfl
  | some config =>
    simp only [LawfulMonad.bind_assoc, pure_bind]
    congr 1
    funext run?
    cases run? <;> rfl

theorem reflect_eq (now : Instant) (job : PipelineJob) :
    reflect now job = lookUp job >>= fun found => do
      let s ← (reflectStatus now found.2 job found.1 : Except Error PipelineJobStatus)
      return (found.1, s) := by
  simp only [reflect, lookUp, LawfulMonad.bind_assoc]
  congr 1
  funext ns
  congr 1
  funext config?
  cases config? with
  | none => rfl
  | some config => simp only [LawfulMonad.bind_assoc, pure_bind]

/-- Every way in which looking up a job can go. -/
inductive LookUp (job : PipelineJob) :
    List Event → Except Error (RepoConfig × Option PipelineRun) → Prop
  | unplaced (nowhere : job.metadata.inNamespace = none) :
      LookUp job [] (.error .missingNamespace)
  | unread {ns : String} (place : job.metadata.inNamespace = some ns) (e : Error) :
      LookUp job [⟨.cluster (.getConfig ns job.spec.config), .error e⟩] (.error e)
  | unconfigured {ns : String} (place : job.metadata.inNamespace = some ns) :
      LookUp job [⟨.cluster (.getConfig ns job.spec.config), .ok none⟩]
        (.error (.notFound ("repo config " ++ job.spec.config)))
  | unseen {ns : String} (place : job.metadata.inNamespace = some ns) (config : RepoConfig)
      (e : Error) :
      LookUp job
        [⟨.cluster (.getConfig ns job.spec.config), .ok (some config)⟩,
          ⟨.cluster (.getRun ns (runName job)), .error e⟩]
        (.error e)
  | seen {ns : String} (place : job.metadata.inNamespace = some ns) (config : RepoConfig)
      (run? : Option PipelineRun) :
      LookUp job
        [⟨.cluster (.getConfig ns job.spec.config), .ok (some config)⟩,
          ⟨.cluster (.getRun ns (runName job)), .ok run?⟩]
        (.ok (config, run?))

theorem namespaceOf_error {Spec Status : Type} {o : Object Spec Status} {e : Error}
    (h : namespaceOf o = .error e) : o.metadata.inNamespace = none ∧ e = .missingNamespace := by
  unfold namespaceOf at h
  split at h
  · cases h
  · rename_i nowhere
    cases h
    exact ⟨nowhere, rfl⟩

theorem LookUp.of_course {r : Except Error (RepoConfig × Option PipelineRun)}
    (h : Course (lookUp job) es r) : LookUp job es r := by
  unfold lookUp at h
  rcases course_lift_bind.mp h with ⟨e, unplaced, rfl, rfl⟩ | ⟨ns, place, h⟩
  · obtain ⟨nowhere, rfl⟩ := namespaceOf_error unplaced
    exact .unplaced nowhere
  have place := namespaceOf_ok place
  rcases course_askCluster_bind.mp h with ⟨e, rfl, rfl⟩ | ⟨config?, es, rfl, read⟩
  · exact .unread place e
  split at read
  · obtain ⟨rfl, rfl⟩ := course_throw.mp read
    exact .unconfigured place
  rename_i config read
  rcases course_askCluster_bind.mp read with ⟨e, rfl, rfl⟩ | ⟨run?, es, rfl, seen⟩
  · exact .unseen place config e
  · obtain ⟨rfl, rfl⟩ := course_pure.mp seen
    exact .seen place config run?

theorem LookUp.course {r : Except Error (RepoConfig × Option PipelineRun)}
    (h : LookUp job es r) : Course (lookUp job) es r := by
  -- In every case but the first the namespace is known, and the config is asked for there.
  have placed {ns : String} (place : job.metadata.inNamespace = some ns) :
      namespaceOf job = .ok ns := by
    simp only [namespaceOf, place]
  unfold lookUp
  cases h with
  | unplaced nowhere =>
    refine course_lift_bind.mpr (.inl ⟨_, ?_, rfl, rfl⟩)
    simp only [namespaceOf, nowhere]
  | unread place e =>
    refine course_lift_bind.mpr (.inr ⟨_, placed place, ?_⟩)
    exact course_askCluster_bind.mpr (.inl ⟨e, rfl, rfl⟩)
  | unconfigured place =>
    refine course_lift_bind.mpr (.inr ⟨_, placed place, ?_⟩)
    exact course_askCluster_bind.mpr (.inr ⟨none, [], rfl, course_throw.mpr ⟨rfl, rfl⟩⟩)
  | unseen place config e =>
    refine course_lift_bind.mpr (.inr ⟨_, placed place, ?_⟩)
    refine course_askCluster_bind.mpr (.inr ⟨some config, [_], rfl, ?_⟩)
    exact course_askCluster_bind.mpr (.inl ⟨e, rfl, rfl⟩)
  | seen place config run? =>
    refine course_lift_bind.mpr (.inr ⟨_, placed place, ?_⟩)
    refine course_askCluster_bind.mpr (.inr ⟨some config, [_], rfl, ?_⟩)
    exact course_askCluster_bind.mpr (.inr ⟨run?, [], rfl, course_pure.mpr ⟨rfl, rfl⟩⟩)

/-- Looking up only reads. -/
theorem LookUp.aside {r : Except Error (RepoConfig × Option PipelineRun)}
    (h : LookUp job es r) : ∀ e ∈ es, e.Aside := by
  cases h with
  | unplaced nowhere => simp
  | unread place e => simpa using Event.Aside.getConfig ..
  | unconfigured place => simpa using Event.Aside.getConfig ..
  | unseen place config e => simpa using ⟨Event.Aside.getConfig .., Event.Aside.getRun ..⟩
  | seen place config run? => simpa using ⟨Event.Aside.getConfig .., Event.Aside.getRun ..⟩

/-! What events ask about runs. -/

/-- Namespace and name of the run that was asked for. -/
def Event.runLookup? : Event → Option (String × String)
  | ⟨.cluster (.getRun ns name), _⟩ => some (ns, name)
  | _ => none

/-- The run that was to be put in, whatever came of it. -/
def Event.runRequest? : Event → Option PipelineRun
  | ⟨.cluster (.createRun run), _⟩ => some run
  | _ => none

/-- The runs that were asked for, in order. -/
def runLookups (es : List Event) : List (String × String) := es.filterMap Event.runLookup?

/-- The runs that were to be put in, in order. -/
def runRequests (es : List Event) : List PipelineRun := es.filterMap Event.runRequest?

theorem runRequests_aside (h : ∀ e ∈ es, e.Aside) : runRequests es = [] :=
  filterMap_aside (fun _ aside => by cases aside <;> rfl) h

/-- What was asked for is the run of a namespace and name, unless something failed before. -/
def LooksFor {α : Type} (ns name : String) (es : List Event) (r : Except Error α) : Prop :=
  runLookups es = [(ns, name)] ∨ runLookups es = [] ∧ ∃ e, r = .error e

theorem LooksFor.ok {α : Type} {ns name : String} {a : α}
    (h : LooksFor ns name es (.ok a)) : runLookups es = [(ns, name)] := by
  rcases h with asked | ⟨-, e, impossible⟩
  · exact asked
  · cases impossible

theorem LooksFor.error {α β : Type} {ns name : String} {e : Error}
    (h : LooksFor ns name es (.error e : Except Error α)) :
    LooksFor ns name es (.error e : Except Error β) :=
  h.imp_right fun unasked => ⟨unasked.1, e, rfl⟩

/-- The run that is asked for is that of the name of the job, in the namespace of the job. -/
theorem LookUp.looksFor {ns : String} {r : Except Error (RepoConfig × Option PipelineRun)}
    (h : LookUp job es r) (place : job.metadata.inNamespace = some ns) :
    LooksFor ns (runName job) es r := by
  cases h with
  | unplaced nowhere => exact .inr ⟨rfl, _, rfl⟩
  | unread place' e => exact .inr ⟨rfl, e, rfl⟩
  | unconfigured place' => exact .inr ⟨rfl, _, rfl⟩
  | unseen place' config e =>
    rw [place] at place'
    cases place'
    exact .inl rfl
  | seen place' config run? =>
    rw [place] at place'
    cases place'
    exact .inl rfl

/-! What is done after the look. -/

/-- Reflection looks up the job and computes its status from what it saw. -/
theorem course_reflect {r : Except Error (RepoConfig × PipelineJobStatus)}
    (h : Course (reflect now job) es r) :
    (∃ e, r = .error e ∧ LookUp job es (.error e)) ∨
    ∃ config run?, LookUp job es (.ok (config, run?)) ∧
      r = (reflectStatus now run? job config).map (config, ·) := by
  rw [reflect_eq] at h
  rcases course_bind.mp h with ⟨e, rfl, failed⟩ | ⟨first, ⟨config, run?⟩, second, rfl, saw, h⟩
  · exact .inl ⟨e, rfl, .of_course failed⟩
  refine .inr ⟨config, run?, ?_⟩
  rcases course_lift_bind.mp h with ⟨e, failed, rfl, rfl⟩ | ⟨s, computed, h⟩
  · rw [List.append_nil, failed]
    exact ⟨.of_course saw, rfl⟩
  · obtain ⟨rfl, rfl⟩ := course_pure.mp h
    rw [List.append_nil, computed]
    exact ⟨.of_course saw, rfl⟩

/-- A job is started by putting in a run where there is none. -/
theorem course_start {o : Except Error Unit} (h : Course (start job) es o) :
    (∃ e, o = .error e ∧ LookUp job es (.error e)) ∨
    (∃ config run, o = .ok () ∧ LookUp job es (.ok (config, some run))) ∨
    ∃ config looked, LookUp job looked (.ok (config, none)) ∧
      ((∃ e, generateRun job config = .error e ∧ o = .error e ∧ es = looked) ∨
      ∃ run, generateRun job config = .ok run ∧ es = looked ++ [⟨.cluster (.createRun run), o⟩]) := by
  rw [start_eq] at h
  rcases course_bind.mp h with ⟨e, rfl, failed⟩ | ⟨first, ⟨config, run?⟩, second, rfl, saw, h⟩
  · exact .inl ⟨e, rfl, .of_course failed⟩
  have saw := LookUp.of_course saw
  cases run? with
  | some run =>
    obtain ⟨rfl, rfl⟩ := course_pure.mp h
    rw [List.append_nil]
    exact .inr (.inl ⟨config, run, rfl, saw⟩)
  | none =>
    refine .inr (.inr ⟨config, first, saw, ?_⟩)
    rcases course_lift_bind.mp h with ⟨e, unmade, rfl, rfl⟩ | ⟨run, made, created⟩
    · exact .inl ⟨e, unmade, rfl, List.append_nil first⟩
    · obtain rfl := course_askCluster.mp created
      exact .inr ⟨run, made, rfl⟩

end Gatehouse.Control
