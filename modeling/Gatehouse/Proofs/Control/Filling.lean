import Gatehouse.Proofs.Control.View

/-!
# What becomes of waiting jobs

While there are free slots, the queue takes the first waiting job and either starts it or gives it up,
which means that it asks the cluster to store the job as failed. So when it stops, each job that waited
waits on, holds a slot or was given up; no two of these agree, and other keys are as they were
(`Filled`, for all answers of the cluster). What that does to the jobs and runs of the cluster is
`Settled`.
-/

namespace Gatehouse.Control

open Program Resource

variable {limit : Nat} {v v₁ v' : View} {q : Admission} {job : PipelineJob}
  {jobs rest : List PipelineJob} {running running' : List String} {w w' : World}
  {es first second : List Event}

/-- The key of the job that was stored as failed. -/
def Event.failureStored? : Event → Option String
  | ⟨.cluster (.patchJobStatus job s), .ok _⟩ => if s.state = .failed then some job.key else none
  | _ => none

/-- The key of the job that was to be stored as failed and was not. -/
def Event.failureRefused? : Event → Option String
  | ⟨.cluster (.patchJobStatus job s), .error _⟩ =>
    if s.state = .failed then some job.key else none
  | _ => none

/-- The keys of the jobs that were stored as failed, in order. -/
def failuresStored (es : List Event) : List String := es.filterMap Event.failureStored?

/-- The keys of the jobs whose failure the cluster refused to store, in order. -/
def failuresRefused (es : List Event) : List String := es.filterMap Event.failureRefused?

@[simp] theorem failuresStored_append :
    failuresStored (first ++ second) = failuresStored first ++ failuresStored second :=
  List.filterMap_append ..

@[simp] theorem failuresRefused_append :
    failuresRefused (first ++ second) = failuresRefused first ++ failuresRefused second :=
  List.filterMap_append ..

/-- The key is given up: its job was stored as failed or was to be. -/
def GivenUp (es : List Event) (key : String) : Prop :=
  key ∈ failuresStored es ∨ key ∈ failuresRefused es

theorem givenUp_append {key : String} :
    GivenUp (first ++ second) key ↔ GivenUp first key ∨ GivenUp second key := by
  simp only [GivenUp, failuresStored_append, failuresRefused_append, List.mem_append]
  exact or_or_or_comm

/-- No failure is both stored and refused, if that is so in two stretches that give up different
keys. -/
theorem GivenUp.once_append (apart : ∀ key, GivenUp first key → ¬ GivenUp second key)
    (early : ∀ key ∈ failuresStored first, key ∉ failuresRefused first)
    (late : ∀ key ∈ failuresStored second, key ∉ failuresRefused second) :
    ∀ key ∈ failuresStored (first ++ second), key ∉ failuresRefused (first ++ second) := by
  intro key stored refused
  rw [failuresStored_append, List.mem_append] at stored
  rw [failuresRefused_append, List.mem_append] at refused
  rcases stored with stored | stored
  · rcases refused with refused | refused
    · exact early key stored refused
    · exact apart key (.inl stored) (.inr refused)
  · rcases refused with refused | refused
    · exact apart key (.inr refused) (.inl stored)
    · exact late key stored refused

/-- Starting a job reads, and may create a run. -/
theorem filterMap_start {γ : Type} {f : Event → Option γ} {o : Except Error Unit}
    (aside : ∀ e, e.Aside → f e = none)
    (create : ∀ run r, f ⟨.cluster (.createRun run), r⟩ = none)
    (started : Course (start job) es o) : es.filterMap f = [] := by
  rcases course_start started with ⟨e, -, look⟩ | ⟨config, run, -, look⟩ |
    ⟨config, looked, look, ⟨e, -, -, rfl⟩ | ⟨run, -, rfl⟩⟩
  · exact filterMap_aside aside look.aside
  · exact filterMap_aside aside look.aside
  · exact filterMap_aside aside look.aside
  · rw [List.filterMap_append, filterMap_aside aside look.aside]
    simp [create]

/-- So it gives no job up. -/
theorem failures_start {o : Except Error Unit} (started : Course (start job) es o) :
    failuresStored es = [] ∧ failuresRefused es = [] :=
  ⟨filterMap_start (fun _ aside => by cases aside <;> rfl) (fun _ _ => rfl) started,
    filterMap_start (fun _ aside => by cases aside <;> rfl) (fun _ _ => rfl) started⟩

/-- Marking a job failed gives it up, one way or the other. -/
theorem failures_markFailed {e : Error} (marked : Path (markFailed job e) es ()) :
    failuresStored es = [job.key] ∧ failuresRefused es = [] ∨
      failuresStored es = [] ∧ failuresRefused es = [job.key] := by
  obtain ⟨o, rfl⟩ := path_markFailed.mp marked
  cases o with
  | ok a => exact .inl ⟨rfl, rfl⟩
  | error e' => exact .inr ⟨rfl, rfl⟩

/-- The queue keeps the job waiting or holds a slot for it. -/
def Admission.Holds (q : Admission) (key : String) : Prop :=
  key ∈ q.pending.map Object.key ∨ key ∈ q.running

/-! The queue. -/

/-- What filling the slots did to the jobs that waited and to the slots. -/
structure Filled (jobs : List PipelineJob) (running : List String) (q : Admission)
    (es : List Event) : Prop where
  fates : ∀ job ∈ jobs, q.Holds job.key ∨ GivenUp es job.key
  kept : running ⊆ q.running
  gained : ∀ key ∈ q.running, key ∈ running ∨ key ∈ jobs.map Object.key
  fewer : q.pending ⊆ jobs
  out : ∀ key, GivenUp es key → key ∈ jobs.map Object.key ∧ ¬ q.Holds key
  once : ∀ key ∈ failuresStored es, key ∉ failuresRefused es

theorem Filled.idle : Filled jobs running { limit, pending := jobs, running } [] where
  fates job member := .inl (.inl (List.mem_map_of_mem member))
  kept := List.Subset.refl _
  gained key slot := .inl slot
  fewer := List.Subset.refl _
  out key given := by rcases given with stored | refused <;> contradiction
  once key stored := by contradiction

/-- The first job is started. -/
theorem Filled.started (h : Filled rest (running.insert job.key) q second)
    (quiet : failuresStored first = [] ∧ failuresRefused first = []) :
    Filled (job :: rest) running q (first ++ second) := by
  have given : ∀ key, GivenUp (first ++ second) key ↔ GivenUp second key := by
    intro key
    rw [givenUp_append, or_iff_right]
    simp [GivenUp, quiet]
  refine ⟨?_, fun key slot => h.kept (List.mem_insert_of_mem slot), ?_,
    fun p waits => List.mem_cons_of_mem _ (h.fewer waits), ?_, ?_⟩
  · intro p member
    rcases List.mem_cons.mp member with rfl | member
    · exact .inl (.inr (h.kept List.mem_insert_self))
    · exact (h.fates p member).imp_right (given p.key).mpr
  · intro key slot
    rcases h.gained key slot with held | listed
    · rcases List.mem_insert_iff.mp held with rfl | held
      · exact .inr (List.mem_cons_self ..)
      · exact .inl held
    · exact .inr (List.mem_cons_of_mem _ listed)
  · intro key up
    obtain ⟨listed, out⟩ := h.out key ((given key).mp up)
    exact ⟨List.mem_cons_of_mem _ listed, out⟩
  · simpa [quiet] using h.once

/-- The first job is given up. -/
theorem Filled.giveUp (h : Filled rest running q second) (apart : job.key ∉ rest.map Object.key)
    (free : job.key ∉ running)
    (marked : failuresStored first = [job.key] ∧ failuresRefused first = [] ∨
      failuresStored first = [] ∧ failuresRefused first = [job.key]) :
    Filled (job :: rest) running q (first ++ second) := by
  have given : ∀ key, GivenUp first key ↔ key = job.key := by
    intro key
    rcases marked with ⟨stored, refused⟩ | ⟨stored, refused⟩ <;>
      simp [GivenUp, stored, refused]
  have out : ¬ q.Holds job.key := by
    rintro (waits | slot)
    · obtain ⟨p, member, same⟩ := List.mem_map.mp waits
      exact apart (same ▸ List.mem_map_of_mem (h.fewer member))
    · exact (h.gained _ slot).elim free apart
  have later : ¬ GivenUp second job.key := fun up => apart (h.out _ up).1
  refine ⟨?_, h.kept, ?_, fun p waits => List.mem_cons_of_mem _ (h.fewer waits), ?_, ?_⟩
  · intro p member
    rcases List.mem_cons.mp member with rfl | member
    · exact .inr (givenUp_append.mpr (.inl ((given _).mpr rfl)))
    · exact (h.fates p member).imp_right fun up => givenUp_append.mpr (.inr up)
  · exact fun key slot => (h.gained key slot).imp_right (List.mem_cons_of_mem _)
  · intro key up
    rcases givenUp_append.mp up with up | up
    · obtain rfl := (given key).mp up
      exact ⟨List.mem_cons_self .., out⟩
    · obtain ⟨listed, out⟩ := h.out key up
      exact ⟨List.mem_cons_of_mem _ listed, out⟩
  · refine GivenUp.once_append ?_ ?_ h.once
    · intro key up
      rw [(given key).mp up]
      exact later
    · intro key stored refused
      rcases marked with ⟨-, none⟩ | ⟨none, -⟩
      · simp [none] at refused
      · simp [none] at stored

/-- Filling the slots of an orderly queue, whatever the cluster answers. -/
theorem filled (h : Orderly { limit, pending := jobs, running })
    (path : Path (Admission.fill limit jobs running) es q) : Filled jobs running q es := by
  -- The loop takes the jobs from the front; that the keys differ keeps later rounds off earlier ones.
  induction jobs generalizing running es with
  | nil =>
    obtain ⟨rfl, rfl⟩ := path_done.mp path
    exact .idle
  | cons job rest ih =>
    have apart : job.key ∉ rest.map Object.key := (List.nodup_cons.mp h.distinct).1
    have free : job.key ∉ running := h.apart job (List.mem_cons_self ..)
    by_cases room : running.length < limit
    · rcases (path_fill_cons room).mp path with
        ⟨first, second, rfl, started, after⟩ |
        ⟨first, e, marking, second, rfl, unstarted, marked, after⟩
      · exact (ih h.admit after).started (failures_start started)
      · rw [← List.append_assoc]
        refine (ih h.drop after).giveUp apart free ?_
        simpa [failures_start unstarted] using failures_markFailed marked
    · obtain ⟨rfl, rfl⟩ := (path_fill_full room).mp path
      exact .idle

/-! The cluster. -/

/-- Nothing changed under a key. -/
structure SameAt (key : String) (v v' : View) : Prop where
  job : v'.job? key = v.job? key
  run : v'.run? key = v.run? key

theorem SameAt.refl (key : String) (v : View) : SameAt key v v := ⟨rfl, rfl⟩

theorem SameAt.trans {key : String} (h : SameAt key v v₁) (h' : SameAt key v₁ v') :
    SameAt key v v' := ⟨h'.job.trans h.job, h'.run.trans h.run⟩

/-- A started job has a run, which was there or was made for it. -/
def HasRun (v v' : View) (job : PipelineJob) : Prop :=
  ∃ run, v'.run? job.key = some run ∧
    (v.run? job.key = some run ∨ v.run? job.key = none ∧ owns job run = true)

/-- What filling the slots did to jobs and runs. -/
structure Settled (jobs : List PipelineJob) (v v' : View) (q : Admission) (es : List Event) :
    Prop where
  others : ∀ key, key ∉ jobs.map Object.key → SameAt key v v'
  admitted : ∀ job ∈ jobs, job.key ∈ q.running → HasRun v v' job
  failed : ∀ key ∈ failuresStored es, ∃ job, v'.job? key = some job ∧ job.jobState = .failed
  refused : ∀ key ∈ failuresRefused es, v'.job? key = v.job? key

/-- Where there is no slot or no job that waits, nothing happens. -/
theorem Settled.idle (free : ∀ job ∈ jobs, job.key ∉ q.running) : Settled jobs v v q [] where
  others key _ := .refl key v
  admitted job member slot := absurd slot (free job member)
  failed key stored := by contradiction
  refused key refused := by contradiction

/-- One job more at the front, which touches its own key only. -/
theorem Settled.cons (h : Settled rest v₁ v' q second) (dealt : Filled rest running' q second)
    (apart : job.key ∉ rest.map Object.key) (elsewhere : ∀ key, key ≠ job.key → SameAt key v v₁)
    (admitted : job.key ∈ q.running → HasRun v v' job)
    (failed : ∀ key ∈ failuresStored first,
      ∃ job, v'.job? key = some job ∧ job.jobState = .failed)
    (refused : ∀ key ∈ failuresRefused first, v'.job? key = v.job? key) :
    Settled (job :: rest) v v' q (first ++ second) := by
  have other {key : String} (listed : key ∈ rest.map Object.key) : SameAt key v v₁ :=
    elsewhere key fun same => apart (same ▸ listed)
  refine ⟨?_, ?_, ?_, ?_⟩
  · intro key absent
    obtain ⟨different, absent⟩ : key ≠ job.key ∧ key ∉ rest.map Object.key := by
      simpa using absent
    exact (elsewhere key different).trans (h.others key absent)
  · intro p member slot
    rcases List.mem_cons.mp member with rfl | member
    · exact admitted slot
    · obtain ⟨run, found, origin⟩ := h.admitted p member slot
      rw [(other (List.mem_map_of_mem member)).run] at origin
      exact ⟨run, found, origin⟩
  · intro key stored
    rw [failuresStored_append, List.mem_append] at stored
    exact stored.elim (failed key) (h.failed key)
  · intro key member
    rw [failuresRefused_append, List.mem_append] at member
    rcases member with early | late
    · exact refused key early
    · exact (h.refused key late).trans (other (dealt.out key (.inr late)).1).job

/-- The first job is started. -/
theorem Settled.started {run : PipelineRun} (h : Settled rest v₁ v' q second)
    (dealt : Filled rest running' q second) (apart : job.key ∉ rest.map Object.key)
    (quiet : failuresStored first = [] ∧ failuresRefused first = [])
    (found : v₁.run? job.key = some run)
    (started : v₁ = v ∨
      owns job run = true ∧ v.run? job.key = none ∧ v₁ = v.putRun job.key run) :
    Settled (job :: rest) v v' q (first ++ second) := by
  have elsewhere : ∀ key, key ≠ job.key → SameAt key v v₁ := by
    intro key other
    rcases started with rfl | ⟨-, -, rfl⟩
    · exact .refl key v₁
    · exact ⟨rfl, by simp [other]⟩
  have origin : v.run? job.key = some run ∨ v.run? job.key = none ∧ owns job run = true := by
    rcases started with rfl | ⟨own, absent, -⟩
    · exact .inl found
    · exact .inr ⟨absent, own⟩
  have kept : v'.run? job.key = some run := (h.others job.key apart).run.trans found
  exact h.cons dealt apart elsewhere (fun _ => ⟨run, kept, origin⟩) (by simp [quiet])
    (by simp [quiet])

/-- The first job is given up. -/
theorem Settled.giveUp (h : Settled rest v₁ v' q second) (dealt : Filled rest running q second)
    (apart : job.key ∉ rest.map Object.key) (free : job.key ∉ running)
    (marked : failuresStored first = [] ∧ failuresRefused first = [job.key] ∧ v₁ = v ∨
      failuresStored first = [job.key] ∧ failuresRefused first = [] ∧
        ∃ stored, stored.jobState = .failed ∧ v₁ = v.putJob job.key stored) :
    Settled (job :: rest) v v' q (first ++ second) := by
  have out : job.key ∉ q.running := fun slot => (dealt.gained _ slot).elim free apart
  have kept : v'.job? job.key = v₁.job? job.key := (h.others job.key apart).job
  rcases marked with ⟨none, one, rfl⟩ | ⟨one, none, stored, state, rfl⟩
  · refine h.cons dealt apart (fun key _ => .refl key v₁) (absurd · out) (by simp [none]) ?_
    intro key refused
    obtain rfl : key = job.key := by simpa [one] using refused
    exact kept
  · refine h.cons dealt apart (fun key other => ⟨by simp [other], rfl⟩) (absurd · out) ?_
      (by simp [none])
    intro key failed
    obtain rfl : key = job.key := by simpa [one] using failed
    exact ⟨stored, by simp [kept], state⟩

/-- A job is marked failed, unless the cluster refuses. -/
theorem view_markFailed {e : Error} (marked : Path (markFailed job e) es ())
    (h : Follows World.May w es w') :
    failuresStored es = [] ∧ failuresRefused es = [job.key] ∧ w'.view = w.view ∨
    failuresStored es = [job.key] ∧ failuresRefused es = [] ∧
      ∃ stored, stored.jobState = .failed ∧ w'.view = w.view.putJob job.key stored := by
  obtain ⟨o, rfl⟩ := path_markFailed.mp marked
  obtain ⟨w₁, patched, stop⟩ := follows_cons.mp h
  obtain rfl := follows_nil.mp stop
  rcases patched with ⟨e', rfl, rfl⟩ | ⟨rfl, rfl⟩
  · exact .inl ⟨rfl, rfl, rfl⟩
  · exact .inr ⟨rfl, rfl, _, rfl, view_patchJob w job _⟩

/-- Filling the slots of an orderly queue, whichever requests fail. -/
theorem settled (h : Orderly { limit, pending := jobs, running })
    (path : Path (Admission.fill limit jobs running) es q)
    (follows : Follows World.May w es w') : Settled jobs w.view w'.view q es := by
  induction jobs generalizing running es w with
  | nil =>
    obtain ⟨rfl, rfl⟩ := path_done.mp path
    obtain rfl := follows_nil.mp follows
    exact .idle (by simp)
  | cons job rest ih =>
    have apart : job.key ∉ rest.map Object.key := (List.nodup_cons.mp h.distinct).1
    have free : job.key ∉ running := h.apart job (List.mem_cons_self ..)
    by_cases room : running.length < limit
    · rcases (path_fill_cons room).mp path with
        ⟨first, second, rfl, started, after⟩ |
        ⟨first, e, marking, second, rfl, unstarted, marked, after⟩
      · obtain ⟨w₁, starting, follows⟩ := follows_append.mp follows
        obtain ⟨run, found, change⟩ := view_started started starting
        exact (ih h.admit after follows).started (filled h.admit after) apart
          (failures_start started) found change
      · obtain ⟨w₁, starting, follows⟩ := follows_append.mp follows
        obtain ⟨w₂, giving, follows⟩ := follows_append.mp follows
        have unchanged : w₁.view = w.view := view_unstarted unstarted starting
        have change := view_markFailed marked giving
        rw [unchanged] at change
        rw [← List.append_assoc]
        refine (ih h.drop after follows).giveUp (filled h.drop after) apart free ?_
        simpa [failures_start unstarted] using change
    · obtain ⟨rfl, rfl⟩ := (path_fill_full room).mp path
      obtain rfl := follows_nil.mp follows
      exact .idle h.apart

end Gatehouse.Control
