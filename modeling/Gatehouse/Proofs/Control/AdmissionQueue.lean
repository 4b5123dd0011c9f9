import Mathlib.Data.List.Nodup
import Gatehouse.Control.World
import Gatehouse.Proofs.Control.Course

/-!
# The admission queue between two pieces of news

Each piece of news edits the waiting jobs and the slots, and then jobs are started from the front as
long as there are slots, whatever fails. In between the queue is orderly: jobs wait under
different keys, none of them holds a slot, all of them may be started, and no slot is left free while
a job waits.
-/

namespace Gatehouse.Control

open Program Resource

variable {limit : Nat} {job : PipelineJob} {jobs rest : List PipelineJob} {running : List String}
  {q q' : Admission} {es : List Event}

/-! Lists of waiting jobs. -/

theorem mem_without {p : PipelineJob} {key : String} :
    p ∈ without key jobs ↔ p ∈ jobs ∧ p.key ≠ key := by
  simp [without]

theorem without_sublist (key : String) (jobs : List PipelineJob) :
    (without key jobs).Sublist jobs := List.filter_sublist

theorem of_mem_enqueue {p : PipelineJob} (h : p ∈ enqueue job jobs) : p = job ∨ p ∈ jobs := by
  induction jobs with
  | nil => exact .inl (List.mem_singleton.mp h)
  | cons first rest ih =>
    rw [enqueue] at h
    split at h
    · rcases List.mem_cons.mp h with same | member
      · exact .inl same
      · exact .inr (List.mem_cons_of_mem _ member)
    · rcases List.mem_cons.mp h with same | member
      · exact .inr (List.mem_cons.mpr (.inl same))
      · exact (ih member).imp_right (List.mem_cons_of_mem _)

/-- A job takes the place of its key, or a new one at the end. -/
theorem enqueue_keys (job : PipelineJob) (jobs : List PipelineJob) :
    (enqueue job jobs).map Object.key =
      if job.key ∈ jobs.map Object.key then jobs.map Object.key
      else jobs.map Object.key ++ [job.key] := by
  induction jobs with
  | nil => rfl
  | cons first rest ih =>
    rw [enqueue]
    by_cases same : first.key = job.key
    · simp [same]
    · have other : job.key ≠ first.key := fun h => same h.symm
      rw [if_neg same, List.map_cons, ih, List.map_cons]
      by_cases member : job.key ∈ rest.map Object.key
      · rw [if_pos member, if_pos (List.mem_cons_of_mem _ member)]
      · have absent : job.key ∉ first.key :: rest.map Object.key := by
          simp [other, member]
        rw [if_neg member, if_neg absent, List.cons_append]

theorem nodup_enqueue (h : (jobs.map Object.key).Nodup) :
    ((enqueue job jobs).map Object.key).Nodup := by
  rw [enqueue_keys]
  split
  · exact h
  · rename_i absent
    refine List.nodup_append.mpr ⟨h, List.nodup_singleton _, ?_⟩
    intro key member other same
    obtain rfl := List.mem_singleton.mp same
    rintro rfl
    exact absent member

/-! Courses of admission. -/

theorem path_markFailed {e : Error} :
    Path (markFailed job e) es () ↔
      ∃ o, es = [⟨.cluster (.patchJobStatus job
        { job.jobStatus with state := .failed, message := e.message }), o⟩] := by
  constructor
  · intro h
    obtain ⟨first, o, second, rfl, asked, ended⟩ := path_bind.mp h
    obtain rfl := course_askCluster.mp asked
    obtain ⟨rfl, -⟩ := path_done.mp ended
    exact ⟨o, rfl⟩
  · rintro ⟨o, rfl⟩
    exact path_bind.mpr ⟨_, o, [], rfl, course_askCluster.mpr rfl, .done ()⟩

/-- While there is a free slot the first job is started. It gets the slot, or fails. -/
theorem path_fill_cons (room : running.length < limit) :
    Path (Admission.fill limit (job :: rest) running) es q ↔
      (∃ first second, es = first ++ second ∧ Course (start job) first (.ok ()) ∧
        Path (Admission.fill limit rest (running.insert job.key)) second q) ∨
      ∃ first e failed second, es = first ++ (failed ++ second) ∧
        Course (start job) first (.error e) ∧ Path (markFailed job e) failed () ∧
        Path (Admission.fill limit rest running) second q := by
  rw [Admission.fill, if_pos room, path_bind]
  constructor
  · rintro ⟨first, o, second, rfl, started, after⟩
    cases o with
    | ok a => exact .inl ⟨first, second, rfl, started, after⟩
    | error e =>
      obtain ⟨failed, a, second, rfl, marked, after⟩ := path_bind.mp after
      exact .inr ⟨first, e, failed, second, rfl, started, marked, after⟩
  · rintro (⟨first, second, rfl, started, after⟩ |
      ⟨first, e, failed, second, rfl, started, marked, after⟩)
    · exact ⟨first, .ok (), second, rfl, started, after⟩
    · exact ⟨first, .error e, _, rfl, started, path_bind.mpr ⟨failed, (), second, rfl, marked, after⟩⟩

theorem path_fill_full (full : ¬ running.length < limit) :
    Path (Admission.fill limit (job :: rest) running) es q ↔
      es = [] ∧ q = { limit, pending := job :: rest, running } := by
  rw [Admission.fill, if_neg full, path_done]

/-! The invariant. -/

/-- The job may be started: it is neither deleted nor over and does not run. -/
structure Waits (job : PipelineJob) : Prop where
  alive : job.isDeleting = false
  going : isOver job = false
  pending : job.jobState = .pending

/-- Waiting jobs have different keys and no slots, and may be started; slots have different
keys. -/
structure Orderly (q : Admission) : Prop where
  distinct : (q.pending.map Object.key).Nodup
  apart : ∀ p ∈ q.pending, p.key ∉ q.running
  waiting : ∀ p ∈ q.pending, Waits p
  slots : q.running.Nodup

/-- No slot is free while a job waits. -/
def Busy (q : Admission) : Prop := q.limit ≤ q.running.length ∨ q.pending = []

theorem orderly_fresh (limit : Nat) : Orderly { limit } where
  distinct := List.nodup_nil
  apart := by simp
  waiting := by simp
  slots := List.nodup_nil

/-- Fewer jobs wait, and their keys are not among the new slots. -/
theorem Orderly.shrink (h : Orderly q) {pending : List PipelineJob}
    (fewer : pending.Sublist q.pending) (slots : running.Nodup)
    (apart : ∀ p ∈ pending, p.key ∉ q.running → p.key ∉ running) :
    Orderly { limit, pending, running } where
  distinct := h.distinct.sublist (fewer.map Object.key)
  apart := fun p member => apart p member (h.apart p (fewer.subset member))
  waiting := fun p member => h.waiting p (fewer.subset member)
  slots := slots

/-- Taking in a piece of news keeps the queue orderly, though it may leave a slot free. -/
theorem Orderly.takeIn (h : Orderly q) (job : PipelineJob) : Orderly (q.takeIn job) := by
  have fewer := without_sublist job.key q.pending
  unfold Admission.takeIn
  split
  · exact h.shrink fewer (h.slots.erase _) fun p _ free held => free (List.mem_of_mem_erase held)
  rename_i stays
  split
  · refine h.shrink fewer (h.slots.insert) ?_
    intro p member free held
    rcases List.mem_insert_iff.mp held with same | held
    · exact (mem_without.mp member).2 same
    · exact free held
  rename_i halted
  split
  · exact h
  rename_i free
  -- Whatever is neither deleted nor over and does not run is pending.
  obtain ⟨alive, going⟩ : job.isDeleting = false ∧ isOver job = false := by simpa using stays
  have pending : job.jobState = .pending := by
    cases state : job.jobState with
    | pending => rfl
    | running => exact absurd state halted
    | completed | failed | canceled => simp [isOver, state] at going
  refine ⟨nodup_enqueue h.distinct, ?_, ?_, h.slots⟩
  · intro p member
    rcases of_mem_enqueue member with rfl | member
    · simpa using free
    · exact h.apart p member
  · intro p member
    rcases of_mem_enqueue member with rfl | member
    · exact ⟨alive, going, pending⟩
    · exact h.waiting p member

theorem of_mem_pending_takeIn {p : PipelineJob} (h : p ∈ (q.takeIn job).pending) :
    p = job ∨ p ∈ q.pending := by
  unfold Admission.takeIn at h
  split at h
  · exact .inr (mem_without.mp h).1
  split at h
  · exact .inr (mem_without.mp h).1
  split at h
  · exact .inr h
  · exact of_mem_enqueue h

/-- Only a job that is deleted or over gives back its slot. -/
theorem mem_running_takeIn {key : String} (h : key ∈ q.running) (job : PipelineJob) :
    key ∈ (q.takeIn job).running ∨
      key = job.key ∧ (job.isDeleting = true ∨ isOver job = true) := by
  unfold Admission.takeIn
  split
  · rename_i ended
    by_cases same : key = job.key
    · exact .inr ⟨same, by simpa using ended⟩
    · exact .inl ((List.mem_erase_of_ne same).mpr h)
  split
  · exact .inl (List.mem_insert_of_mem h)
  split
  · exact .inl h
  · exact .inl h

@[simp] theorem limit_takeIn (q : Admission) (job : PipelineJob) :
    (q.takeIn job).limit = q.limit := by
  unfold Admission.takeIn
  repeat' split
  all_goals rfl

/-- The first job gets a slot. -/
theorem Orderly.admit (h : Orderly { limit, pending := job :: rest, running }) :
    Orderly { limit, pending := rest, running := running.insert job.key } := by
  refine h.shrink (List.sublist_cons_self job rest) h.slots.insert ?_
  intro p member free held
  rcases List.mem_insert_iff.mp held with same | held
  · have alone := (List.nodup_cons.mp h.distinct).1
    rw [← same] at alone
    exact alone (List.mem_map_of_mem member)
  · exact free held

/-- The first job is given up. -/
theorem Orderly.drop (h : Orderly { limit, pending := job :: rest, running }) :
    Orderly { limit, pending := rest, running } :=
  h.shrink (List.sublist_cons_self job rest) h.slots fun _ _ free => free

/-- Filling the slots keeps the queue orderly and leaves none free while a job waits, however the
starts go. -/
theorem Orderly.fill (h : Orderly { limit, pending := jobs, running })
    (filled : Path (Admission.fill limit jobs running) es q) :
    Orderly q ∧ Busy q ∧ q.limit = limit := by
  -- Each round takes one job off the list, whether it could be started or not.
  induction jobs generalizing running es with
  | nil =>
    obtain ⟨-, rfl⟩ := path_done.mp filled
    exact ⟨h, .inr rfl, rfl⟩
  | cons job rest ih =>
    by_cases room : running.length < limit
    · rcases (path_fill_cons room).mp filled with
        ⟨first, second, -, -, after⟩ | ⟨first, e, failed, second, -, -, -, after⟩
      · exact ih h.admit after
      · exact ih h.drop after
    · obtain ⟨-, rfl⟩ := (path_fill_full room).mp filled
      exact ⟨h, .inl (Nat.le_of_not_lt room), rfl⟩

/-- What a fresh queue can become by handling news, however the cluster answers. -/
inductive Reached (limit : Nat) : Admission → Prop
  | fresh : Reached limit { limit }
  | handled {q q' : Admission} {job : PipelineJob} {es : List Event} :
      Reached limit q → Path (q.handle job) es q' → Reached limit q'

theorem orderly_of_reached (h : Reached limit q) : Orderly q ∧ Busy q ∧ q.limit = limit := by
  induction h with
  | fresh => exact ⟨orderly_fresh limit, .inr rfl, rfl⟩
  | @handled q q' job es _ handled ih =>
    obtain ⟨orderly, -, same⟩ := ih
    obtain ⟨orderly, busy, kept⟩ := (orderly.takeIn job).fill handled
    have same_limit : q'.limit = q.limit := kept.trans (limit_takeIn q job)
    exact ⟨orderly, busy, same_limit.trans same⟩

theorem Reached.handleAll (h : Reached limit q) (handled : Path (q.handleAll jobs) es q') :
    Reached limit q' := by
  induction jobs generalizing q es with
  | nil =>
    obtain ⟨-, rfl⟩ := path_done.mp handled
    exact h
  | cons job rest ih =>
    obtain ⟨first, next, second, -, one, others⟩ := path_bind.mp handled
    exact ih (h.handled one) others

/-- The queue of a controller at work is one of these. -/
theorem Reached.settle (h : Reached limit q) (now : Instant) (w : World) :
    Reached limit (w.settle now q).1 := by
  obtain ⟨es, path, -⟩ := path_run (fun _ _ _ _ => True) (World.answer now)
    (fun _ _ => trivial) (q.handleAll w.notified) { w with notified := [] }
  exact h.handleAll path

/-- After each piece of news: waiting jobs have different keys, none of which holds a slot; they are
neither deleted nor over but pending; and a job waits only if all slots are taken. -/
theorem waiting_jobs_reached (h : Reached limit q) :
    (q.pending.map Object.key).Nodup ∧
    (∀ p ∈ q.pending, p.key ∉ q.running) ∧
    (∀ p ∈ q.pending, p.isDeleting = false ∧ isOver p = false ∧ p.jobState = .pending) ∧
    q.running.Nodup ∧ (limit ≤ q.running.length ∨ q.pending = []) := by
  obtain ⟨orderly, busy, rfl⟩ := orderly_of_reached h
  refine ⟨orderly.distinct, orderly.apart, ?_, orderly.slots, busy⟩
  intro p member
  obtain ⟨alive, going, pending⟩ := orderly.waiting p member
  exact ⟨alive, going, pending⟩

/-- A job that was just stored. -/
def queuedBuild (name : String) : PipelineJob where
  metadata := { name := some name, inNamespace := some "ci", uid := some name }
  spec := { config := "repo", refs := { repository := "org/repo", ref := "main", sha := "" } }

theorem waiting_jobs_reached_one :
    let told : World :=
      { notified := [(queuedBuild "a").withStatus { state := .running }, queuedBuild "b"] }
    let q := (told.settle default { limit := 1 }).1
    Reached 1 q ∧ q.running = ["ci/a"] ∧ q.pending.map Object.key = ["ci/b"] ∧
    (∀ p ∈ q.pending, p.key ∉ q.running) := by
  intro told q
  have reached : Reached 1 q := Reached.fresh.settle default told
  exact ⟨reached, by decide, by decide, (waiting_jobs_reached reached).2.1⟩

end Gatehouse.Control
