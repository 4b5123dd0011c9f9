import Gatehouse.Proofs.Control.Arrival
import Gatehouse.Proofs.Control.Filling
import Gatehouse.Proofs.Control.SlotBound

/-!
# News that the queue has heard

When the queue is told the same thing of a job again, it has nothing to take in and nothing to
start: no slot was left free while a job waited. The one exception is a job that was given up the
first time, which is put into the queue again. So a job that is deleted or over gives back its slot
once, however often the queue is told (`repeated_news`).
-/

namespace Gatehouse.Control

open Program Resource

variable {limit : Nat} {q q₁ q' : Admission} {job : PipelineJob} {jobs : List PipelineJob}
  {story : List Moment} {es : List Event}

/-! When there is nothing to take in. -/

theorem without_absent (absent : ¬ q.Queues job.key) : without job.key q.pending = q.pending := by
  refine List.filter_eq_self.mpr ?_
  intro p member
  have other : p.key ≠ job.key := fun same => absent (same ▸ List.mem_map_of_mem member)
  simpa using other

/-- A job that waits under its key only once is in its place already. -/
theorem enqueue_self (distinct : (jobs.map Object.key).Nodup) (member : job ∈ jobs) :
    enqueue job jobs = jobs := by
  rw [enqueue_known distinct (List.mem_map_of_mem member)]
  refine (List.map_congr_left ?_).trans (List.map_id jobs)
  intro p listed
  by_cases same : p.key = job.key
  · rw [if_pos same, List.inj_on_of_nodup_map distinct member listed same.symm]
    rfl
  · exact if_neg same

/-- What the queue holds of a job after it has heard of it. -/
def Admission.UpToDate (q : Admission) (job : PipelineJob) : Prop :=
  if job.isDeleting || isOver job then ¬ q.Queues job.key ∧ job.key ∉ q.running
  else if job.jobState = .running then ¬ q.Queues job.key ∧ job.key ∈ q.running
  else job.key ∈ q.running ∨ job ∈ q.pending

theorem takeIn_upToDate (h : Orderly q) (known : q.UpToDate job) : q.takeIn job = q := by
  unfold Admission.UpToDate at known
  unfold Admission.takeIn
  by_cases ended : (job.isDeleting || isOver job) = true
  · rw [if_pos ended] at known ⊢
    rw [without_absent known.1, List.erase_of_not_mem known.2]
  rw [if_neg ended] at known ⊢
  by_cases runs : job.jobState = .running
  · rw [if_pos runs] at known ⊢
    rw [without_absent known.1, List.insert_of_mem known.2]
  rw [if_neg runs] at known ⊢
  by_cases held : job.key ∈ q.running
  · exact if_pos (List.contains_iff_mem.mpr held)
  · have waits : job ∈ q.pending := known.resolve_left held
    have free : ¬ q.running.contains job.key = true := by simpa using held
    rw [if_neg free, enqueue_self h.distinct waits]

/-- A queue at rest that is up to date does nothing. -/
theorem handle_upToDate (h : Orderly q) (rests : Busy q) (known : q.UpToDate job) :
    q.handle job = .done q := by
  have same : q.takeIn job = q := takeIn_upToDate h known
  have idle := fill_of_busy rests
  unfold Admission.handle
  rw [same]
  exact idle

theorem handleAll_replicate (same : q.handle job = .done q) (n : Nat) :
    q.handleAll (List.replicate n job) = .done q := by
  induction n with
  | zero => rfl
  | succ n ih =>
    rw [List.replicate_succ, Admission.handleAll, same, done_bind]
    exact ih

/-! After the first time. -/

/-- A job that ended is nowhere in the queue afterwards. -/
theorem gone_takeIn (h : Orderly q) (ended : job.isDeleting = true ∨ isOver job = true) :
    ¬ (q.takeIn job).Queues job.key ∧ job.key ∉ (q.takeIn job).running := by
  have finished : (job.isDeleting || isOver job) = true := by simpa using ended
  unfold Admission.takeIn
  rw [if_pos finished]
  constructor
  · intro waits
    obtain ⟨p, member, same⟩ := List.mem_map.mp waits
    exact (mem_without.mp member).2 same
  · intro held
    exact (List.Nodup.mem_erase_iff h.slots).mp held |>.1 rfl

/-- A job that is told to run holds a slot. -/
theorem held_takeIn (going : ¬ (job.isDeleting || isOver job) = true)
    (runs : job.jobState = .running) : job.key ∈ (q.takeIn job).running := by
  unfold Admission.takeIn
  rw [if_neg going, if_pos runs]
  exact List.mem_insert_self

theorem mem_enqueue (job : PipelineJob) (jobs : List PipelineJob) : job ∈ enqueue job jobs := by
  induction jobs with
  | nil => exact List.mem_singleton_self job
  | cons first rest ih =>
    rw [enqueue]
    by_cases same : first.key = job.key
    · rw [if_pos same]
      exact List.mem_cons_self ..
    · rw [if_neg same]
      exact List.mem_cons_of_mem _ ih

/-- A pending job holds a slot already, or waits in its latest version. -/
theorem held_or_waits_takeIn (going : ¬ (job.isDeleting || isOver job) = true)
    (idle : job.jobState ≠ .running) :
    job.key ∈ (q.takeIn job).running ∨ job ∈ (q.takeIn job).pending := by
  unfold Admission.takeIn
  rw [if_neg going, if_neg idle]
  by_cases held : q.running.contains job.key = true
  · rw [if_pos held]
    exact .inl (List.contains_iff_mem.mp held)
  · rw [if_neg held]
    exact .inr (mem_enqueue job q.pending)

/-- The queue is up to date after it handled a piece of news, unless it gave up the very job. -/
theorem upToDate_of_handle (h : Orderly q) (handled : Path (q.handle job) es q₁)
    (kept : job.isDeleting = true ∨ isOver job = true ∨ job.jobState = .running ∨
      ¬ GivenUp es job.key) : q₁.UpToDate job := by
  have before : Orderly (q.takeIn job) := h.takeIn job
  have after : Orderly q₁ := (before.fill handled).1
  have dealt := filled before handled
  unfold Admission.UpToDate
  by_cases ended : (job.isDeleting || isOver job) = true
  · rw [if_pos ended]
    obtain ⟨out, free⟩ := gone_takeIn h (by simpa using ended)
    have missing : ¬ q₁.Queues job.key := by
      intro waits
      obtain ⟨p, member, same⟩ := List.mem_map.mp waits
      exact out (same ▸ List.mem_map_of_mem (dealt.fewer member))
    have slotless : job.key ∉ q₁.running := by
      intro held
      rcases dealt.gained _ held with slot | waited
      · exact free slot
      · exact out waited
    exact ⟨missing, slotless⟩
  rw [if_neg ended]
  by_cases runs : job.jobState = .running
  · rw [if_pos runs]
    have held : job.key ∈ q₁.running := dealt.kept (held_takeIn ended runs)
    refine ⟨?_, held⟩
    intro waits
    obtain ⟨p, member, same⟩ := List.mem_map.mp waits
    exact after.apart p member (same ▸ held)
  rw [if_neg runs]
  rcases held_or_waits_takeIn (q := q) ended runs with held | waits
  · exact .inl (dealt.kept held)
  · have stays : ¬ GivenUp es job.key := by
      simp only [Bool.or_eq_true, not_or] at ended
      exact ((kept.resolve_left ended.1).resolve_left ended.2).resolve_left runs
    -- Of the jobs that waited, the one of this key is this version.
    rcases (dealt.fates job waits).resolve_right stays with waiting | held
    · obtain ⟨p, member, same⟩ := List.mem_map.mp waiting
      have latest : p = job :=
        List.inj_on_of_nodup_map before.distinct (dealt.fewer member) waits same
      exact .inr (latest ▸ member)
    · exact .inl held

/-! How many jobs are started. -/

/-- Each job that could be started took a slot of its own. -/
theorem Story.admitted (told : Story q story es q') (h : Orderly q) (silent : newsIn story = []) :
    q'.running.length = q.running.length + (admittedIn story).length := by
  induction told with
  | nil q => rfl
  | cons move _ ih =>
    cases move with
    | news job rests => cases silent
    | @admitted limit job rest running es room started =>
      have free : job.key ∉ running := h.apart job (List.mem_cons_self ..)
      have grown : (running.insert job.key).length = running.length + 1 :=
        List.length_insert_of_not_mem free
      have later := ih h.admit silent
      simp only [admittedIn, List.filterMap_cons, Moment.admitted?, List.length_cons] at later ⊢
      omega
    | failed room unstarted marked => exact ih h.drop silent

/-- Where nothing waits nothing is tried. -/
theorem Story.idle (told : Story q story es q') (silent : newsIn story = [])
    (empty : q.pending = []) : story = [] := by
  cases told with
  | nil q => rfl
  | cons move later =>
    cases move with
    | news job rests => cases silent
    | admitted room started => cases empty
    | failed room unstarted marked => cases empty

/-- The end of a job gives back its slot, if it had one, so at most one job is started. -/
theorem Story.admitted_ended (told : Story (q.takeIn job) story es q₁) (h : Orderly q)
    (rests : Busy q) (silent : newsIn story = [])
    (ended : job.isDeleting = true ∨ isOver job = true) :
    (admittedIn story).length ≤ if job.key ∈ q.running then 1 else 0 := by
  have finished : (job.isDeleting || isOver job) = true := by simpa using ended
  rcases rests with full | empty
  · have grown := told.admitted (h.takeIn job) silent
    have bound := told.slots_tries silent
    have left : (q.takeIn job).running = q.running.erase job.key := by
      rw [Admission.takeIn, if_pos finished]
    rw [limit_takeIn, left] at bound
    rw [left] at grown
    by_cases held : job.key ∈ q.running
    · have one := List.length_erase_of_mem held
      have some_ := List.length_pos_of_mem held
      rw [if_pos held]
      omega
    · rw [List.erase_of_not_mem held] at bound grown
      rw [if_neg held]
      omega
  · have none_ : (q.takeIn job).pending = [] := by
      rw [Admission.takeIn, if_pos finished]
      exact List.filter_eq_nil_iff.mpr (by simp [empty])
    rw [told.idle silent none_]
    exact Nat.zero_le _

/-- Being told of a job again as it was the first time asks nothing of the cluster and changes
nothing, however often it happens, unless the job was pending and has been given up. So a job that
is deleted or over gives back at most its own slot, and lets at most one other job start if it had
one. -/
theorem repeated_news (h : Reached limit q) (first : Path (q.handle job) es q₁)
    (settled : job.isDeleting = true ∨ isOver job = true ∨ job.jobState = .running ∨
      job.jobState = .pending ∧ ¬ GivenUp es job.key) :
    q₁.handle job = .done q₁ ∧
    (∀ n, q₁.handleAll (List.replicate n job) = .done q₁) ∧
    (job.isDeleting = true ∨ isOver job = true →
      (∀ key ∈ q.running, key = job.key ∨ key ∈ q₁.running) ∧
      ∃ tries, Story (q.takeIn job) tries es q₁ ∧ newsIn tries = [] ∧
        (admittedIn tries).length ≤ if job.key ∈ q.running then 1 else 0) := by
  obtain ⟨before, rests, -⟩ := orderly_of_reached h
  obtain ⟨after, rests₁, -⟩ := orderly_of_reached (h.handled first)
  have kept : job.isDeleting = true ∨ isOver job = true ∨ job.jobState = .running ∨
      ¬ GivenUp es job.key := settled.imp_right (.imp_right (.imp_right And.right))
  have known : q₁.UpToDate job := upToDate_of_handle before first kept
  have same : q₁.handle job = .done q₁ := handle_upToDate after rests₁ known
  refine ⟨same, handleAll_replicate same, fun ended => ⟨?_, ?_⟩⟩
  · intro key slot
    rcases mem_running_takeIn slot job with stays | ⟨own, -⟩
    · exact .inr ((filled (before.takeIn job) first).kept stays)
    · exact .inl own
  · obtain ⟨tries, told, silent, -⟩ := story_of_fill first
    exact ⟨tries, told, silent, told.admitted_ended before rests silent ended⟩

/-- The end of a build lets the one start that waits; hearing of it again does nothing. -/
theorem repeated_news_end :
    ∃ q es q₁, Reached 1 q ∧ q.running = ["ci/a"] ∧ q.pending = [queuedBuild "b"] ∧
      Path (q.handle (reportedBuild "a" .completed)) es q₁ ∧ q₁.running = ["ci/b"] ∧
      q₁.handle (reportedBuild "a" .completed) = .done q₁ := by
  let busy : Admission := { limit := 1, pending := [queuedBuild "b"], running := ["ci/a"] }
  have run : Path (Admission.handleAll { limit := 1 }
      [reportedBuild "a" .running, queuedBuild "b"]) [] busy := .done busy
  have reached : Reached 1 busy := Reached.fresh.handleAll run
  obtain ⟨es, started⟩ := queuedBuild_started "b"
  have handled : Path (busy.handle (reportedBuild "a" .completed)) (es ++ [])
      { limit := 1, running := ["ci/b"] } :=
    (path_fill_cons Nat.one_pos).mpr (.inl ⟨es, [], rfl, started, .done _⟩)
  have ended : isOver (reportedBuild "a" .completed) = true := rfl
  exact ⟨busy, _, _, reached, rfl, rfl, handled, rfl,
    (repeated_news reached handled (.inr (.inl ended))).1⟩

end Gatehouse.Control
