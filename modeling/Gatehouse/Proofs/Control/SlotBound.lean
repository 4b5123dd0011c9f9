import Gatehouse.Proofs.Control.Story

/-!
# How many slots are taken

A job is started only while a slot is free, so starting jobs never takes more slots than there are.
More are taken only by jobs that are reported to run without having a slot. If there are no such
reports, no more slots are taken than the limit allows at any moment of a run (`slots_bounded`).
-/

namespace Gatehouse.Control

open Program Resource

variable {limit : Nat} {q q' : Admission} {job : PipelineJob} {jobs : List PipelineJob}
  {move : Move} {story : List Moment} {es es' : List Event}

/-- If the queue is told at this moment that a job runs, the job holds a slot already. -/
def Moment.Expected (m : Moment) : Prop :=
  ∀ job, m.move = .news job → job.jobState = .running → job.key ∈ m.queue.running

/-! One move. -/

theorem Moves.limit_eq (h : Moves q move es q') : q'.limit = q.limit := by
  cases h with
  | news job rests => exact limit_takeIn q job
  | admitted room started => rfl
  | failed room unstarted marked => rfl

/-- Starting a job needs a free slot and takes at most this one. -/
theorem Moves.slots_attempt {o : Except Error Unit} (h : Moves q (.attempt job o) es q') :
    q.running.length < q.limit ∧ q'.running.length ≤ q.limit := by
  cases h with
  | @admitted limit job rest running es room started =>
    refine ⟨room, ?_⟩
    have grown : (running.insert job.key).length ≤ running.length + 1 := by
      rw [List.length_insert]
      split <;> omega
    change (running.insert job.key).length ≤ limit
    change running.length < limit at room
    omega
  | failed room unstarted marked => exact ⟨room, Nat.le_of_lt room⟩

/-- Only a report that a job runs takes a slot without asking. -/
theorem slots_takeIn (expected : job.jobState = .running → job.key ∈ q.running) :
    (q.takeIn job).running.length ≤ q.running.length := by
  unfold Admission.takeIn
  split
  · exact List.length_erase_le
  split
  · rename_i runs
    exact Nat.le_of_eq (List.length_insert_of_mem (expected runs))
  split
  · exact Nat.le_refl _
  · exact Nat.le_refl _

/-- The limit holds after a move if it held before. -/
theorem Moves.slots (h : Moves q move es q') (expected : Moment.Expected ⟨q, move⟩)
    (bound : q.running.length ≤ q.limit) : q'.running.length ≤ q.limit := by
  cases move with
  | news job =>
    cases h
    exact Nat.le_trans (slots_takeIn (expected job rfl)) bound
  | attempt job o => exact h.slots_attempt.2

/-! Many moves. -/

theorem Story.limit_eq (h : Story q story es q') :
    (∀ m ∈ story, m.queue.limit = q.limit) ∧ q'.limit = q.limit :=
  h.keeps (P := fun p => p.limit = q.limit) (fun _ _ _ _ move same => move.limit_eq.trans same) rfl

theorem Story.slots (h : Story q story es q') (expected : ∀ m ∈ story, m.Expected)
    (bound : q.running.length ≤ q.limit) :
    (∀ m ∈ story, m.queue.running.length ≤ q.limit) ∧ q'.running.length ≤ q.limit := by
  have limits := h.limit_eq.1
  refine h.keeps (P := fun p => p.running.length ≤ q.limit) ?_ bound
  intro m member es q₁ move held
  rw [← limits m member] at held ⊢
  exact move.slots (expected m member) held

/-- Jobs that are started get slots up to the limit. -/
theorem Story.slots_tries (h : Story q story es q') (silent : newsIn story = []) :
    q'.running.length ≤ max q.limit q.running.length := by
  have limits := h.limit_eq.1
  refine (h.keeps (P := fun p => p.running.length ≤ max q.limit q.running.length) ?_
    (Nat.le_max_right _ _)).2
  intro m member es q₁ move _
  have same := limits m member
  obtain ⟨p, move'⟩ := m
  cases move' with
  | news job => exact absurd (List.filterMap_eq_nil_iff.mp silent _ member) nofun
  | attempt job o =>
    have held : q₁.running.length ≤ p.limit := move.slots_attempt.2
    exact Nat.le_trans (Nat.le_trans held (Nat.le_of_eq same)) (Nat.le_max_left _ _)

/-- Whatever a queue is told in whatever order, and however its starts go: a job is tried only while
a slot is free. If whoever is reported to run has a slot already, the limit holds at every moment. A
piece of news more leaves at most as many slots taken as the limit allows, or as were taken when it
had been taken in. -/
theorem slots_bounded (run : Path (Admission.handleAll { limit } jobs) es q)
    (handled : Path (q.handle job) es' q') :
    (∃ story, Story { limit } story es q ∧ newsIn story = jobs) ∧
    (∀ story, Story { limit } story es q →
      (∀ m ∈ story, ∀ p o, m.move = .attempt p o → m.queue.running.length < limit) ∧
      ((∀ m ∈ story, m.Expected) →
        (∀ m ∈ story, m.queue.running.length ≤ limit) ∧ q.running.length ≤ limit)) ∧
    q'.running.length ≤ max limit (q.takeIn job).running.length := by
  have rests : Busy { limit } := .inr rfl
  obtain ⟨story, told, news, -⟩ := (path_handleAll rests).mp run
  refine ⟨⟨story, told, news⟩, fun story told => ⟨?_, ?_⟩, ?_⟩
  · intro m member p o tried
    obtain ⟨es, q₁, move⟩ := told.moves member
    rw [tried] at move
    have room := move.slots_attempt.1
    rwa [told.limit_eq.1 m member] at room
  · exact fun expected => told.slots expected (Nat.zero_le _)
  · obtain ⟨tries, tried, silent, -⟩ := story_of_fill handled
    have same : (q.takeIn job).limit = limit := (limit_takeIn q job).trans told.limit_eq.2
    have bound := tried.slots_tries silent
    rwa [same] at bound

/-- A build is started and reported to run, and the next one has to wait. -/
def oneSlotStory : List Moment :=
  [⟨{ limit := 1 }, .news (queuedBuild "a")⟩,
    ⟨{ limit := 1, pending := [queuedBuild "a"] }, .attempt (queuedBuild "a") (.ok ())⟩,
    ⟨{ limit := 1, running := ["ci/a"] }, .news (reportedBuild "a" .running)⟩,
    ⟨{ limit := 1, running := ["ci/a"] }, .news (queuedBuild "b")⟩]

theorem slots_bounded_one :
    ∃ es q q', Path (Admission.handleAll { limit := 1 }
        [queuedBuild "a", reportedBuild "a" .running, queuedBuild "b"]) es q ∧
      Path (q.handle (reportedBuild "c" .running)) [] q' ∧ q'.running = ["ci/c", "ci/a"] ∧
      Story { limit := 1 } oneSlotStory es q ∧ (∀ m ∈ oneSlotStory, m.Expected) ∧
      (∀ m ∈ oneSlotStory, m.queue.running.length ≤ 1) ∧ q.running.length ≤ 1 ∧
      q'.running.length ≤ max 1 (q.takeIn (reportedBuild "c" .running)).running.length := by
  let last : Admission := { limit := 1, pending := [queuedBuild "b"], running := ["ci/a"] }
  obtain ⟨es, started⟩ := queuedBuild_started "a"
  have told : Story { limit := 1 } oneSlotStory _ last :=
    .cons (.news _ (.inr rfl)) (.cons (.admitted (by decide) started)
      (.cons (.news _ (.inl (Nat.le_refl 1))) (.cons (.news _ (.inl (Nat.le_refl 1))) (.nil _))))
  have run := (path_handleAll (.inr rfl)).mpr ⟨_, told, rfl, .inl (Nat.le_refl 1)⟩
  have handled : Path (last.handle (reportedBuild "c" .running)) []
      { last with running := ["ci/c", "ci/a"] } := .done _
  have expected : ∀ m ∈ oneSlotStory, m.Expected := by
    have idle (name : String) : (queuedBuild name).jobState ≠ .running := nofun
    have same : (reportedBuild "a" .running).key = "ci/a" := by decide
    simp [oneSlotStory, Moment.Expected, idle, same]
  obtain ⟨-, always, bound⟩ := slots_bounded run handled
  obtain ⟨moments, ended⟩ := (always _ told).2 expected
  exact ⟨_, _, _, run, handled, rfl, told, expected, moments, ended, bound⟩

end Gatehouse.Control
