import Gatehouse.Proofs.Control.AdmissionQueue

/-!
# The story of the admission queue

What happens to the queue, move by move: it is told of a job, or it tries to start the first one
that waits. A story lists the moves in their order, each with the queue as it was just before; so
what holds at all moments of a story holds at every point of a run, the inside of the loop that
starts jobs included. Main statement: the stories that are told of the queue are the paths of its
program, with the same events (`path_handleAll`).
-/

namespace Gatehouse.Control

open Program Resource

/-- Something that happens to the queue. -/
inductive Move where
  /-- It is told of a job. -/
  | news (job : PipelineJob)
  /-- It tries to start a job, which ends like that. -/
  | attempt (job : PipelineJob) (outcome : Except Error Unit)

/-- A move, with the queue just before it. -/
structure Moment where
  queue : Admission
  move : Move

/-- The move, with its events, leads from one state of the queue to the other. The queue listens
when it has nothing to start; otherwise it tries to start its first job, which gets a slot or is
given up. -/
inductive Moves : Admission → Move → List Event → Admission → Prop
  | news {q : Admission} (job : PipelineJob) (rests : Busy q) :
      Moves q (.news job) [] (q.takeIn job)
  | admitted {limit : Nat} {job : PipelineJob} {rest : List PipelineJob} {running : List String}
      {es : List Event} (room : running.length < limit)
      (started : Course (start job) es (.ok ())) :
      Moves { limit, pending := job :: rest, running } (.attempt job (.ok ())) es
        { limit, pending := rest, running := running.insert job.key }
  | failed {limit : Nat} {job : PipelineJob} {rest : List PipelineJob} {running : List String}
      {first second : List Event} {e : Error} (room : running.length < limit)
      (unstarted : Course (start job) first (.error e))
      (marked : Path (markFailed job e) second ()) :
      Moves { limit, pending := job :: rest, running } (.attempt job (.error e)) (first ++ second)
        { limit, pending := rest, running }

/-- What happened to a queue, move by move, and the events of all that. -/
inductive Story : Admission → List Moment → List Event → Admission → Prop
  | nil (q : Admission) : Story q [] [] q
  | cons {q q₁ q' : Admission} {move : Move} {later : List Moment} {first second : List Event} :
      Moves q move first q₁ → Story q₁ later second q' →
        Story q (⟨q, move⟩ :: later) (first ++ second) q'

/-- The job that the queue was told of at a moment. -/
def Moment.news? (m : Moment) : Option PipelineJob :=
  match m.move with
  | .news job => some job
  | .attempt _ _ => none

/-- The job that the queue tried to start at a moment. -/
def Moment.attempted? (m : Moment) : Option PipelineJob :=
  match m.move with
  | .news _ => none
  | .attempt job _ => some job

/-- The job that got a slot at a moment, because it could be started. -/
def Moment.admitted? (m : Moment) : Option PipelineJob :=
  match m.move with
  | .attempt job (.ok _) => some job
  | _ => none

/-- The jobs that the queue was told of, in order. -/
def newsIn (story : List Moment) : List PipelineJob := story.filterMap Moment.news?

/-- The jobs that the queue tried to start, in order. -/
def attemptedIn (story : List Moment) : List PipelineJob := story.filterMap Moment.attempted?

/-- The jobs that got a slot because they could be started, in order. -/
def admittedIn (story : List Moment) : List PipelineJob := story.filterMap Moment.admitted?

variable {limit : Nat} {q q₁ q' : Admission} {job : PipelineJob} {jobs rest : List PipelineJob}
  {running : List String} {es first second : List Event}

theorem Story.append {early late : List Moment} (h : Story q early first q₁)
    (h' : Story q₁ late second q') : Story q (early ++ late) (first ++ second) q' := by
  induction h with
  | nil q => exact h'
  | cons move _ ih =>
    rw [List.append_assoc]
    exact .cons move (ih h')

/-- What every move of a story keeps holds at all its moments and at its end. -/
theorem Story.keeps {P : Admission → Prop} {story : List Moment} (h : Story q story es q')
    (each : ∀ m ∈ story, ∀ es q₁, Moves m.queue m.move es q₁ → P m.queue → P q₁) (start : P q) :
    (∀ m ∈ story, P m.queue) ∧ P q' := by
  induction h with
  | nil q => exact ⟨by simp, start⟩
  | cons move _ ih =>
    have next := each _ (List.mem_cons_self ..) _ _ move start
    obtain ⟨moments, last⟩ := ih (fun m member => each m (List.mem_cons_of_mem _ member)) next
    exact ⟨List.forall_mem_cons.mpr ⟨start, moments⟩, last⟩

/-- Each moment of a story is one of its moves. -/
theorem Story.moves {story : List Moment} (h : Story q story es q') {m : Moment}
    (member : m ∈ story) : ∃ es q₁, Moves m.queue m.move es q₁ := by
  induction h with
  | nil q => cases member
  | cons move _ ih =>
    rcases List.mem_cons.mp member with rfl | member
    · exact ⟨_, _, move⟩
    · exact ih member

/-! Starting jobs. -/

/-- A queue at rest has nothing to start. -/
theorem fill_of_busy (rests : Busy q) :
    Admission.fill q.limit q.pending q.running = .done q := by
  obtain ⟨limit, pending, running⟩ := q
  cases pending with
  | nil => rfl
  | cons job rest =>
    have full : ¬ running.length < limit := by
      rcases rests with full | empty
      · exact Nat.not_lt_of_le full
      · cases empty
    exact if_neg full

/-- Filling the slots is a story without news, after which the queue is at rest. -/
theorem story_of_fill (path : Path (Admission.fill limit jobs running) es q) :
    ∃ tries, Story { limit, pending := jobs, running } tries es q ∧ newsIn tries = [] ∧ Busy q := by
  induction jobs generalizing running es with
  | nil =>
    obtain ⟨rfl, rfl⟩ := path_done.mp path
    exact ⟨[], .nil _, rfl, .inr rfl⟩
  | cons job rest ih =>
    by_cases room : running.length < limit
    · rcases (path_fill_cons room).mp path with
        ⟨first, second, rfl, started, after⟩ |
        ⟨first, e, marking, second, rfl, unstarted, marked, after⟩
      · obtain ⟨tries, told, quiet, rests⟩ := ih after
        exact ⟨_, .cons (.admitted room started) told, quiet, rests⟩
      · obtain ⟨tries, told, quiet, rests⟩ := ih after
        rw [← List.append_assoc]
        exact ⟨_, .cons (.failed room unstarted marked) told, quiet, rests⟩
    · obtain ⟨rfl, rfl⟩ := (path_fill_full room).mp path
      exact ⟨[], .nil _, rfl, .inl (Nat.le_of_not_lt room)⟩

/-! Whole runs. -/

/-- What the queue still has to do when it is to be told of some jobs: start those that it can, and
then listen. -/
def Admission.remaining (q : Admission) (jobs : List PipelineJob) : Work Admission :=
  (Admission.fill q.limit q.pending q.running).bind fun q => q.handleAll jobs

theorem remaining_of_busy (rests : Busy q) (jobs : List PipelineJob) :
    q.remaining jobs = q.handleAll jobs := by
  rw [Admission.remaining, fill_of_busy rests, done_bind]

theorem story_of_remaining (path : Path (q.remaining jobs) es q') :
    ∃ story, Story q story es q' ∧ newsIn story = jobs ∧ Busy q' := by
  induction jobs generalizing q es with
  | nil =>
    obtain ⟨first, q₁, second, rfl, filled, ended⟩ := path_bind.mp path
    obtain ⟨rfl, rfl⟩ := path_done.mp ended
    simpa using story_of_fill filled
  | cons job rest ih =>
    obtain ⟨first, q₁, second, rfl, filled, others⟩ := path_bind.mp path
    obtain ⟨tries, told, quiet, rests⟩ := story_of_fill filled
    obtain ⟨story, later, news, ended⟩ := ih (q := q₁.takeIn job) others
    refine ⟨tries ++ ⟨q₁, .news job⟩ :: story, told.append ?_, ?_, ended⟩
    · exact .cons (.news job rests) later
    · rw [newsIn, List.filterMap_append, ← newsIn, quiet]
      exact congrArg (job :: ·) news

theorem Story.remaining {story : List Moment} (h : Story q story es q') (ended : Busy q') :
    Path (q.remaining (newsIn story)) es q' := by
  induction h with
  | nil q =>
    rw [remaining_of_busy ended]
    exact .done q
  | @cons q q₁ q' first second move later moves _ ih =>
    cases moves with
    | news job rests =>
      rw [remaining_of_busy rests]
      exact ih ended
    | admitted room started =>
      obtain ⟨filling, q₂, others, rfl, filled, after⟩ := path_bind.mp (ih ended)
      rw [← List.append_assoc]
      refine Path.bind ((path_fill_cons room).mpr (.inl ?_)) after
      exact ⟨_, filling, rfl, started, filled⟩
    | failed room unstarted marked =>
      obtain ⟨filling, q₂, others, rfl, filled, after⟩ := path_bind.mp (ih ended)
      rw [← List.append_assoc]
      refine Path.bind ((path_fill_cons room).mpr (.inr ?_)) after
      exact ⟨_, _, _, filling, List.append_assoc .., unstarted, marked, filled⟩

/-- Being told of jobs in order, from a state of rest: the paths of the program are the stories with
this news that end in a state of rest. -/
theorem path_handleAll (rests : Busy q) :
    Path (q.handleAll jobs) es q' ↔
      ∃ story, Story q story es q' ∧ newsIn story = jobs ∧ Busy q' := by
  rw [← remaining_of_busy rests]
  constructor
  · exact story_of_remaining
  · rintro ⟨story, told, rfl, ended⟩
    exact told.remaining ended

/-! Builds to tell stories of. -/

/-- A build that is reported to be in a state. -/
def reportedBuild (name : String) (state : JobState) : PipelineJob :=
  (queuedBuild name).withStatus { state }

/-- A build can be started if there is a config and a run. -/
theorem queuedBuild_started (name : String) :
    ∃ es, Course (start (queuedBuild name)) es (.ok ()) := by
  let config : RepoConfig := {
    metadata := {}
    spec := { git := { provider := .github, repository := "org/repo" }, pipelineRef := "build" } }
  let run : PipelineRun := { metadata := {}, spec := { pipeline := "build" } }
  exact ⟨[⟨.cluster (.getConfig "ci" "repo"), .ok (some config)⟩,
    ⟨.cluster (.getRun "ci" name), .ok (some run)⟩], .ask _ _ (.ask _ _ (.done _))⟩

end Gatehouse.Control
