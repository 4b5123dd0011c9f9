import Gatehouse.Proofs.Control.Slots

/-!
# The bound on concurrent runs

The queue starts a run only if fewer jobs than the limit hold a slot, and every job whose run goes on
holds one, but for the jobs that lost theirs. So beside those no more runs go on than the limit
allows, whatever the interleaving. The bound does not hold without that exception: a failure to read
a config makes a running job a failed one, and its slot is given to another job.
-/

namespace Gatehouse.Control

open Program Resource

variable {limit : Nat} {v : View} {q q' : Admission} {running lost : List String} {job : PipelineJob}
  {jobs rest : List PipelineJob} {w w' : World} {es : List Event} {s s' : Site}

theorem inFlight_head : job ∈ inFlight v { limit, pending := job :: rest, running } :=
  List.mem_append_right _ (List.mem_cons_self ..)

theorem inFlight_tail (v : View) (running' : List String) :
    inFlight v { limit, pending := rest, running := running' } ⊆
      inFlight v { limit, pending := job :: rest, running } := by
  intro p member
  rcases List.mem_append.mp member with member | member
  · exact List.mem_append_left _ member
  · exact List.mem_append_right _ (List.mem_cons_of_mem _ member)

/-- The first job gets a slot; its run was there. -/
theorem Sound.admit (h : Sound limit v { limit, pending := job :: rest, running } lost) :
    Sound limit v { limit, pending := rest, running := running.insert job.key } lost :=
  h.shrink rfl rfl (List.Subset.refl _) (inFlight_tail v _) rfl h.orderly.admit
    (List.Subset.refl _) fun _ _ _ held => List.mem_insert_of_mem held

/-- The first job is given up. -/
theorem Sound.drop (h : Sound limit v { limit, pending := job :: rest, running } lost) :
    Sound limit v { limit, pending := rest, running } lost :=
  h.shrink rfl rfl (List.Subset.refl _) (inFlight_tail v _) rfl h.orderly.drop
    (List.Subset.refl _) fun _ _ _ held => held

/-! The first job gets a slot and a run. -/

section Create

variable {key : String} {run : PipelineRun}

/-- The job itself waits, so its key is not barred. -/
theorem Barred.create_run (h : Barred v { limit, pending := job :: rest, running } key)
    (waiting : job.jobState = .pending) :
    Barred (v.putRun job.key run)
      { limit, pending := rest, running := running.insert job.key } key := by
  refine ⟨?_, h.stored, fun p member => h.coming p (inFlight_tail v _ member)⟩
  have differs : key ≠ job.key := fun same => h.coming job inFlight_head same.symm waiting
  rw [View.run?_putRun, if_neg differs]
  exact h.absent

theorem Shut.create_run (h : Shut v { limit, pending := job :: rest, running } key)
    (waiting : job.jobState = .pending) (new : v.run? job.key = none) :
    Shut (v.putRun job.key run)
      { limit, pending := rest, running := running.insert job.key } key := by
  rcases h with deleted | ⟨run', found, finished⟩ | barred
  · exact .inl deleted
  · have differs : key ≠ job.key := by
      rintro rfl
      rw [new] at found
      cases found
    exact .inr (.inl ⟨run', by rw [View.run?_putRun, if_neg differs, found], finished⟩)
  · exact .inr (.inr (barred.create_run waiting))

/-- This is where the number of runs grows. It stays within the limit because the keys of all runs that
go on are among the slots, of which there was one left. -/
theorem Held.create_run (h : Held limit v running lost) (room : running.length < limit) :
    Held limit (v.putRun job.key run) (running.insert job.key) lost := by
  have slots : ∀ key, (v.putRun job.key run).isLive key = true → key ∉ lost →
      key ∈ running.insert job.key := by
    intro key live kept
    by_cases same : key = job.key
    · rw [same]
      exact List.mem_insert_self
    · obtain ⟨⟨run', found, going⟩, stored⟩ := View.isLive_iff.mp live
      rw [View.run?_putRun, if_neg same] at found
      have before : v.isLive key = true := View.isLive_iff.mpr ⟨⟨run', found, going⟩, stored⟩
      exact List.mem_insert_of_mem (h.slots key before kept)
  refine ⟨slots, ?_⟩
  intro keys distinct live
  have held : keys ⊆ running.insert job.key := fun key member =>
    slots key (live key member).1 (live key member).2
  have counted : keys.length ≤ (running.insert job.key).length :=
    (List.subperm_of_subset distinct held).length_le
  have grown : (running.insert job.key).length ≤ running.length + 1 := by
    rw [List.insert]
    split <;> simp
  omega

theorem Sound.create_run (h : Sound limit v { limit, pending := job :: rest, running } lost)
    (room : running.length < limit) (new : v.run? job.key = none) :
    Sound limit (v.putRun job.key run)
      { limit, pending := rest, running := running.insert job.key } lost := by
  have waiting : job.jobState = .pending := (h.orderly.waiting job (List.mem_cons_self ..)).pending
  refine ⟨rfl, h.orderly.admit, h.own, fun p member => h.known p (inFlight_tail v _ member), ?_,
    fun p member ended => (h.shut p member ended).create_run waiting new, ?_,
    h.held.create_run room⟩
  · intro key run' found
    by_cases same : key = job.key
    · rw [same]
      exact h.known job inFlight_head
    · rw [View.run?_putRun, if_neg same] at found
      exact h.runKnown key run' found
  · intro key job' found runs absent
    rw [View.run?_putRun] at absent
    split at absent
    · cases absent
    · exact (h.gone key job' found runs absent).create_run waiting

end Create

/-- Marking a job failed that could not be started keeps the invariant. -/
theorem Sound.markFailed {e : Error} (h : Sound limit w.view q lost)
    (member : job ∈ inFlight w.view q) (path : Path (markFailed job e) es ())
    (follows : Follows World.May w es w') : Sound limit w'.view q lost := by
  obtain ⟨o, rfl⟩ := path_markFailed.mp path
  obtain ⟨old, there⟩ := h.known job member
  have effect := view_on follows (by simpa using Event.On.status _ _) there
  rw [effect]
  exact h.change there (Version.stored (.failed rfl)) (by simp [notifications, Event.notified?])

/-- Filling the slots keeps the invariant, whichever requests fail. -/
theorem Sound.fill (h : Sound limit w.view { limit, pending := jobs, running } lost)
    (filled : Path (Admission.fill limit jobs running) es q)
    (follows : Follows World.May w es w') : Sound limit w'.view q lost := by
  induction jobs generalizing running es w with
  | nil =>
    obtain ⟨rfl, rfl⟩ := path_done.mp filled
    obtain rfl := follows_nil.mp follows
    exact h
  | cons job rest ih =>
    by_cases room : running.length < limit
    · rcases (path_fill_cons room).mp filled with
        ⟨first, second, rfl, started, after⟩ |
        ⟨first, e, failed, second, rfl, started, marked, after⟩
      · obtain ⟨w₁, starting, follows⟩ := follows_append.mp follows
        refine ih ?_ after follows
        obtain ⟨run, -, same | ⟨-, new, put⟩⟩ := view_started started starting
        · rw [same]
          exact h.admit
        · rw [put]
          exact h.create_run room new
      · -- A start that failed put in no run, so the job can be given up.
        obtain ⟨w₁, starting, follows⟩ := follows_append.mp follows
        obtain ⟨w₂, marking, follows⟩ := follows_append.mp follows
        have unstarted : w₁.view = w.view := view_unstarted started starting
        rw [← unstarted] at h
        exact ih (h.markFailed inFlight_head marked marking).drop after follows
    · obtain ⟨rfl, rfl⟩ := (path_fill_full room).mp filled
      obtain rfl := follows_nil.mp follows
      exact h

/-- Handling a piece of news that was taken in keeps the invariant. -/
theorem Sound.handle (h : Sound limit w.view q lost)
    (path : Path (Admission.fill q.limit q.pending q.running) es q')
    (follows : Follows World.May w es w') : Sound limit w'.view q' lost := by
  obtain rfl := h.limited
  exact h.fill path follows

/-- The invariant of a site. -/
def Site.Sound (limit : Nat) (s : Site) : Prop :=
  Control.Sound limit s.world.view s.queue s.lost

/-- Each step keeps the invariant. -/
theorem sound_step (h : s.Sound limit) (step : Step s s') : s'.Sound limit := by
  unfold Site.Sound at h ⊢
  cases step with
  | pass hasStore now there course follows =>
    obtain rfl := h.own _ _ there
    obtain ⟨next, news⟩ := pass_news (.of_course course) follows
    rw [view_on follows (JobCourse.of_course course).on there]
    exact h.change there next news
  | news first path follows => exact (h.takeIn first).handle path follows
  | engine there final =>
    rw [view_insertRun]
    exact h.engine there final
  | @edit job job' there same deleting =>
    have own := h.own _ _ there
    rw [view_putJob, ← View.tell_nil (View.putJob _ _ _)]
    exact h.change there (.same own.symm same deleting) (by simp)
  | create new =>
    rw [view_putJob]
    exact h.create new
  | aside same =>
    rw [same]
    exact h

/-- Whatever a site comes to, the invariant holds. -/
theorem sound_of_reaches (h : Reaches limit s) : s.Sound limit := by
  induction h with
  | start bare silent own => exact sound_start bare silent own
  | step _ step ih => exact sound_step ih step

/-- On a cluster without runs at first, whatever passes, the queue, the engine and others do in
whatever order, and whichever requests fail: no more runs go on than the limit allows, except for
those of jobs that lost their slot because their state alone said that they were over. -/
theorem unfinished_runs_bounded (h : Reaches limit s) :
    (s.world.unfinished.filter fun key => key ∉ s.lost).length ≤ limit ∧
    (s.lost = [] → s.world.unfinished.length ≤ limit) := by
  have sound := sound_of_reaches h
  have distinct : s.world.unfinished.Nodup := List.nodup_dedup _
  refine ⟨?_, ?_⟩
  · refine sound.held.budget _ (distinct.filter _) ?_
    intro key member
    obtain ⟨listed, kept⟩ := List.mem_filter.mp member
    exact ⟨World.mem_unfinished.mp listed, by simpa using kept⟩
  · intro none_lost
    refine sound.held.budget _ distinct ?_
    intro key member
    exact ⟨World.mem_unfinished.mp member, by simp [none_lost]⟩

/-- A config, two jobs that wait, and a queue with one slot. -/
def twoWaiting : Site where
  world := {
    cluster :=
      Cluster.Memory.putConfig {} {
        metadata := { name := some "repo", inNamespace := some "ci" }
        spec := {
          git := { provider := .github, repository := "org/repo" }, pipelineRef := "build" } }
      |>.putJob ((queuedBuild "a").withFinalizers [jobFinalizer])
      |>.putJob ((queuedBuild "b").withFinalizers [jobFinalizer]) }
  queue := { limit := 1 }

theorem reaches_twoWaiting : Reaches 1 twoWaiting := by
  refine .start (fun key => rfl) rfl ?_
  intro key job found
  simp only [World.view, Cluster.Memory.putJob, Table.get?_insert] at found
  split at found
  · rename_i same
    cases found
    exact same.symm
  split at found
  · rename_i same
    cases found
    exact same.symm
  · cases found

namespace Site

/-- A pass goes over a job, and the queue hears of it. -/
def visit (key : String) (s : Site) : Site := (s.reconcile false default key).hear default

/-- The first job has a run. -/
def oneRuns : Site := twoWaiting.visit "ci/a"

/-- The config could not be read when a pass came to the first job again. -/
def oneFailed : Site := (oneRuns.failing [(.getConfig, "down")]).visit "ci/a"

/-- Then the second job came up. -/
def bothRun : Site := (oneFailed.failing []).visit "ci/b"

end Site

theorem Reaches.visit (h : Reaches limit s) (key : String) : Reaches limit (s.visit key) :=
  (h.reconcile false default key).hear default

theorem unfinished_runs_bounded_one :
    Reaches 1 Site.oneRuns ∧ Site.oneRuns.world.unfinished = ["ci/a"] ∧
    Site.oneRuns.world.unfinished.length ≤ 1 := by
  have reached : Reaches 1 Site.oneRuns := reaches_twoWaiting.visit "ci/a"
  exact ⟨reached, by decide, (unfinished_runs_bounded reached).2 (by decide)⟩

/-- With one slot, two runs go on at once. -/
theorem two_runs_on_one_slot :
    Reaches 1 Site.bothRun ∧ Site.bothRun.world.unfinished = ["ci/a", "ci/b"] ∧
    Site.bothRun.lost = ["ci/a"] := by
  refine ⟨?_, by decide, by decide⟩
  have failed : Reaches 1 Site.oneFailed :=
    ((reaches_twoWaiting.visit "ci/a").failing [(.getConfig, "down")]).visit "ci/a"
  exact (failed.failing []).visit "ci/b"

end Gatehouse.Control
