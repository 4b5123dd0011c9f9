import Mathlib.Data.List.Dedup
import Gatehouse.Proofs.Control.View

/-!
# Interleavings

A site is a controller on a world with its admission queue. It makes a step when a pass goes over a
stored job, when the queue comes to the next job it was told about, when the engine changes a
run, or when others change jobs and configs. `Reaches` lists what any interleaving of such steps
leads to from a cluster without runs.
-/

namespace Gatehouse.Control

open Program Resource

/-- Does a job stay while its run goes on? -/
def View.isLive (v : View) (key : String) : Bool :=
  (v.run? key).any (!hasEnded ·) && (v.job? key).any (!·.isDeleting)

/-- The keys of the runs that go on and whose jobs stay. -/
def World.unfinished (w : World) : List String :=
  (w.cluster.runs.keys.filter w.view.isLive).dedup

theorem View.isLive_iff {v : View} {key : String} :
    v.isLive key = true ↔
      (∃ run, v.run? key = some run ∧ hasEnded run = false) ∧
        ∃ job, v.job? key = some job ∧ job.isDeleting = false := by
  simp [isLive, Option.any_eq_true]

theorem World.mem_unfinished {w : World} {key : String} :
    key ∈ w.unfinished ↔ w.view.isLive key = true := by
  rw [unfinished, List.mem_dedup, List.mem_filter, and_iff_right_iff_imp]
  intro live
  obtain ⟨⟨run, found, -⟩, -⟩ := View.isLive_iff.mp live
  exact Table.mem_keys.mpr ⟨run, found⟩

/-- A controller between two steps. -/
structure Site where
  world : World
  queue : Admission
  /-- The keys of the jobs that lost their slot while their run went on. No step depends on
  them. -/
  lost : List String := []

/-- Does only its state say that the job is over? It was neither deleted nor completed. -/
def overByState (job : PipelineJob) : Bool := !job.isDeleting && !job.isCompleted && isOver job

/-- The keys of the jobs that lost their slot, after the queue was told about one more job. -/
def lostBy (v : View) (job : PipelineJob) (lost : List String) : List String :=
  if overByState job && v.isLive job.key then job.key :: lost else lost

/-- A step of a site. -/
inductive Step : Site → Site → Prop
  /-- A pass over a stored job. -/
  | pass {s : Site} {w : World} {key : String} {job : PipelineJob} {es : List Event}
      {r : Except Error Schedule} (hasStore : Bool) (now : Instant) :
      s.world.view.job? key = some job → Course (reconcileJob hasStore now job) es r →
      Follows World.May s.world es w → Step s { s with world := w }
  /-- The queue comes to the job that it was told about first. -/
  | news {s : Site} {w : World} {q : Admission} {job : PipelineJob} {rest : List PipelineJob}
      {es : List Event} :
      s.world.notified = job :: rest → Path (s.queue.handle job) es q →
      Follows World.May { s.world with notified := rest } es w →
      Step s { world := w, queue := q, lost := lostBy s.world.view job s.lost }
  /-- The engine changes a run in any way, except that it does not take back how the run ended. -/
  | engine {s : Site} {key : String} {run run' : PipelineRun} :
      s.world.view.run? key = some run → (hasEnded run = true → hasEnded run' = true) →
      Step s { s with world.cluster.runs := s.world.cluster.runs.insert key run' }
  /-- Others change a job in any way, except that they leave its status alone and do not take back
  its deletion. -/
  | edit {s : Site} {job job' : PipelineJob} :
      s.world.view.job? job'.key = some job → job'.status = job.status →
      (job.isDeleting = true → job'.isDeleting = true) →
      Step s { s with world.cluster := s.world.cluster.putJob job' }
  /-- Someone creates a job. -/
  | create {s : Site} {job : PipelineJob} :
      s.world.view.job? job.key = none →
      Step s { s with world.cluster := s.world.cluster.putJob job }
  /-- Anything happens that has nothing to do with jobs and runs. -/
  | aside {s : Site} {w : World} : w.view = s.world.view → Step s { s with world := w }

/-- What a site can come to, if it starts on a cluster without runs and with a fresh queue. -/
inductive Reaches (limit : Nat) : Site → Prop
  | start {w : World} (bare : ∀ key, w.view.run? key = none) (silent : w.notified = [])
      (own : ∀ key job, w.view.job? key = some job → job.key = key) :
      Reaches limit { world := w, queue := { limit } }
  | step {s s' : Site} : Reaches limit s → Step s s' → Reaches limit s'

/-! Steps that are done rather than described. -/

namespace Site

/-- Have a pass go over the job of a key. -/
def reconcile (hasStore : Bool) (now : Instant) (key : String) (s : Site) : Site :=
  match s.world.view.job? key with
  | none => s
  | some job => { s with world := (s.world.perform now (reconcileJob hasStore now job).run).2 }

/-- Let the queue come to the job that it was told about first. -/
def hear (now : Instant) (s : Site) : Site :=
  match s.world.notified with
  | [] => s
  | job :: rest =>
    let done := World.perform now (s.queue.handle job) { s.world with notified := rest }
    { world := done.2, queue := done.1, lost := lostBy s.world.view job s.lost }

/-- Make requests of some kinds fail from now on. -/
def failing (failures : List (Cluster.Method × String)) (s : Site) : Site :=
  { s with world.cluster.failures := failures }

end Site

variable {limit : Nat} {s : Site}

theorem Reaches.reconcile (h : Reaches limit s) (hasStore : Bool) (now : Instant) (key : String) :
    Reaches limit (s.reconcile hasStore now key) := by
  unfold Site.reconcile
  split
  · exact h
  · rename_i job there
    obtain ⟨es, path, follows⟩ := path_run World.May (World.answer now) (World.may_answer now)
      (reconcileJob hasStore now job).run s.world
    exact h.step (.pass hasStore now there path follows)

theorem Reaches.hear (h : Reaches limit s) (now : Instant) : Reaches limit (s.hear now) := by
  unfold Site.hear
  split
  · exact h
  · rename_i job rest first
    obtain ⟨es, path, follows⟩ := path_run World.May (World.answer now) (World.may_answer now)
      (s.queue.handle job) { s.world with notified := rest }
    exact h.step (.news first path follows)

theorem Reaches.failing (h : Reaches limit s) (failures : List (Cluster.Method × String)) :
    Reaches limit (s.failing failures) := h.step (.aside rfl)

end Gatehouse.Control
