import Gatehouse.Proofs.Control.Filling
import Gatehouse.Proofs.Control.LifeCycle

/-!
# The runs of admitted jobs

A slot is given to a job that has a run, and reflection then wants the run to be the job's own. The two
agree as long as nothing else has a run of that name: a run that is there counts for admission,
whoever owns it, and the job that got the slot for it is refused by its next reflection.
-/

namespace Gatehouse.Control

open Program Resource

variable {limit : Nat} {q q' : Admission} {job p : PipelineJob} {w w' : World} {es : List Event}

/-- The name of the job's run is taken by a run that is not the job's own. -/
def View.Taken (v : View) (job : PipelineJob) : Prop :=
  ∃ run, v.run? job.key = some run ∧ owns job run = false

/-- Whether the run of a started job is its own was settled by what was there before. -/
theorem HasRun.owns_iff {v v' : View} (h : HasRun v v' p) :
    ∃ run, v'.run? p.key = some run ∧ (owns p run = true ↔ ¬ v.Taken p) := by
  obtain ⟨run, found, there | ⟨absent, own⟩⟩ := h
  · have taken : v.Taken p ↔ owns p run = false := by
      simp [View.Taken, there]
    exact ⟨run, found, by rw [taken, Bool.not_eq_false]⟩
  · have free : ¬ v.Taken p := by
      simp [View.Taken, absent]
    exact ⟨run, found, fun _ => free, fun _ => own⟩

/-- Every slot that handling a piece of news gives goes to a job that waited, which then has a run. The
run is the job's own exactly if its name was not taken by a run of another owner before. -/
theorem admitted_runs (h : Reached limit q) (handled : Path (q.handle job) es q')
    (follows : Follows World.May w es w') :
    (∀ key ∈ q'.running, key ∉ (q.takeIn job).running →
      ∃ p ∈ (q.takeIn job).pending, p.key = key) ∧
    ∀ p ∈ (q.takeIn job).pending, p.key ∈ q'.running →
      p.key ∉ (q.takeIn job).running ∧
      ∃ run, w'.view.run? p.key = some run ∧ (owns p run = true ↔ ¬ w.view.Taken p) := by
  have before : Orderly (q.takeIn job) := (orderly_of_reached h).1.takeIn job
  refine ⟨?_, fun p member slot => ⟨before.apart p member, ?_⟩⟩
  · intro key slot new
    have listed := ((filled before handled).gained key slot).resolve_left new
    exact List.mem_map.mp listed
  · exact ((settled before handled follows).admitted p member slot).owns_iff

/-- Tell a fresh queue with one slot of the waiting build. -/
def admitOne (run? : Option PipelineRun) : Admission × World :=
  (workshop [] run? waitingBuild).perform default (Admission.handle { limit := 1 } waitingBuild)

theorem admitted_runs_one :
    (admitOne none).1.running = ["ci/a"] ∧
    ∃ run, (admitOne none).2.view.run? "ci/a" = some run ∧ owns waitingBuild run = true := by
  obtain ⟨es, path, follows⟩ := path_run World.May (World.answer default)
    (World.may_answer default) (Admission.handle { limit := 1 } waitingBuild)
    (workshop [] none waitingBuild)
  have free : ¬ (workshop [] none waitingBuild).view.Taken waitingBuild := by
    rintro ⟨run, there, -⟩
    cases there
  have slot : waitingBuild.key ∈ (admitOne none).1.running := by decide
  obtain ⟨-, run, found, own⟩ :=
    (admitted_runs .fresh path follows).2 waitingBuild (List.mem_singleton.mpr rfl) slot
  exact ⟨by decide, run, found, own.mpr free⟩

/-- A run of another job counts as admission, and the next pass refuses it. -/
theorem foreign_run_admitted :
    let after := admitOne (some (buildRun "b-uid" []))
    Reached 1 after.1 ∧ after.1.running = ["ci/a"] ∧
    (after.2.view.run? "ci/a").map (owns waitingBuild) = some false ∧
    (reviewed [] (some (buildRun "b-uid" [])) waitingBuild).jobStatus.message =
      "pipeline run a is not owned by job a" := by
  obtain ⟨es, path, -⟩ := path_run World.May (World.answer default)
    (World.may_answer default) (Admission.handle { limit := 1 } waitingBuild)
    (workshop [] (some (buildRun "b-uid" [])) waitingBuild)
  exact ⟨Reached.fresh.handled path, by decide, by decide, by decide⟩

end Gatehouse.Control
