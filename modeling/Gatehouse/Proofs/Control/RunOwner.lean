import Gatehouse.Control.Run

/-!
# Runs and their owners

A run that is made for a job carries the names under which the job is looked up and a reference to the
job's id. Reflection asks for that reference and for nothing else: it fails exactly on a run
that does not carry it (`reflectStatus_eq_error_iff`).
-/

namespace Gatehouse.Control

open Resource

variable {now : Instant} {job : PipelineJob} {config : RepoConfig} {run : PipelineRun}

/-- The run of a job is kept under the key of the job. -/
theorem keyOf_runName {ns : String} (place : job.metadata.inNamespace = some ns) :
    keyOf ns (runName job) = job.key := by
  simp [Object.key, Metadata.knownNamespace, place, runName]

/-! Making a run. -/

/-- A run is made for every job with a name and an id, whatever the config. -/
theorem exists_generateRun {name uid : String} (named : job.metadata.name = some name)
    (known : job.metadata.uid = some uid) (config : RepoConfig) :
    ∃ run, generateRun job config = .ok run := by
  simp [generateRun, ownerReference?, named, known]

theorem generateRun_metadata (made : generateRun job config = .ok run) :
    run.metadata.name = some (runName job) ∧
      run.metadata.inNamespace = job.metadata.inNamespace := by
  unfold generateRun at made
  split at made
  · cases made
  · cases made
    exact ⟨rfl, rfl⟩

/-- Only a job with a name and an id gets a run, and the id is in the one reference of the run. -/
theorem generateRun_owner (made : generateRun job config = .ok run) :
    ∃ name uid owner, job.metadata.name = some name ∧ job.metadata.uid = some uid ∧
      run.metadata.owners = [owner] ∧ owner.uid = uid := by
  unfold generateRun at made
  split at made
  · cases made
  rename_i owner referred
  cases made
  obtain ⟨name, named, uid, known, rfl⟩ : ∃ name, job.metadata.name = some name ∧
      ∃ uid, job.metadata.uid = some uid ∧ _ = owner := by
    simpa [ownerReference?, Option.bind_eq_some_iff] using referred
  exact ⟨name, uid, _, named, known, rfl, rfl⟩

theorem key_generateRun (made : generateRun job config = .ok run) : run.key = job.key := by
  obtain ⟨named, placed⟩ := generateRun_metadata made
  simp [Object.key, Object.name, Metadata.knownName, Metadata.knownNamespace, named, placed, runName]

/-! Owning a run. -/

theorem owns_eq_false_iff :
    owns job run = false ↔ ∀ owner ∈ run.metadata.owners, job.metadata.uid ≠ some owner.uid := by
  unfold owns
  cases job.metadata.uid with
  | none => simp
  | some uid =>
    simp only [Option.any_some, List.any_eq_false, beq_iff_eq, ne_eq, Option.some.injEq]
    exact forall₂_congr fun owner _ => not_congr eq_comm

/-- The run that is made for a job is owned by every version of the job. -/
theorem owns_generateRun {later : PipelineJob} (made : generateRun job config = .ok run)
    (same : later.metadata.uid = job.metadata.uid) : owns later run = true := by
  obtain ⟨-, uid, owner, -, known, alone, own⟩ := generateRun_owner made
  simp [owns, same, known, alone, own]

/-- The failure of a job whose run is not its own. -/
def foreignRun (job : PipelineJob) (run : PipelineRun) : Error :=
  .conflict s!"pipeline run {run.name} is not owned by job {job.name}"

theorem reflectStatus_own (own : owns job run = true) :
    reflectStatus now (some run) job config =
      .ok (statusOfRun now (run.status.getD {}) job.jobStatus) := by
  simp only [reflectStatus, own, if_true]

theorem reflectStatus_foreign (foreign : owns job run = false) :
    reflectStatus now (some run) job config = .error (foreignRun job run) := by
  simp only [reflectStatus, foreign, Bool.false_eq_true, if_false, foreignRun]

/-- The status of a job is computed from its own run or from there being none. -/
theorem reflectStatus_ok {run? : Option PipelineRun} {s : PipelineJobStatus}
    (computed : reflectStatus now run? job config = .ok s) :
    run? = none ∧ s = statusWithoutRun now config.spec.pipelineRef job.jobStatus ∨
      ∃ run, run? = some run ∧ s = statusOfRun now (run.status.getD {}) job.jobStatus := by
  cases run? with
  | none => exact .inl ⟨rfl, (Except.ok.inj computed).symm⟩
  | some run =>
    cases own : owns job run with
    | true =>
      rw [reflectStatus_own own] at computed
      exact .inr ⟨run, rfl, (Except.ok.inj computed).symm⟩
    | false =>
      rw [reflectStatus_foreign own] at computed
      cases computed

theorem reflectStatus_eq_error_iff {run? : Option PipelineRun} {e : Error} :
    reflectStatus now run? job config = .error e ↔
      ∃ run, run? = some run ∧ owns job run = false ∧ e = foreignRun job run := by
  cases run? with
  | none => simp [reflectStatus]
  | some run =>
    cases own : owns job run with
    | true => simp [reflectStatus_own own, own]
    | false =>
      rw [reflectStatus_foreign own, Except.error.injEq]
      constructor
      · rintro rfl
        exact ⟨run, rfl, own, rfl⟩
      · rintro ⟨run', same, -, rfl⟩
        cases same
        rfl

end Gatehouse.Control
