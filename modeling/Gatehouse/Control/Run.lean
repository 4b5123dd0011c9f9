import Gatehouse.Control.Query

/-!
# Runs of jobs

The pipeline run that executes a job, and the status of a job as its run tells it. A run is owned by
its job, so it goes away with the job; a run of the same name that the job does not own is a
conflict.
-/

namespace Gatehouse.Control

open Resource

/-- The label of a run that names its job. -/
def jobLabel : String := "prflow.dev/job"

/-- The name of the run of a job. -/
def runName (job : PipelineJob) : String := job.name

/-- The reference by which a run is owned by a job; only a job with a name and an id can own one. -/
def ownerReference? (job : PipelineJob) : Option OwnerReference := do
  let name ← job.metadata.name
  let uid ← job.metadata.uid
  some { apiVersion := pipelineJobKind.apiVersion, kind := pipelineJobKind.name, name, uid
         controller := some true }

/-- The parameters of the run of a job: what to build. -/
def runParams (refs : JobRefs) : List Param :=
  [⟨"git-sha", refs.sha⟩, ⟨"git-ref", refs.ref⟩] ++
    (refs.pullRequest.map fun id => ⟨"pr-number", toString id⟩).toList

/-- The run that executes a job. -/
def generateRun (job : PipelineJob) (config : RepoConfig) : Except Error PipelineRun :=
  match ownerReference? job with
  | none => .error (.missingKey ".metadata.uid")
  | some owner =>
    .ok {
      metadata := {
        name := some (runName job)
        inNamespace := job.metadata.inNamespace
        ownerReferences := some [owner]
        labels := some ((∅ : Table String String).insert jobLabel job.name) }
      spec := {
        pipeline := config.spec.pipelineRef
        params := runParams job.spec.refs
        serviceAccountName := config.spec.serviceAccount } }

/-- Does the job own the run? -/
def owns (job : PipelineJob) (run : PipelineRun) : Bool :=
  job.metadata.uid.any fun uid => run.metadata.owners.any (·.uid == uid)

/-- The reasons that the engine gives for a canceled run. -/
def canceledReasons : List String := ["PipelineRunCancelled", "Cancelled"]

/-- The status of a job without a run: it waits for one, or lost the one it had. -/
def statusWithoutRun (now : Instant) (pipeline : String) (s : PipelineJobStatus) :
    PipelineJobStatus :=
  match s.state with
  | .running =>
    { s with state := .failed, message := "pipeline run was deleted", completionTime := some now }
  | .pending => { s with message := "waiting for a free slot to run pipeline " ++ pipeline }
  | _ => s

/-- The state of a job whose run reports failure. -/
def failedState (c : RunCondition) : JobState :=
  if canceledReasons.contains c.reason then .canceled else .failed

/-- The status of a job as its run tells it. -/
def statusOfRun (now : Instant) (r : PipelineRunStatus) (s : PipelineJobStatus) :
    PipelineJobStatus :=
  let s := { s with startTime := some (s.startTime.getD (r.startTime.getD now)) }
  let ended := some (r.completionTime.getD now)
  match r.succeeded? with
  | none => { s with state := .running, message := "pipeline run started" }
  | some c =>
    if c.status = "True" then
      { s with
        state := .completed
        message := if c.message = "" then "pipeline run succeeded" else c.message
        completionTime := ended }
    else if c.status = "False" then
      { s with state := failedState c, message := c.message, completionTime := ended }
    else { s with state := .running, message := c.message }

/-- The status of a job, given its run if there is one. -/
def reflectStatus (now : Instant) (run : Option PipelineRun) (job : PipelineJob)
    (config : RepoConfig) : Except Error PipelineJobStatus :=
  match run with
  | none => .ok (statusWithoutRun now config.spec.pipelineRef job.jobStatus)
  | some run =>
    if owns job run then .ok (statusOfRun now (run.status.getD {}) job.jobStatus)
    else
      let message := s!"pipeline run {run.name} is not owned by job {job.name}"
      .error (.conflict message)

end Gatehouse.Control
