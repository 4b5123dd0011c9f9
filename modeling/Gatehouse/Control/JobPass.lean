import Gatehouse.Control.Access
import Gatehouse.Control.Run

/-!
# Passes over jobs

A pass brings a job in line with its run. It first follows the finalizer protocol: a new job gets the
finalizer of the controller, and a deleted one loses it. For a job that has not ended its
status is then computed from its run and written in one patch. The admission queue is told about
the outcome on every way out, and the git provider about a change of state.
-/

namespace Gatehouse.Control

open Resource

/-- The finalizer of the controller on jobs. -/
def jobFinalizer : String := "prflow.dev/job-finalizer"

/-- The first part of the context of the status checks of jobs. -/
def statusContext : String := "prflow"

/-- Does the finalizer protocol let a pass go on? -/
inductive Flow where
  | proceed
  | stop
  deriving DecidableEq, Repr

/-- The finalizer protocol: put the finalizer on a new job; on a deleted one release its slot and take
the finalizer off. -/
def followFinalizer (job : PipelineJob) : Pass Flow :=
  let own := job.finalizers.contains jobFinalizer
  match job.isDeleting, own with
  | false, false => do
    askCluster (.patchJobFinalizers job (job.finalizers ++ [jobFinalizer]))
    return .stop
  | true, true => do
    notify job
    askCluster (.patchJobFinalizers job (job.finalizers.erase jobFinalizer))
    return .stop
  | true, false => return .stop
  | false, true => return .proceed

/-- The status of a job that failed for a reason of the controller's own. It gets no completion time, so
a later pass may still find that the run goes on. -/
def forcedFailure (job : PipelineJob) (e : Error) : PipelineJobStatus :=
  { job.jobStatus with state := .failed, message := e.message }

/-- Write the status of a failed job. A failure to do so changes nothing. -/
def patchFailed (job : PipelineJob) (e : Error) : Pass Unit := do
  let _ ← attempt (askCluster (.patchJobStatus job (forcedFailure job e)))

/-- The status of a job as the cluster tells it, with the job's config. -/
def reflect (now : Instant) (job : PipelineJob) : Pass (RepoConfig × PipelineJobStatus) := do
  let ns ← (namespaceOf job : Except Error String)
  match ← askCluster (.getConfig ns job.spec.config) with
  | none => throw (.notFound ("repo config " ++ job.spec.config))
  | some config =>
    let run ← askCluster (.getRun ns (runName job))
    let status ← (reflectStatus now run job config : Except Error PipelineJobStatus)
    return (config, status)

/-- The state of a status check that shows the state of a job. -/
def checkState : JobState → Git.CheckState
  | .pending => .pending
  | .running => .pending
  | .completed => .success
  | .failed => .failure
  | .canceled => .error

/-- The status check of a job. -/
def statusCheck (job : PipelineJob) (s : PipelineJobStatus) : Git.CommitStatus :=
  { context := statusContext ++ "/" ++ job.name
    state := checkState s.state
    description := if s.message = "" then s.state.name else s.message }

/-- Set the status check of a job's commit. A failure to do so changes nothing. -/
def reportStatus (hasStore : Bool) (job : PipelineJob) (config : RepoConfig)
    (s : PipelineJobStatus) : Pass Unit := do
  if job.spec.refs.sha = "" then return ()
  match ← attempt (clientFor hasStore config) with
  | .ok (some client) =>
    let _ ← viaGit client (Git.ask (.setCommitStatus job.spec.refs.sha (statusCheck job s)))
  | _ => return ()

/-- Write a new status, and report it if the state is another than before. -/
def persist (hasStore : Bool) (job : PipelineJob) (config : RepoConfig) (s : PipelineJobStatus) :
    Pass Unit := do
  askCluster (.patchJobStatus job s)
  if s.state ≠ job.jobState then reportStatus hasStore job config s

/-- The part of a pass after the finalizer protocol, for a job that has not ended. -/
def updateStatus (hasStore : Bool) (now : Instant) (job : PipelineJob) : Pass Unit := do
  match ← attempt (reflect now job) with
  | .error e =>
    patchFailed job e
    notify (job.withStatus (forcedFailure job e))
  | .ok (config, s) =>
    let outcome ← attempt (persist hasStore job config s)
    notify (job.withStatus s)
    (outcome : Except Error Unit)

/-- A pass over a job. -/
def reconcileJob (hasStore : Bool) (now : Instant) (job : PipelineJob) : Pass Schedule := do
  match ← attempt (followFinalizer job) with
  | .error e => patchFailed job e
  | .ok .stop => return .awaitChange
  | .ok .proceed =>
    if job.isCompleted then return .awaitChange
    updateStatus hasStore now job
  return .awaitChange

end Gatehouse.Control
