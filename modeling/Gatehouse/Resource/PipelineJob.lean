import Gatehouse.Resource.Metadata

/-!
# Pipeline jobs

A job is one requested execution of a pipeline. It waits until a slot is free, runs, and ends as
completed, failed or canceled.
-/

namespace Gatehouse.Resource

/-- What a job builds. -/
structure JobRefs where
  repository : String
  /-- The branch or tag. -/
  ref : String
  sha : String
  pullRequest : Option Int := none
  deriving DecidableEq, Repr

/-- What a job asks for. -/
structure PipelineJobSpec where
  /-- The name of the config of its repository. -/
  config : String
  refs : JobRefs
  deriving DecidableEq, Repr

/-- The state of a job. -/
inductive JobState where
  | pending
  | running
  | completed
  | failed
  | canceled
  deriving DecidableEq, Repr

/-- The name of a state. -/
def JobState.name : JobState → String
  | .pending => "Pending"
  | .running => "Running"
  | .completed => "Completed"
  | .failed => "Failed"
  | .canceled => "Canceled"

/-- How a job is doing. -/
structure PipelineJobStatus where
  state : JobState := .pending
  message : String := ""
  startTime : Option Instant := none
  /-- Set once the job has ended; the status is not to change after that. -/
  completionTime : Option Instant := none
  deriving DecidableEq

/-- A pipeline job. -/
abbrev PipelineJob := Object PipelineJobSpec PipelineJobStatus

namespace Object

/-- The status of a job; a new job has the initial one. -/
def jobStatus (job : PipelineJob) : PipelineJobStatus := job.status.getD {}

/-- The state of a job. -/
def jobState (job : PipelineJob) : JobState := job.jobStatus.state

/-- Has the job ended for good? -/
def isCompleted (job : PipelineJob) : Bool := job.jobStatus.completionTime.isSome

@[simp] theorem jobStatus_withFinalizers (job : PipelineJob) (fs : List String) :
    (job.withFinalizers fs).jobStatus = job.jobStatus := rfl

@[simp] theorem jobStatus_withStatus (job : PipelineJob) (s : PipelineJobStatus) :
    (job.withStatus s).jobStatus = s := rfl

end Object

/-- The kind of pipeline jobs. -/
def pipelineJobKind : Kind := ⟨"prflow.dev", "v1", "PipelineJob", "pipelinejobs", "pipelinejob"⟩

end Gatehouse.Resource
