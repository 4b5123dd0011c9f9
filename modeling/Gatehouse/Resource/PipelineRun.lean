import Gatehouse.Resource.Metadata

/-!
# Pipeline runs

A run is the object that makes the execution engine run a pipeline. The engine reports in the status
of the run; the condition `Succeeded` tells the outcome.
-/

namespace Gatehouse.Resource

/-- A parameter of a pipeline. -/
structure Param where
  name : String
  value : String
  deriving DecidableEq, Repr

/-- What a run asks for. -/
structure PipelineRunSpec where
  /-- The name of the pipeline. -/
  pipeline : String
  params : List Param := []
  serviceAccountName : Option String := none
  /-- A request to the engine, such as one to cancel the run. -/
  status : Option String := none
  deriving DecidableEq, Repr

/-- A condition that the engine reports. -/
structure RunCondition where
  type : String
  status : String
  reason : String := ""
  message : String := ""
  deriving DecidableEq, Repr

/-- What the engine reports. -/
structure PipelineRunStatus where
  conditions : List RunCondition := []
  startTime : Option Instant := none
  completionTime : Option Instant := none
  deriving DecidableEq

/-- The condition that tells the outcome. -/
def PipelineRunStatus.succeeded? (s : PipelineRunStatus) : Option RunCondition :=
  s.conditions.find? (·.type == "Succeeded")

/-- A pipeline run. -/
abbrev PipelineRun := Object PipelineRunSpec PipelineRunStatus

/-- The kind of pipeline runs. -/
def pipelineRunKind : Kind :=
  ⟨"tekton.dev", "v1beta1", "PipelineRun", "pipelineruns", "pipelinerun"⟩

end Gatehouse.Resource
