import Gatehouse.Control.Query

/-!
# A cluster in memory

Keeps the objects of each kind under their keys and answers the requests of the controller. A patch of
an object that is not there puts in the object that was to be patched. Requests of a kind can
be made to fail.
-/

namespace Gatehouse.Cluster

open Control Resource

/-- The kinds of request that can be made to fail. -/
inductive Method where
  | getConfig
  | getRun
  | createRun
  | createJob
  | patchJobFinalizers
  | patchJobStatus
  | patchConfigFinalizers
  | patchConfigStatus
  | readSecret
  deriving DecidableEq, Repr

/-- The kind of a request. -/
def Query.method : Query → Method
  | .getConfig _ _ => .getConfig
  | .getRun _ _ => .getRun
  | .createRun _ => .createRun
  | .createJob _ => .createJob
  | .patchJobFinalizers _ _ => .patchJobFinalizers
  | .patchJobStatus _ _ => .patchJobStatus
  | .patchConfigFinalizers _ _ => .patchConfigFinalizers
  | .patchConfigStatus _ _ => .patchConfigStatus
  | .readSecret _ _ _ => .readSecret

/-- The objects of a cluster. -/
structure Memory where
  configs : Table String RepoConfig := ∅
  jobs : Table String PipelineJob := ∅
  runs : Table String PipelineRun := ∅
  /-- The values of secrets by namespace, name and key. -/
  secrets : Table String String := ∅
  /-- The kinds of request that fail, and what they fail with. -/
  failures : List (Method × String) := []
  /-- How many jobs were named by the cluster. -/
  named : Nat := 0

namespace Memory

/-- The key of a value of a secret. -/
def secretKey (ns name key : String) : String := keyOf ns name ++ "/" ++ key

/-- Give an object another name if it has none. -/
def nameJob (m : Memory) (job : PipelineJob) : PipelineJob × Memory :=
  match job.metadata.name with
  | some _ => (job, m)
  | none =>
    let n := m.named + 1
    let name := job.metadata.generateName.getD "" ++ toString n
    ({ job with metadata := { job.metadata with name := some name } }, { m with named := n })

/-- Put in a config. -/
def putConfig (m : Memory) (c : RepoConfig) : Memory :=
  { m with configs := m.configs.insert c.key c }

/-- Put in a job. -/
def putJob (m : Memory) (j : PipelineJob) : Memory := { m with jobs := m.jobs.insert j.key j }

/-- Put in a run. -/
def putRun (m : Memory) (r : PipelineRun) : Memory := { m with runs := m.runs.insert r.key r }

/-- Put in the value of a secret. -/
def putSecret (m : Memory) (ns name key value : String) : Memory :=
  { m with secrets := m.secrets.insert (secretKey ns name key) value }

/-- Change the stored version of a job, or the given one if none is stored. -/
def patchJob (m : Memory) (job : PipelineJob) (change : PipelineJob → PipelineJob) : Memory :=
  { m with jobs := m.jobs.insert job.key (change (m.jobs.getD job.key job)) }

/-- Change the stored version of a config, or the given one if none is stored. -/
def patchConfig (m : Memory) (config : RepoConfig) (change : RepoConfig → RepoConfig) : Memory :=
  { m with configs := m.configs.insert config.key (change (m.configs.getD config.key config)) }

/-- Answer a request that is not made to fail. -/
def serve (m : Memory) : (q : Query) → q.Outcome × Memory
  | .getConfig ns name => (.ok (m.configs.get? (keyOf ns name)), m)
  | .getRun ns name => (.ok (m.runs.get? (keyOf ns name)), m)
  | .createRun run =>
    if m.runs.contains run.key then (.error (.store s!"pipeline run {run.key} already exists"), m)
    else (.ok (), m.putRun run)
  | .createJob job =>
    let (job, m) := m.nameJob job
    (.ok job, m.putJob job)
  | .patchJobFinalizers job finalizers =>
    (.ok (), m.patchJob job (·.withFinalizers finalizers))
  | .patchJobStatus job status => (.ok (), m.patchJob job (·.withStatus status))
  | .patchConfigFinalizers config finalizers =>
    (.ok (), m.patchConfig config (·.withFinalizers finalizers))
  | .patchConfigStatus config status => (.ok (), m.patchConfig config (·.withStatus status))
  | .readSecret ns name key => (.ok (m.secrets.get? (secretKey ns name key)), m)

/-- Answer a request. -/
def answer (q : Query) (m : Memory) : q.Outcome × Memory :=
  match m.failures.lookup q.method with
  | some message => (.error (.store message), m)
  | none => m.serve q

end Memory

end Gatehouse.Cluster
