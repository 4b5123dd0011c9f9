import Gatehouse.Control.Error
import Gatehouse.Git.Client
import Gatehouse.Program
import Gatehouse.Resource.PipelineJob
import Gatehouse.Resource.PipelineRun
import Gatehouse.Resource.RepoConfig

/-!
# What the controller asks for

The controller works by asking three kinds of question: it reads and writes objects of the cluster, it
has operations done at git providers, and it tells the admission queue about jobs. A `Pass` is
a program of such questions that may fail.
-/

namespace Gatehouse

open Resource

namespace Cluster

/-- A request to the cluster. -/
inductive Query where
  | getConfig (ns name : String)
  | getRun (ns name : String)
  | createRun (run : PipelineRun)
  | createJob (job : PipelineJob)
  /-- Give the job other finalizers. -/
  | patchJobFinalizers (job : PipelineJob) (finalizers : List String)
  | patchJobStatus (job : PipelineJob) (status : PipelineJobStatus)
  /-- Give the config other finalizers. -/
  | patchConfigFinalizers (config : RepoConfig) (finalizers : List String)
  | patchConfigStatus (config : RepoConfig) (status : RepoConfigStatus)
  /-- The value of one key of a secret. -/
  | readSecret (ns name key : String)

/-- What a request gives if it succeeds. -/
abbrev Query.Answer : Query → Type
  | .getConfig _ _ => Option RepoConfig
  | .getRun _ _ => Option PipelineRun
  | .createRun _ => Unit
  | .createJob _ => PipelineJob
  | .patchJobFinalizers _ _ => Unit
  | .patchJobStatus _ _ => Unit
  | .patchConfigFinalizers _ _ => Unit
  | .patchConfigStatus _ _ => Unit
  | .readSecret _ _ _ => Option String

/-- How a request ends. -/
abbrev Query.Outcome (q : Query) : Type := Except Control.Error q.Answer

end Cluster

namespace Control

/-- A question of the controller. -/
inductive Query where
  | cluster (q : Cluster.Query)
  /-- An operation of a git provider, through a client. -/
  | git (client : Git.Client) (q : Git.Query)
  /-- Tell the admission queue about a job. -/
  | notify (job : PipelineJob)

/-- What a question is answered with. -/
abbrev Query.Outcome : Query → Type
  | .cluster q => q.Outcome
  | .git _ q => q.Outcome
  | .notify _ => Unit

/-- A program of the controller. -/
abbrev Work (α : Type) : Type := Program Query Query.Outcome α

/-- A program of the controller that may fail. -/
abbrev Pass (α : Type) : Type := ExceptT Error (Program Query Query.Outcome) α

/-- Ask the cluster. -/
def askCluster (q : Cluster.Query) : Pass q.Answer :=
  ExceptT.mk (Program.query (A := Query.Outcome) (Query.cluster q))

/-- Tell the admission queue about a job. -/
def notify (job : PipelineJob) : Pass Unit :=
  ExceptT.mk (.ask (Query.notify job) fun _ => .done (.ok ()))

/-- Run a pass and give what it ended with as a value, so that a failure does not end the rest. -/
def attempt {α : Type} (pass : Pass α) : Pass (Except Error α) :=
  ExceptT.mk (pass.run.bind fun outcome => .done (.ok outcome))

/-- Have the operations of a program done through a client. -/
def through {α : Type} (client : Git.Client) (p : Program Git.Query Git.Query.Outcome α) : Work α :=
  p.translate fun q => Program.query (A := Query.Outcome) (Query.git client q)

/-- Have operations done through a client, and give what they ended with as a value. -/
def viaGit {α : Type} (client : Git.Client) (action : Git.Action α) :
    Pass (Except Git.Error α) :=
  ExceptT.mk ((through client action.run).bind fun outcome => .done (.ok outcome))

/-- The namespace of an object, which it must have. -/
def namespaceOf {Spec Status : Type} (o : Object Spec Status) : Except Error String :=
  match o.metadata.inNamespace with
  | some ns => .ok ns
  | none => .error .missingNamespace

/-- When a pass over an object is to be repeated. -/
inductive Schedule where
  /-- When the object changes. -/
  | awaitChange
  /-- After a number of seconds. -/
  | requeue (seconds : Nat)
  /-- After a time that does not fit into 64 bits. A program that checks its sums stops where it
  computes the time; passes here go on to their end. -/
  | overflow
  deriving DecidableEq, Repr

/-- When a failed pass is to be repeated. -/
def afterFailure (settings : Settings) : Schedule := .requeue settings.requeueSeconds

end Control

end Gatehouse
