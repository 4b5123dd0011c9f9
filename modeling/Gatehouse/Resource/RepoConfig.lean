import Gatehouse.Git.Basic
import Gatehouse.Resource.Metadata

/-!
# Repository configs

A config binds a repository to the controller: where the repository is, which pipeline its jobs run,
and the secrets that access it. The status of a config is a list of conditions, one for each type.
-/

namespace Gatehouse.Resource

/-- One key of a secret in the namespace of the object that refers to it. -/
structure SecretKey where
  name : String
  key : String
  deriving DecidableEq, Repr

/-- Where a repository is. -/
structure GitSpec where
  provider : Git.Provider
  /-- Owner and name with a slash between them, or the full path of the project. -/
  repository : String
  /-- The base URL of the provider; the public one if there is none. -/
  apiUrl : Option String := none
  /-- The access token. A config without one does nothing. -/
  token : Option SecretKey := none
  deriving DecidableEq, Repr

/-- What a config asks for. -/
structure RepoConfigSpec where
  git : GitSpec
  /-- The secret that webhooks are authenticated by. -/
  webhookSecret : Option SecretKey := none
  /-- The pipeline that jobs run. -/
  pipelineRef : String
  serviceAccount : Option String := none
  deriving DecidableEq, Repr

/-- Does a condition hold? -/
inductive ConditionStatus where
  | holds
  | fails
  | unknown
  deriving DecidableEq, Repr

/-- The word for a status. -/
def ConditionStatus.word : ConditionStatus → String
  | .holds => "True"
  | .fails => "False"
  | .unknown => "Unknown"

/-- A condition of a config. -/
structure Condition where
  type : String
  status : ConditionStatus
  reason : String := ""
  message : String := ""
  /-- When the status last changed. -/
  lastTransitionTime : Option Instant := none
  deriving DecidableEq

/-- Does the condition hold? -/
def Condition.isTrue (c : Condition) : Bool := c.status = .holds

/-- The conditions of a config. -/
structure RepoConfigStatus where
  conditions : List Condition := []
  deriving DecidableEq

namespace RepoConfigStatus

/-- The condition of a type. -/
def condition? (s : RepoConfigStatus) (type : String) : Option Condition :=
  s.conditions.find? (·.type == type)

/-- Does the condition of a type hold? -/
def isTrue (s : RepoConfigStatus) (type : String) : Bool :=
  (s.condition? type).any Condition.isTrue

/-- What a new condition becomes in the place of an old one of its type: an unchanged status keeps
its time. -/
def replacing (old new : Condition) : Condition :=
  if old.status = new.status then { new with lastTransitionTime := old.lastTransitionTime } else new

/-- Put a condition in the place of the first of its type, or at the end. -/
def setIn (c : Condition) : List Condition → List Condition
  | [] => [c]
  | old :: rest => if old.type = c.type then replacing old c :: rest else old :: setIn c rest

/-- Set the condition of a type. -/
def set (s : RepoConfigStatus) (c : Condition) : RepoConfigStatus := ⟨setIn c s.conditions⟩

end RepoConfigStatus

/-- A repository config. -/
abbrev RepoConfig := Object RepoConfigSpec RepoConfigStatus

/-- The condition that tells whether the webhook of a config is registered. -/
def webhookRegistered : String := "WebhookRegistered"

/-- The condition that tells whether a config is ready. -/
def ready : String := "Ready"

/-- The kind of repository configs. -/
def repoConfigKind : Kind := ⟨"prflow.dev", "v1", "RepoConfig", "repoconfigs", "repoconfig"⟩

end Gatehouse.Resource
