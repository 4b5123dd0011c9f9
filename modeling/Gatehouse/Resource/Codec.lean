import Gatehouse.Git.Codec
import Gatehouse.Json.Members
import Gatehouse.Resource.PipelineJob
import Gatehouse.Resource.PipelineRun
import Gatehouse.Resource.RepoConfig

/-!
# Cluster objects as documents

The documents of cluster objects and of their parts. Metadata is read leniently, and everything
else strictly. What is absent is left out of a document; the kind and version of an object are
written but not looked at.
-/

namespace Gatehouse

/-- A time in whole seconds. -/
def Instant.toJsonSeconds (t : Instant) : Json := .str t.renderSeconds

namespace Resource

open Json

namespace OwnerReference

def toJson (o : OwnerReference) : Json :=
  .obj ([("apiVersion", .str o.apiVersion)] ++
    member? "blockOwnerDeletion" .bool o.blockOwnerDeletion ++
    member? "controller" .bool o.controller ++
    [("kind", .str o.kind), ("name", .str o.name), ("uid", .str o.uid)])

def ofJson? (v : Json) : Option OwnerReference := do
  let ms ← v.members?
  let apiVersion ← memberOf ms "apiVersion" text?
  let blockOwnerDeletion ← memberOf ms "blockOwnerDeletion" bool?
  let controller ← memberOf ms "controller" bool?
  let kind ← memberOf ms "kind" text?
  let name ← memberOf ms "name" text?
  let uid ← memberOf ms "uid" text?
  some { apiVersion := apiVersion.getD "", kind := kind.getD "", name := name.getD ""
         uid := uid.getD "", blockOwnerDeletion, controller }

end OwnerReference

namespace ManagedFields

/-- How many containers of an object are open around the list of written fields. -/
def level : Nat := 4

def toJson (m : ManagedFields) : Json :=
  .obj (member? "apiVersion" .str m.apiVersion ++ member? "fieldsType" .str m.fieldsType ++
    member? "fieldsV1" id m.fieldsV1 ++ member? "manager" .str m.manager ++
    member? "operation" .str m.operation ++ member? "subresource" .str m.subresource ++
    member? "time" Instant.toJsonSeconds m.time)

def ofJson? (v : Json) : Option ManagedFields := do
  let ms ← v.members?
  let apiVersion ← memberOf ms "apiVersion" text?
  let fieldsType ← memberOf ms "fieldsType" text?
  let fieldsV1 ← memberOf ms "fieldsV1" (freeForm? level)
  let manager ← memberOf ms "manager" text?
  let operation ← memberOf ms "operation" text?
  let subresource ← memberOf ms "subresource" text?
  let time ← memberOf ms "time" Instant.ofJson?
  some { apiVersion, fieldsType, fieldsV1, manager, operation, subresource, time }

end ManagedFields

namespace Metadata

def toJson (m : Metadata) : Json :=
  .obj (member? "annotations" ofTextTable m.annotations ++
    member? "creationTimestamp" Instant.toJsonSeconds m.creationTimestamp ++
    member? "deletionGracePeriodSeconds" .int m.deletionGracePeriodSeconds ++
    member? "deletionTimestamp" Instant.toJsonSeconds m.deletionTimestamp ++
    member? "finalizers" (list .str) m.finalizers ++
    member? "generateName" .str m.generateName ++
    member? "generation" .int m.generation ++
    member? "labels" ofTextTable m.labels ++
    member? "managedFields" (list ManagedFields.toJson) m.managedFields ++
    member? "name" .str m.name ++
    member? "namespace" .str m.inNamespace ++
    member? "ownerReferences" (list OwnerReference.toJson) m.ownerReferences ++
    member? "resourceVersion" .str m.resourceVersion ++
    member? "selfLink" .str m.selfLink ++
    member? "uid" .str m.uid)

def ofJson? (v : Json) : Option Metadata := do
  let ms ← v.members?
  let annotations ← memberOf ms "annotations" textTable?
  let creationTimestamp ← memberOf ms "creationTimestamp" Instant.ofJson?
  let deletionGracePeriodSeconds ← memberOf ms "deletionGracePeriodSeconds" int64?
  let deletionTimestamp ← memberOf ms "deletionTimestamp" Instant.ofJson?
  let finalizers ← memberOf ms "finalizers" (list? text?)
  let generateName ← memberOf ms "generateName" text?
  let generation ← memberOf ms "generation" int64?
  let labels ← memberOf ms "labels" textTable?
  let managedFields ← memberOf ms "managedFields" (list? ManagedFields.ofJson?)
  let name ← memberOf ms "name" text?
  let inNamespace ← memberOf ms "namespace" text?
  let ownerReferences ← memberOf ms "ownerReferences" (list? OwnerReference.ofJson?)
  let resourceVersion ← memberOf ms "resourceVersion" text?
  let selfLink ← memberOf ms "selfLink" text?
  let uid ← memberOf ms "uid" text?
  some { annotations, creationTimestamp, deletionGracePeriodSeconds, deletionTimestamp, finalizers
         generateName, generation, labels, managedFields, name, inNamespace, ownerReferences
         resourceVersion, selfLink, uid }

end Metadata

namespace Object

variable {Spec Status : Type}

/-- The document of an object of a kind. -/
def toJsonWith (kind : Kind) (writeSpec : Spec → Json) (writeStatus : Status → Json)
    (o : Object Spec Status) : Json :=
  .obj ([("apiVersion", .str kind.apiVersion), ("kind", .str kind.name),
    ("metadata", o.metadata.toJson), ("spec", writeSpec o.spec)] ++
    member? "status" writeStatus o.status)

/-- Read an object. -/
def ofJsonWith? (readSpec : Json → Option Spec) (readStatus : Json → Option Status) (v : Json) :
    Option (Object Spec Status) := do
  let f ← fields? ["metadata", "spec", "status"] v
  let metadata ← f.required "metadata" Metadata.ofJson?
  let spec ← f.required "spec" readSpec
  let status ← f.nullable "status" readStatus
  some { metadata, spec, status }

end Object

/-- A reference to an object of the namespace, by its name. -/
def reference (name : String) : Json := .obj [("name", .str name)]

/-- Read a reference. -/
def reference? (v : Json) : Option String := do
  let f ← fields? ["name"] v
  f.required "name" text?

namespace SecretKey

def toJson (s : SecretKey) : Json := .obj [("name", .str s.name), ("key", .str s.key)]

def ofJson? (v : Json) : Option SecretKey := do
  let f ← fields? ["name", "key"] v
  let name ← f.required "name" text?
  let key ← f.required "key" text?
  some { name, key }

end SecretKey

namespace GitSpec

def toJson (g : GitSpec) : Json :=
  .obj ([("type", g.provider.toJson), ("repository", .str g.repository)] ++
    member? "apiUrl" .str g.apiUrl ++ member? "token" SecretKey.toJson g.token)

def ofJson? (v : Json) : Option GitSpec := do
  let f ← fields? ["type", "repository", "apiUrl", "token"] v
  let provider ← f.required "type" Git.Provider.ofJson?
  let repository ← f.required "repository" text?
  let apiUrl ← f.optional "apiUrl" text?
  let token ← f.optional "token" SecretKey.ofJson?
  some { provider, repository, apiUrl, token }

end GitSpec

namespace RepoConfigSpec

def toJson (s : RepoConfigSpec) : Json :=
  .obj ([("git", s.git.toJson)] ++ member? "webhookSecret" SecretKey.toJson s.webhookSecret ++
    [("pipelineRef", .str s.pipelineRef)] ++ member? "serviceAccount" .str s.serviceAccount)

def ofJson? (v : Json) : Option RepoConfigSpec := do
  let f ← fields? ["git", "webhookSecret", "pipelineRef", "serviceAccount"] v
  let git ← f.required "git" GitSpec.ofJson?
  let webhookSecret ← f.optional "webhookSecret" SecretKey.ofJson?
  let pipelineRef ← f.required "pipelineRef" text?
  let serviceAccount ← f.optional "serviceAccount" text?
  some { git, webhookSecret, pipelineRef, serviceAccount }

end RepoConfigSpec

namespace ConditionStatus

def toJson (s : ConditionStatus) : Json := .str s.word

def ofJson? (v : Json) : Option ConditionStatus :=
  match v.case? with
  | some "True" => some .holds
  | some "False" => some .fails
  | some "Unknown" => some .unknown
  | _ => none

end ConditionStatus

namespace Condition

def toJson (c : Condition) : Json :=
  .obj ([("type", .str c.type), ("status", c.status.toJson), ("reason", .str c.reason),
    ("message", .str c.message)] ++
    member? "lastTransitionTime" Instant.toJson c.lastTransitionTime)

def ofJson? (v : Json) : Option Condition := do
  let f ← fields? ["type", "status", "reason", "message", "lastTransitionTime"] v
  let type ← f.required "type" text?
  let status ← f.required "status" ConditionStatus.ofJson?
  let reason ← f.withDefault "reason" "" text?
  let message ← f.withDefault "message" "" text?
  let lastTransitionTime ← f.optional "lastTransitionTime" Instant.ofJson?
  some { type, status, reason, message, lastTransitionTime }

end Condition

namespace RepoConfigStatus

def toJson (s : RepoConfigStatus) : Json :=
  .obj [("conditions", list Condition.toJson s.conditions)]

def ofJson? (v : Json) : Option RepoConfigStatus := do
  let f ← fields? ["conditions"] v
  let conditions ← f.withDefault "conditions" [] (list? Condition.ofJson?)
  some { conditions }

end RepoConfigStatus

namespace JobRefs

def toJson (r : JobRefs) : Json :=
  .obj ([("repository", .str r.repository), ("ref", .str r.ref), ("sha", .str r.sha)] ++
    member? "pullRequest" .int r.pullRequest)

def ofJson? (v : Json) : Option JobRefs := do
  let f ← fields? ["repository", "ref", "sha", "pullRequest"] v
  let repository ← f.required "repository" text?
  let ref ← f.required "ref" text?
  let sha ← f.required "sha" text?
  let pullRequest ← f.optional "pullRequest" int64?
  some { repository, ref, sha, pullRequest }

end JobRefs

namespace PipelineJobSpec

def toJson (s : PipelineJobSpec) : Json :=
  .obj [("configRef", reference s.config), ("refs", s.refs.toJson)]

def ofJson? (v : Json) : Option PipelineJobSpec := do
  let f ← fields? ["configRef", "refs"] v
  let config ← f.required "configRef" reference?
  let refs ← f.required "refs" JobRefs.ofJson?
  some { config, refs }

end PipelineJobSpec

namespace JobState

def toJson (s : JobState) : Json := .str s.name

def ofJson? (v : Json) : Option JobState :=
  match v.case? with
  | some "Pending" => some .pending
  | some "Running" => some .running
  | some "Completed" => some .completed
  | some "Failed" => some .failed
  | some "Canceled" => some .canceled
  | _ => none

end JobState

namespace PipelineJobStatus

def toJson (s : PipelineJobStatus) : Json :=
  .obj ([("state", s.state.toJson), ("message", .str s.message)] ++
    member? "startTime" Instant.toJson s.startTime ++
    member? "completionTime" Instant.toJson s.completionTime)

def ofJson? (v : Json) : Option PipelineJobStatus := do
  let f ← fields? ["state", "message", "startTime", "completionTime"] v
  let state ← f.withDefault "state" .pending JobState.ofJson?
  let message ← f.withDefault "message" "" text?
  let startTime ← f.optional "startTime" Instant.ofJson?
  let completionTime ← f.optional "completionTime" Instant.ofJson?
  some { state, message, startTime, completionTime }

end PipelineJobStatus

namespace Param

def toJson (p : Param) : Json := .obj [("name", .str p.name), ("value", .str p.value)]

def ofJson? (v : Json) : Option Param := do
  let f ← fields? ["name", "value"] v
  let name ← f.required "name" text?
  let value ← f.required "value" text?
  some { name, value }

end Param

namespace PipelineRunSpec

def toJson (s : PipelineRunSpec) : Json :=
  .obj ([("pipelineRef", reference s.pipeline), ("params", list Param.toJson s.params)] ++
    member? "serviceAccountName" .str s.serviceAccountName ++ member? "status" .str s.status)

def ofJson? (v : Json) : Option PipelineRunSpec := do
  let f ← fields? ["pipelineRef", "params", "serviceAccountName", "status"] v
  let pipeline ← f.required "pipelineRef" reference?
  let params ← f.withDefault "params" [] (list? Param.ofJson?)
  let serviceAccountName ← f.optional "serviceAccountName" text?
  let status ← f.optional "status" text?
  some { pipeline, params, serviceAccountName, status }

end PipelineRunSpec

namespace RunCondition

def toJson (c : RunCondition) : Json :=
  .obj [("type", .str c.type), ("status", .str c.status), ("reason", .str c.reason),
    ("message", .str c.message)]

def ofJson? (v : Json) : Option RunCondition := do
  let f ← fields? ["type", "status", "reason", "message"] v
  let type ← f.required "type" text?
  let status ← f.required "status" text?
  let reason ← f.withDefault "reason" "" text?
  let message ← f.withDefault "message" "" text?
  some { type, status, reason, message }

end RunCondition

namespace PipelineRunStatus

def toJson (s : PipelineRunStatus) : Json :=
  .obj ([("conditions", list RunCondition.toJson s.conditions)] ++
    member? "startTime" Instant.toJson s.startTime ++
    member? "completionTime" Instant.toJson s.completionTime)

def ofJson? (v : Json) : Option PipelineRunStatus := do
  let f ← fields? ["conditions", "startTime", "completionTime"] v
  let conditions ← f.withDefault "conditions" [] (list? RunCondition.ofJson?)
  let startTime ← f.optional "startTime" Instant.ofJson?
  let completionTime ← f.optional "completionTime" Instant.ofJson?
  some { conditions, startTime, completionTime }

end PipelineRunStatus

namespace RepoConfig

def toJson (c : RepoConfig) : Json :=
  c.toJsonWith repoConfigKind RepoConfigSpec.toJson RepoConfigStatus.toJson

def ofJson? (v : Json) : Option RepoConfig :=
  Object.ofJsonWith? RepoConfigSpec.ofJson? RepoConfigStatus.ofJson? v

end RepoConfig

namespace PipelineJob

def toJson (j : PipelineJob) : Json :=
  j.toJsonWith pipelineJobKind PipelineJobSpec.toJson PipelineJobStatus.toJson

def ofJson? (v : Json) : Option PipelineJob :=
  Object.ofJsonWith? PipelineJobSpec.ofJson? PipelineJobStatus.ofJson? v

end PipelineJob

namespace PipelineRun

def toJson (r : PipelineRun) : Json :=
  r.toJsonWith pipelineRunKind PipelineRunSpec.toJson PipelineRunStatus.toJson

def ofJson? (v : Json) : Option PipelineRun :=
  Object.ofJsonWith? PipelineRunSpec.ofJson? PipelineRunStatus.ofJson? v

end PipelineRun

end Resource

end Gatehouse
