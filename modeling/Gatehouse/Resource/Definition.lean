import Gatehouse.Resource.Codec
import Gatehouse.Resource.Schema

/-!
# Definitions of the custom resources

The documents that make a cluster serve the kinds of this controller: where a kind is served, which
columns a listing shows, and the schema of its objects.
-/

namespace Gatehouse.Resource

/-- A column of a listing. -/
structure Column where
  name : String
  type : String
  path : String

/-- A custom resource. -/
structure Definition where
  kind : Kind
  columns : List Column
  spec : Schema
  status : Schema

open Schema

/-- A reference to an object by its name. -/
def nameSchema : Schema := record [⟨"name", text, true⟩]

/-- A key of a secret. -/
def secretKeySchema : Schema := record [⟨"key", text, true⟩, ⟨"name", text, true⟩]

/-- A text with the empty one as default. -/
def emptyText : Schema := text.defaulting (.str "")

/-- The age of an object. -/
def ageColumn : Column := ⟨"Age", "date", ".metadata.creationTimestamp"⟩

/-- The schema of `GitSpec`. -/
def gitSchema : Schema :=
  let providers := oneOf ([Git.Provider.github, .gitlab, .fake].map Git.Provider.name)
  record [
    ⟨"apiUrl", text.nullable.described "Provider base URL for self-hosted instances.", false⟩,
    ⟨"repository",
      text.described "`owner/name` on GitHub, the full project path on GitLab.", true⟩,
    ⟨"token",
      secretKeySchema.nullable.described "Access token. Without one the config is inert.", false⟩,
    ⟨"type", providers.described "Git provider type", true⟩]

/-- The schema of `Condition`. -/
def conditionSchema : Schema :=
  let statuses := [ConditionStatus.holds, .fails, .unknown].map ConditionStatus.word
  record [
    ⟨"lastTransitionTime", time.nullable, false⟩,
    ⟨"message", emptyText, false⟩,
    ⟨"reason", emptyText, false⟩,
    ⟨"status", oneOf statuses, true⟩,
    ⟨"type", text, true⟩]

/-- The definition of repository configs. -/
def repoConfigDefinition : Definition where
  kind := repoConfigKind
  columns := [⟨"Repository", "string", ".spec.git.repository"⟩, ageColumn]
  spec := record [
    ⟨"git", gitSchema, true⟩,
    ⟨"pipelineRef", text.described "Pipeline every admitted job runs.", true⟩,
    ⟨"serviceAccount", text.nullable, false⟩,
    ⟨"webhookSecret",
      secretKeySchema.nullable.described "Shared secret used to authenticate inbound webhooks.",
      false⟩]
  status := record [⟨"conditions", (listOf conditionSchema).defaulting (.arr []), false⟩]

/-- The schema of `JobRefs`. -/
def refsSchema : Schema :=
  record [
    ⟨"pullRequest", int64.nullable, false⟩,
    ⟨"ref", text.described "Branch or tag ref the job builds.", true⟩,
    ⟨"repository", text, true⟩,
    ⟨"sha", text, true⟩]

/-- The definition of pipeline jobs. -/
def pipelineJobDefinition : Definition where
  kind := pipelineJobKind
  columns := [⟨"State", "string", ".status.state"⟩, ⟨"Sha", "string", ".spec.refs.sha"⟩, ageColumn]
  spec := record [
    ⟨"configRef", nameSchema, true⟩,
    ⟨"refs", refsSchema.described "What triggered a job.", true⟩]
  status :=
    let states := [JobState.pending, .running, .completed, .failed, .canceled].map JobState.name
    let final := "Set once the job is terminal. Nothing touches the status afterwards."
    record [
      ⟨"completionTime", time.nullable.described final, false⟩,
      ⟨"message", emptyText, false⟩,
      ⟨"startTime", time.nullable, false⟩,
      ⟨"state", (oneOf states).defaulting JobState.pending.toJson, false⟩]

/-- The definition of pipeline runs, as far as the controller looks at them. -/
def pipelineRunDefinition : Definition where
  kind := pipelineRunKind
  columns := []
  spec :=
    let about := "Tekton `PipelineRun`, reduced to the fields the controller reads and writes."
    let params := listOf (record [⟨"name", text, true⟩, ⟨"value", text, true⟩])
    (record [
      ⟨"params", params.defaulting (.arr []), false⟩,
      ⟨"pipelineRef", nameSchema, true⟩,
      ⟨"serviceAccountName", text.nullable, false⟩,
      ⟨"status", text.nullable.described "`PipelineRunCancelled` requests cancellation.",
        false⟩]).described about
  status :=
    let condition := record [
      ⟨"message", emptyText, false⟩,
      ⟨"reason", emptyText, false⟩,
      ⟨"status", text, true⟩,
      ⟨"type", text, true⟩]
    record [
      ⟨"completionTime", time.nullable, false⟩,
      ⟨"conditions", (listOf condition).defaulting (.arr []), false⟩,
      ⟨"startTime", time.nullable, false⟩]

namespace Column

def toJson (c : Column) : Json :=
  .obj [("jsonPath", .str c.path), ("name", .str c.name), ("type", .str c.type)]

end Column

namespace Definition

/-- The schema of the objects of a kind. -/
def schema (d : Definition) : Schema :=
  let about := s!"Auto-generated derived type for {d.kind.name}Spec via `CustomResource`"
  ((record [⟨"spec", d.spec, true⟩, ⟨"status", d.status.nullable, false⟩]).described about).insert
    "title" (.str d.kind.name)

/-- The version of a definition. -/
def version (d : Definition) : Json :=
  .obj [("additionalPrinterColumns", Json.list Column.toJson d.columns),
    ("name", .str d.kind.version), ("schema", .obj [("openAPIV3Schema", d.schema.toJson)]),
    ("served", .bool true), ("storage", .bool true),
    ("subresources", .obj [("status", .obj [])])]

/-- The names of a kind. -/
def names (d : Definition) : Json :=
  .obj [("categories", .arr []), ("kind", .str d.kind.name), ("plural", .str d.kind.plural),
    ("shortNames", .arr []), ("singular", .str d.kind.singular)]

/-- The document of a definition. -/
def toJson (d : Definition) : Json :=
  .obj [("apiVersion", .str "apiextensions.k8s.io/v1"), ("kind", .str "CustomResourceDefinition"),
    ("metadata", .obj [("name", .str (d.kind.plural ++ "." ++ d.kind.group))]),
    ("spec", .obj [("group", .str d.kind.group), ("names", d.names),
      ("scope", .str "Namespaced"), ("versions", .arr [d.version])])]

end Definition

end Gatehouse.Resource
