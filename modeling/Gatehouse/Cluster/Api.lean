import Gatehouse.Control.Query
import Gatehouse.Json.Scan
import Gatehouse.Resource.Codec
import Gatehouse.Text.Base64
import Gatehouse.Text.Blank

/-!
# The cluster's interface

The requests of the controller as HTTP requests to the cluster. Objects are read, created and patched
by name below the path of their kind. An answer without success tells its cause in a status
document; a missing object is no failure of a request that reads it.
-/

namespace Gatehouse.Cluster

open Control Json Resource

/-- A request over HTTP. -/
structure Message where
  method : Http.Method
  path : String
  contentType : Option String := none
  body : Option Json := none

/-- A server with the answers it will give, in order, and what it was sent. -/
structure Api where
  script : List Http.Response := []
  sent : List Message := []

/-- A computation that talks to the server and may fail. -/
abbrev Exchange (α : Type) : Type := ExceptT Control.Error (StateM Api) α

/-- The answer of a server that has no answer. -/
def noAnswer : Http.Response := { status := 500 }

/-- A failure that is not one of the cluster itself. -/
def unusable : Control.Error := .cluster none

/-- Send a request. -/
def send (m : Message) : Exchange Http.Response := fun api =>
  match api.script with
  | [] => (.ok noAnswer, { api with sent := api.sent ++ [m] })
  | r :: rest => (.ok r, { api with script := rest, sent := api.sent ++ [m] })

/-- What a status document tells. -/
structure StatusDocument where
  reason : String
  code : Nat

/-- Read a status document. -/
def StatusDocument.ofJson? (v : Json) : Option StatusDocument := do
  let f ← fields? ["status", "message", "reason", "code"] v
  let _ ← f.required "status" text?
  let _ ← f.withDefault "message" "" text?
  let reason ← f.withDefault "reason" "" text?
  let code ← f.required "code" (below? UInt16.size)
  some { reason, code }

/-- The cause that an answer without success tells. -/
def StatusDocument.ofResponse (r : Http.Response) : StatusDocument :=
  (Json.parse? r.body >>= StatusDocument.ofJson?).getD ⟨"Failed to parse error data", r.status⟩

/-- Does an answer tell of failure? -/
def isFailure (r : Http.Response) : Bool := 400 ≤ r.status && r.status < 600

/-- Read an answer as a document. -/
def readAnswer {α : Type} (read : Json → Option α) (r : Http.Response) : Except Control.Error α :=
  if isFailure r then .error (.cluster (some (StatusDocument.ofResponse r).code))
  else
    match Json.parse? r.body >>= read with
    | some a => .ok a
    | none => .error unusable

/-- Read an answer as a document that may be missing. -/
def readIfThere {α : Type} (read : Json → Option α) (r : Http.Response) :
    Except Control.Error (Option α) :=
  if isFailure r && (StatusDocument.ofResponse r).reason == "NotFound" then .ok none
  else (readAnswer read r).map some

/-- May the character stand in the path of a request? -/
def isPathChar (c : Char) : Bool :=
  let n := c.toNat
  n == 0x21 || n == 0x22 || (0x24 ≤ n && n ≤ 0x3B) || n == 0x3D || (0x40 ≤ n && n ≤ 0x5F) ||
  (0x61 ≤ n && n ≤ 0x7E) || 0x7F ≤ n

/-- The path of the objects of a kind in a namespace. -/
def kindPath (kind : Kind) (ns : String) : String :=
  let root := if kind.group = "" then "/api/" ++ kind.version else "/apis/" ++ kind.apiVersion
  root ++ "/namespaces/" ++ ns ++ "/" ++ kind.plural

/-- Refuse a path that cannot stand in a request. -/
def checkPath (path : String) : Except Control.Error Unit :=
  if path.toList.all isPathChar then .ok () else .error unusable

/-- The path of an object. -/
def objectPath (kind : Kind) (ns name : String) : Except Control.Error String := do
  if name = "" then throw unusable
  let path := kindPath kind ns ++ "/" ++ name
  checkPath path
  return path

/-- Get an object, if it is there. -/
def getObject {α : Type} (kind : Kind) (read : Json → Option α) (ns name : String) :
    Exchange (Option α) := do
  let path ← (objectPath kind ns name : Except Control.Error String)
  let r ← send { method := .get, path }
  (readIfThere read r : Except Control.Error (Option α))

/-- Create an object, and give it as the cluster created it. -/
def createObject {α : Type} (kind : Kind) (read : Json → Option α) (ns : String) (o : Json) :
    Exchange α := do
  let path := kindPath kind ns
  (checkPath path : Except Control.Error Unit)
  let r ← send { method := .post, path, contentType := some "application/json", body := some o }
  (readAnswer read r : Except Control.Error α)

/-- Patch an object; `part` is empty or the path of a part of it. -/
def patchObject {α : Type} (kind : Kind) (read : Json → Option α) (ns name part : String)
    (patch : Json) : Exchange Unit := do
  let path ← (objectPath kind ns name : Except Control.Error String)
  let r ← send { method := .patch, path := path ++ part, body := some patch
                 contentType := some "application/merge-patch+json" }
  let _ ← (readAnswer read r : Except Control.Error α)

/-- The patch that gives an object other finalizers. -/
def finalizersPatch (finalizers : List String) : Json :=
  .obj [("metadata", .obj [("finalizers", list .str finalizers)])]

/-- The patch that gives an object another status. -/
def statusPatch (status : Json) : Json := .obj [("status", status)]

/-- The kind of secrets. -/
def secretKind : Kind := ⟨"", "v1", "Secret", "secrets", "secret"⟩

/-- The bytes that a text in base 64 stands for. -/
def bytes? (v : Json) : Option Bytes := v.text?.bind fun s => Text.unbase64? s.toList

/-- Does an object say to be of the kind, wherever it says of what kind it is? -/
def isOfKind (kind : Kind) (members : List (String × Json)) : Bool :=
  members.all fun m =>
    (m.1 != "apiVersion" || m.2.text? == some kind.version) &&
      (m.1 != "kind" || m.2.text? == some kind.name)

/-- The values of a secret. -/
def readSecretData (v : Json) : Option (List (String × Bytes)) := do
  let ms ← v.members?
  if !isOfKind secretKind ms then none
  let _ ← memberOf ms "metadata" Metadata.ofJson?
  let _ ← memberOf ms "immutable" bool?
  let _ ← memberOf ms "stringData" textTable?
  let _ ← memberOf ms "type" text?
  let data ← memberOf ms "data" fun d => do
    let entries ← d.members?
    entries.mapM fun e => (bytes? e.2).map fun bs => (e.1, bs)
  some (data.getD [])

/-- The value of a secret as a text without blanks at its ends. -/
def secretText (ns name key : String) (value : Bytes) : Except Control.Error String :=
  match Text.decode value with
  | .ok s => .ok (Text.trimmed s)
  | .error e => .error (.store s!"secret {keyOf ns name} key {key}: {e.message}")

/-- Read a key of a secret. -/
def readSecretKey (ns name key : String) : Exchange (Option String) := do
  match ← getObject secretKind readSecretData ns name with
  | none => return none
  | some data =>
    match data.reverse.lookup key with
    | none => return none
    | some value => some <$> (secretText ns name key value : Except Control.Error String)

/-- Patch a job. -/
def patchJob (job : PipelineJob) (part : String) (patch : Json) : Exchange Unit := do
  let ns ← (namespaceOf job : Except Control.Error String)
  patchObject pipelineJobKind PipelineJob.ofJson? ns job.name part patch

/-- Patch a config. -/
def patchConfig (config : RepoConfig) (part : String) (patch : Json) : Exchange Unit := do
  let ns ← (namespaceOf config : Except Control.Error String)
  patchObject repoConfigKind RepoConfig.ofJson? ns config.name part patch

/-- Answer a request of the controller. -/
def Api.answer : (q : Query) → Exchange q.Answer
  | .getConfig ns name => getObject repoConfigKind RepoConfig.ofJson? ns name
  | .getRun ns name => getObject pipelineRunKind PipelineRun.ofJson? ns name
  | .createRun run => do
    let ns ← (namespaceOf run : Except Control.Error String)
    let _ ← createObject pipelineRunKind PipelineRun.ofJson? ns (PipelineRun.toJson run)
  | .createJob job => do
    let ns ← (namespaceOf job : Except Control.Error String)
    createObject pipelineJobKind PipelineJob.ofJson? ns (PipelineJob.toJson job)
  | .patchJobFinalizers job finalizers => patchJob job "" (finalizersPatch finalizers)
  | .patchJobStatus job status => patchJob job "/status" (statusPatch status.toJson)
  | .patchConfigFinalizers config finalizers => patchConfig config "" (finalizersPatch finalizers)
  | .patchConfigStatus config status => patchConfig config "/status" (statusPatch status.toJson)
  | .readSecret ns name key => readSecretKey ns name key

end Gatehouse.Cluster
