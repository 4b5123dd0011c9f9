import Gatehouse.Cluster.Api
import Gatehouse.Proofs.Program.Fallible

/-!
# One request, one answer

A request of the controller sends one message or none, so one answer of the server decides what
comes of it. `exchange` gives that together with what was sent.
-/

namespace Gatehouse.Cluster

open Control Resource

variable {α : Type} {kind : Kind} {read : Json → Option α} {ns name key part path : String}
  {patch : Json} {r : Http.Response}

/-- What comes of a computation whose first message is answered with `r`, and what it sends. -/
def tried (x : Exchange α) (r : Http.Response) : Except Control.Error α × List Message :=
  let ended := x { script := [r] }
  (ended.1, ended.2.sent)

/-- What comes of a request whose message is answered with `r`, and what is sent. -/
def exchange (q : Query) (r : Http.Response) : q.Outcome × List Message := tried (Api.answer q) r

/-- The patch of the part of an object. -/
def patchMessage (path part : String) (patch : Json) : Message where
  method := .patch
  path := path ++ part
  contentType := some "application/merge-patch+json"
  body := some patch

/-- What succeeds in two steps succeeds in each. -/
theorem bind_ok {β : Type} {x : Exchange α} {f : α → Exchange β} {api : Api} {b : β}
    (h : ((x >>= f) api).1 = .ok b) : ∃ a api', x api = (.ok a, api') ∧ (f a api').1 = .ok b := by
  rw [run_andThen] at h
  rcases done : x api with ⟨o, api'⟩
  rw [done] at h
  cases o with
  | error e => cases h
  | ok a => exact ⟨a, api', rfl, h⟩

/-! What is sent. -/

/-- Nothing but messages with the property is sent. -/
def Sends (P : Message → Prop) (x : Exchange α) : Prop :=
  ∀ api, (∀ m ∈ api.sent, P m) → ∀ m ∈ (x api).2.sent, P m

section Sends

variable {P : Message → Prop}

theorem Sends.andThen {β : Type} {x : Exchange α} {f : α → Exchange β} (h : Sends P x)
    (h' : ∀ a, Sends P (f a)) : Sends P (x >>= f) := by
  intro api before
  have between := h api before
  rw [run_andThen]
  rcases done : x api with ⟨o, api'⟩
  rw [done] at between
  cases o with
  | error e => exact between
  | ok a => exact h' a api' between

theorem sends_lift (o : Except Control.Error α) : Sends P (liftM o : Exchange α) := by
  cases o <;> exact fun api before => before

theorem sends_pure (a : α) : Sends P (pure a : Exchange α) := fun _ before => before

theorem sends_send {m : Message} (h : P m) : Sends P (send m) := by
  intro api before
  have sent : (send m api).2.sent = api.sent ++ [m] := by
    unfold send
    split <;> rfl
  rw [sent]
  exact List.forall_mem_append.mpr ⟨before, List.forall_mem_singleton.mpr h⟩

end Sends

/-- The message does not patch anything. -/
def Message.Unpatching (m : Message) : Prop := m.method ≠ .patch

theorem unpatching_getObject : Sends Message.Unpatching (getObject kind read ns name) := by
  refine (sends_lift _).andThen fun path => ?_
  exact (sends_send nofun).andThen fun r => sends_lift _

theorem unpatching_createObject {o : Json} :
    Sends Message.Unpatching (createObject kind read ns o) := by
  refine (sends_lift _).andThen fun _ => ?_
  exact (sends_send nofun).andThen fun r => sends_lift _

theorem unpatching_readSecretKey : Sends Message.Unpatching (readSecretKey ns name key) := by
  refine unpatching_getObject.andThen fun data => ?_
  cases data with
  | none => exact sends_pure none
  | some data =>
    cases found : data.reverse.lookup key with
    | none =>
      simp only [found]
      exact sends_pure none
    | some value =>
      simp only [found]
      exact (sends_lift _).andThen fun s => sends_pure (some s)

/-! What single requests come to. -/

theorem getObject_run :
    getObject kind read ns name { script := [r] } =
      match objectPath kind ns name with
      | .error e => (.error e, { script := [r] })
      | .ok path => (readIfThere read r, { sent := [{ method := .get, path }] }) := by
  unfold getObject
  cases objectPath kind ns name with
  | error e => rfl
  | ok path => rfl

/-- Where the cluster keeps an object of a kind. -/
def placeOf {Spec Status : Type} (kind : Kind) (o : Object Spec Status) :
    Except Control.Error String := do
  let ns ← namespaceOf o
  objectPath kind ns o.name

/-- What comes of a patch of the object at a place, given how the answer reads, and what is sent. -/
def patched (place : Except Control.Error String) (o : Except Control.Error Unit) (part : String)
    (patch : Json) : Except Control.Error Unit × List Message :=
  match place with
  | .error e => (.error e, [])
  | .ok path => (o, [patchMessage path part patch])

/-- How the answer to a patch reads. -/
def readPatched (read : Json → Option α) (r : Http.Response) : Except Control.Error Unit :=
  (readAnswer read r).map fun _ => ()

theorem patchObject_run :
    tried (patchObject kind read ns name part patch) r =
      patched (objectPath kind ns name) (readPatched read r) part patch := by
  unfold patchObject
  cases objectPath kind ns name with
  | error e => rfl
  | ok path =>
    have passed (o : Except Control.Error α) (api : Api) :
        (do let _ ← (o : Except Control.Error α) : Exchange Unit) api =
          (o.map fun _ => (), api) := by
      cases o <;> rfl
    have read := passed (readAnswer read r) { sent := [patchMessage path part patch] }
    exact congrArg (fun ended => (ended.1, ended.2.sent)) read

theorem patched_run {Spec Status : Type} (o : Object Spec Status) :
    tried (do
      let ns ← (namespaceOf o : Except Control.Error String)
      patchObject kind read ns o.name part patch) r =
      patched (placeOf kind o) (readPatched read r) part patch := by
  unfold placeOf
  cases namespaceOf o with
  | error e => rfl
  | ok ns => exact patchObject_run

theorem exchange_patchJobFinalizers (job : PipelineJob) (fs : List String) (r : Http.Response) :
    exchange (.patchJobFinalizers job fs) r =
      patched (placeOf pipelineJobKind job) (readPatched PipelineJob.ofJson? r) ""
        (finalizersPatch fs) :=
  patched_run job

theorem exchange_patchJobStatus (job : PipelineJob) (s : PipelineJobStatus) (r : Http.Response) :
    exchange (.patchJobStatus job s) r =
      patched (placeOf pipelineJobKind job) (readPatched PipelineJob.ofJson? r) "/status"
        (statusPatch s.toJson) :=
  patched_run job

theorem exchange_patchConfigFinalizers (config : RepoConfig) (fs : List String)
    (r : Http.Response) :
    exchange (.patchConfigFinalizers config fs) r =
      patched (placeOf repoConfigKind config) (readPatched RepoConfig.ofJson? r) ""
        (finalizersPatch fs) :=
  patched_run config

theorem exchange_patchConfigStatus (config : RepoConfig) (s : RepoConfigStatus)
    (r : Http.Response) :
    exchange (.patchConfigStatus config s) r =
      patched (placeOf repoConfigKind config) (readPatched RepoConfig.ofJson? r) "/status"
        (statusPatch s.toJson) :=
  patched_run config

/-- The bytes under a key of the secret that an answer shows. -/
def secretValue? (key : String) (r : Http.Response) : Option Bytes :=
  match readIfThere readSecretData r with
  | .ok (some data) => data.reverse.lookup key
  | _ => none

theorem secretText_ok {name s : String} {value : Bytes}
    (h : secretText ns name key value = .ok s) :
    ∃ text, Text.decode value = .ok text ∧ s = Text.trimmed text := by
  unfold secretText at h
  split at h
  · rename_i text decoded
    exact ⟨text, decoded, (Except.ok.inj h).symm⟩
  · cases h

/-- A secret that is read is what the bytes under its key say, without blanks at the ends. -/
theorem exchange_readSecret {s : String}
    (found : (exchange (.readSecret ns name key) r).1 = .ok (some s)) :
    ∃ value text, secretValue? key r = some value ∧ Text.decode value = .ok text ∧
      s = Text.trimmed text := by
  obtain ⟨data, api, seen, after⟩ :=
    bind_ok (x := getObject secretKind readSecretData ns name) found
  have shown : readIfThere readSecretData r = .ok data := by
    rw [getObject_run] at seen
    split at seen
    · cases seen
    · exact congrArg Prod.fst seen
  cases data with
  | none => cases after
  | some data =>
    have shown : secretValue? key r = data.reverse.lookup key := by
      rw [secretValue?, shown]
    cases there : data.reverse.lookup key with
    | none =>
      simp only [there] at after
      cases after
    | some value =>
      simp only [there] at after
      cases read : secretText ns name key value with
      | error e =>
        rw [read] at after
        cases after
      | ok text =>
        rw [read] at after
        obtain rfl : text = s := Option.some.inj (Except.ok.inj after)
        obtain ⟨text, decoded, trimmed⟩ := secretText_ok read
        exact ⟨value, text, shown.trans there, decoded, trimmed⟩

end Gatehouse.Cluster
