import Gatehouse.Proofs.Cluster.Exchange
import Gatehouse.Proofs.Json.Record

/-!
# Documents that the cluster keeps

The cluster keeps an object as a document and merges the patches that it is sent into it. A patch of
the finalizers puts its own list in the place of the one that is there, whatever that is
(`finalizersOf_finalizersPatch`); a patch of the status leaves it alone.
-/

namespace Gatehouse

open Json Resource

/-- The finalizers that the document of an object lists. Without a list there are none. -/
def Json.finalizersOf (d : Json) : Option (List String) :=
  match member "finalizers" (member "metadata" d) with
  | .null => some []
  | v => list? text? v

theorem Json.mapM_text?_str (fs : List String) : (fs.map Json.str).mapM text? = some fs :=
  mapM_write fun _ _ => rfl

/-- The document of an object lists the finalizers of the object. -/
theorem Resource.finalizersOf_toJsonWith {Spec Status : Type} (kind : Kind)
    (writeSpec : Spec → Json) (writeStatus : Status → Json) (o : Object Spec Status) :
    finalizersOf (o.toJsonWith kind writeSpec writeStatus) = some o.finalizers := by
  have metadata : member "metadata" (o.toJsonWith kind writeSpec writeStatus) =
      o.metadata.toJson := by
    simp [member, membersOf, Object.toJsonWith, List.lookup_cons]
  have listed : member "finalizers" o.metadata.toJson =
      (o.metadata.finalizers.map (Json.list .str)).getD .null := by
    simp [member, membersOf, Metadata.toJson, List.lookup_append, lookup_member?_self,
      lookup_member?_of_ne]
  rw [finalizersOf, metadata, listed]
  unfold Object.finalizers Metadata.finalizerList
  cases o.metadata.finalizers with
  | none => rfl
  | some fs => exact mapM_text?_str fs

namespace Cluster

variable {α : Type}

theorem finalizersOf_finalizersPatch (d : Json) (fs : List String) :
    finalizersOf (mergePatch d (finalizersPatch fs)) = some fs := by
  have listed : member "finalizers"
      (member "metadata" (mergePatch d (finalizersPatch fs))) = Json.list .str fs := by
    rw [finalizersPatch, member_mergePatch, member_mergePatch]
    · rfl
    · exact nofun
    · exact nofun
  rw [finalizersOf, listed]
  exact mapM_text?_str fs

theorem finalizersOf_statusPatch (d status : Json) :
    finalizersOf (mergePatch d (statusPatch status)) = finalizersOf d := by
  rw [finalizersOf, statusPatch, member_mergePatch_of_ne (by decide), finalizersOf]

/-- What a message makes of the document that is kept at a path. -/
def Message.applied (path : String) (d : Json) (m : Message) : Json :=
  if m.method = .patch ∧ (m.path = path ∨ m.path = path ++ "/status") then
    mergePatch d (m.body.getD .null)
  else d

/-- What does not patch leaves all documents alone. -/
theorem applied_unpatching {x : Exchange α} (h : Sends Message.Unpatching x) (path : String)
    (d : Json) (r : Http.Response) : (tried x r).2.foldl (Message.applied path) d = d := by
  have quiet : ∀ m ∈ (tried x r).2, m.Unpatching :=
    h { script := [r] } fun m none => absurd none List.not_mem_nil
  generalize (tried x r).2 = ms at quiet
  induction ms with
  | nil => rfl
  | cons m ms ih =>
    obtain ⟨first, rest⟩ := List.forall_mem_cons.mp quiet
    rw [List.foldl_cons, Message.applied, if_neg fun both => first both.1, ih rest]

/-- A patch is merged into the document that is kept in its place. -/
theorem applied_patched (path : String) (d : Json) (place : Except Control.Error String)
    (o : Except Control.Error Unit) (part : String) (patch : Json) :
    (patched place o part patch).2.foldl (Message.applied path) d = d ∨
      (patched place o part patch).2.foldl (Message.applied path) d = mergePatch d patch := by
  cases place with
  | error e => exact .inl rfl
  | ok p =>
    change Message.applied path d (patchMessage p part patch) = d ∨
      Message.applied path d (patchMessage p part patch) = mergePatch d patch
    unfold Message.applied
    split
    · exact .inr rfl
    · exact .inl rfl

/-- The patch of an object or of its status that is kept at the path is merged. -/
theorem applied_patched_of_part (path : String) (d : Json) (o : Except Control.Error Unit)
    {part : String} (known : part = "" ∨ part = "/status") (patch : Json) :
    (patched (.ok path) o part patch).2.foldl (Message.applied path) d = mergePatch d patch := by
  change Message.applied path d (patchMessage path part patch) = mergePatch d patch
  have meant : path ++ part = path ∨ path ++ part = path ++ "/status" := by
    rcases known with rfl | rfl
    · exact .inl String.append_empty
    · exact .inr rfl
  rw [Message.applied, if_pos ⟨rfl, meant⟩]
  rfl

theorem applied_patched_self (path : String) (d : Json) (o : Except Control.Error Unit)
    (patch : Json) :
    (patched (.ok path) o "" patch).2.foldl (Message.applied path) d = mergePatch d patch :=
  applied_patched_of_part path d o (.inl rfl) patch

/-- The finalizers that a request is to give to an object. -/
def Query.finalizers? : Query → Option (List String)
  | .patchJobFinalizers _ fs | .patchConfigFinalizers _ fs => some fs
  | _ => none

/-- Only requests to change finalizers do so. -/
theorem finalizersOf_exchange (path : String) (d : Json) (q : Query) (r : Http.Response) :
    finalizersOf ((exchange q r).2.foldl (Message.applied path) d) = finalizersOf d ∨
      ∃ fs, q.finalizers? = some fs ∧
        finalizersOf ((exchange q r).2.foldl (Message.applied path) d) = some fs := by
  -- A request patches nothing, or it patches finalizers, or it patches a status.
  have quiet {α : Type} {x : Exchange α} (h : Sends Message.Unpatching x) :
      finalizersOf ((tried x r).2.foldl (Message.applied path) d) = finalizersOf d := by
    rw [applied_unpatching h]
  have given (place o) (fs : List String) :
      finalizersOf ((patched place o "" (finalizersPatch fs)).2.foldl (Message.applied path) d) =
          finalizersOf d ∨
        finalizersOf ((patched place o "" (finalizersPatch fs)).2.foldl (Message.applied path) d) =
          some fs := by
    rcases applied_patched path d place o "" (finalizersPatch fs) with same | merged
    · exact .inl (by rw [same])
    · exact .inr (by rw [merged, finalizersOf_finalizersPatch])
  have aside (place o) (status : Json) :
      finalizersOf
          ((patched place o "/status" (statusPatch status)).2.foldl (Message.applied path) d) =
        finalizersOf d := by
    rcases applied_patched path d place o "/status" (statusPatch status) with same | merged
    · rw [same]
    · rw [merged, finalizersOf_statusPatch]
  cases q with
  | getConfig ns name => exact .inl (quiet unpatching_getObject)
  | getRun ns name => exact .inl (quiet unpatching_getObject)
  | readSecret ns name key => exact .inl (quiet unpatching_readSecretKey)
  | createRun run =>
    exact .inl (quiet ((sends_lift _).andThen fun _ =>
      unpatching_createObject.andThen fun _ => sends_pure ()))
  | createJob job => exact .inl (quiet ((sends_lift _).andThen fun _ => unpatching_createObject))
  | patchJobFinalizers job fs =>
    rw [exchange_patchJobFinalizers]
    exact (given _ _ fs).imp_right fun listed => ⟨fs, rfl, listed⟩
  | patchConfigFinalizers config fs =>
    rw [exchange_patchConfigFinalizers]
    exact (given _ _ fs).imp_right fun listed => ⟨fs, rfl, listed⟩
  | patchJobStatus job status =>
    rw [exchange_patchJobStatus]
    exact .inl (aside _ _ _)
  | patchConfigStatus config status =>
    rw [exchange_patchConfigStatus]
    exact .inl (aside _ _ _)

end Cluster

end Gatehouse
