import Gatehouse.Proofs.Cluster.Document
import Gatehouse.Proofs.Control.ConfigCourse
import Gatehouse.Proofs.Control.JobFinalizer

/-!
# Passes over snapshots

A pass works on a snapshot of an object. Its requests are met by the document that the cluster
keeps, and that may be another version. The list of finalizers is computed from the snapshot and
written as a whole, so it takes the place of whatever is stored. The finalizers of others survive
that exactly if the snapshot has the same ones (`foreign_survival`).
-/

namespace Gatehouse.Control

open Program Resource Json

/-- An object as a reconciler got to know it. -/
inductive Snapshot where
  | job (job : PipelineJob)
  | config (config : RepoConfig)

namespace Snapshot

/-- The finalizer of the reconciler. -/
def own : Snapshot → String
  | .job _ => jobFinalizer
  | .config _ => configFinalizer

def finalizers : Snapshot → List String
  | .job o => o.finalizers
  | .config o => o.finalizers

/-- The finalizers that the object is to have. -/
def due : Snapshot → List String
  | .job o => o.dueFinalizers jobFinalizer
  | .config o => o.dueFinalizers configFinalizer

/-- Where the cluster keeps the object. -/
def place : Snapshot → Except Error String
  | .job o => Cluster.placeOf pipelineJobKind o
  | .config o => Cluster.placeOf repoConfigKind o

/-- The events are those of a pass over the snapshot. -/
def Pass : Snapshot → List Event → Prop
  | .job o, es => ∃ hasStore now r, Course (reconcileJob hasStore now o) es r
  | .config o, es => ∃ env now r, Course (reconcileConfig env now o) es r

/-- The object is given the finalizers that are due to it. -/
def given : Snapshot → Event
  | .job o => ⟨.cluster (.patchJobFinalizers o (o.dueFinalizers jobFinalizer)), .ok ()⟩
  | .config o => ⟨.cluster (.patchConfigFinalizers o (o.dueFinalizers configFinalizer)), .ok ()⟩

theorem foreign_due (s : Snapshot) : foreign s.own s.due = foreign s.own s.finalizers := by
  cases s with
  | job o => exact Object.foreign_dueFinalizers jobFinalizer o
  | config o => exact Object.foreign_dueFinalizers configFinalizer o

end Snapshot

/-- A question that is answered with `o` may find the document that the cluster keeps at a path as
`d` and leave it as `d'`. What a request sends has been applied if it succeeds, and may have been
applied if it fails. -/
def Meets (path : String) : (q : Query) → Json → q.Outcome → Json → Prop
  | .cluster q, d, o, d' => ∃ r, o = (Cluster.exchange q r).1 ∧
      (d' = (Cluster.exchange q r).2.foldl (Cluster.Message.applied path) d ∨
        (∃ e, o = .error e) ∧ d' = d)
  | .git _ _, d, _, d' | .notify _, d, _, d' => d' = d

variable {path : String} {d d' : Json} {e : Event} {es : List Event} {s : Snapshot}
  {before fs : List String}

/-! One event, and then many. -/

/-- A document lists other finalizers only where some are written, and then it lists those. -/
theorem finalizersOf_meets (h : Meets path e.1 d e.2 d') :
    finalizersOf d' = finalizersOf d ∨
      ∃ fs, e.finalizerWrite? = some fs ∧ finalizersOf d' = some fs := by
  obtain ⟨q, o⟩ := e
  cases q with
  | git client q | notify job =>
    obtain rfl : d' = d := h
    exact .inl rfl
  | cluster q =>
    obtain ⟨r, -, rfl | ⟨-, rfl⟩⟩ := h
    · refine (Cluster.finalizersOf_exchange path d q r).imp_right ?_
      rintro ⟨fs, asked, listed⟩
      refine ⟨fs, ?_, listed⟩
      cases q <;> exact asked
    · exact .inl rfl

theorem finalizersOf_follows (h : Follows (Meets path) d es d') :
    finalizersOf d' = finalizersOf d ∨ ∃ fs ∈ finalizerWrites es, finalizersOf d' = some fs := by
  induction h with
  | nil d => exact .inl rfl
  | @cons q o d d' d'' es met rest ih =>
    have split : finalizerWrites (⟨q, o⟩ :: es) = finalizerWrites [⟨q, o⟩] ++ finalizerWrites es :=
      finalizerWrites_append [⟨q, o⟩] es
    rw [split]
    rcases ih with same | ⟨fs, member, listed⟩
    · rw [same]
      refine (finalizersOf_meets (e := ⟨q, o⟩) met).imp_right ?_
      rintro ⟨fs, written, listed⟩
      have member : fs ∈ finalizerWrites [⟨q, o⟩] :=
        List.mem_filterMap.mpr ⟨⟨q, o⟩, List.mem_singleton_self _, written⟩
      exact ⟨fs, List.mem_append_left _ member, listed⟩
    · exact .inr ⟨fs, List.mem_append_right _ member, listed⟩

/-- Finalizers that the cluster says it gave to an object are in its document. -/
theorem finalizersOf_given (stored : s.place = .ok path)
    (h : Meets path s.given.1 d s.given.2 d') : finalizersOf d' = some s.due := by
  cases s with
  | job o =>
    have kept : Cluster.placeOf pipelineJobKind o = .ok path := stored
    obtain ⟨r, answered, rfl | ⟨⟨e, failed⟩, -⟩⟩ := h
    · rw [Cluster.exchange_patchJobFinalizers, kept, Cluster.applied_patched_self,
        Cluster.finalizersOf_finalizersPatch]
      rfl
    · cases failed
  | config o =>
    have kept : Cluster.placeOf repoConfigKind o = .ok path := stored
    obtain ⟨r, answered, rfl | ⟨⟨e, failed⟩, -⟩⟩ := h
    · rw [Cluster.exchange_patchConfigFinalizers, kept, Cluster.applied_patched_self,
        Cluster.finalizersOf_finalizersPatch]
      rfl
    · cases failed

/-- They stay there if no others are written. -/
theorem finalizersOf_follows_given (stored : s.place = .ok path)
    (only : ∀ fs ∈ finalizerWrites es, fs = s.due) (h : Follows (Meets path) d es d')
    (accepted : s.given ∈ es) : finalizersOf d' = some s.due := by
  obtain ⟨first, last, rfl⟩ := List.append_of_mem accepted
  obtain ⟨d₁, -, h⟩ := follows_append.mp h
  obtain ⟨d₂, met, h⟩ := follows_cons.mp h
  have here := finalizersOf_given stored met
  rcases finalizersOf_follows h with same | ⟨fs, member, listed⟩
  · rw [same, here]
  · have written : fs ∈ finalizerWrites (first ++ s.given :: last) := by
      rw [show first ++ s.given :: last = (first ++ [s.given]) ++ last by simp,
        finalizerWrites_append]
      exact List.mem_append_right _ member
    rw [listed, only fs written]

/-! What passes write. -/

theorem finalizerWrites_config {env : Surroundings} {now : Instant} {config : RepoConfig}
    {r : Except Error Schedule} (h : ConfigCourse env now config es r) :
    finalizerWrites es = [] ∨
      finalizerWrites es = [config.dueFinalizers configFinalizer] ∧
        config.dueFinalizers configFinalizer ≠ config.finalizers := by
  cases h with
  | unplaced nowhere => exact .inl rfl
  | left place deleting foreign => exact .inl rfl
  | claimed place alive new o =>
    have changed : config.dueFinalizers configFinalizer ≠ config.finalizers :=
      Object.dueFinalizers_ne (by simp [alive, new])
    refine .inr ⟨?_, changed⟩
    rw [Object.dueFinalizers_new alive new]
    rfl
  | released place deleting own deleted o =>
    have changed : config.dueFinalizers configFinalizer ≠ config.finalizers :=
      Object.dueFinalizers_ne (by simp [deleting, own])
    refine .inr ⟨?_, changed⟩
    rw [finalizerWrites_append, finalizerWrites_aside (course_deleteHooks deleted).1,
      Object.dueFinalizers_deleted deleting]
    rfl
  | upToDate place alive own inspected same =>
    exact .inl (finalizerWrites_aside (aside_inspect inspected))
  | renewed place alive own inspected changed o =>
    refine .inl ?_
    rw [finalizerWrites_append, finalizerWrites_aside (aside_inspect inspected)]
    rfl

/-- A pass writes the finalizers that are due to the snapshot, at most once, and only if the
snapshot has others. -/
theorem finalizerWrites_pass (h : s.Pass es) :
    finalizerWrites es = [] ∨ finalizerWrites es = [s.due] ∧ s.due ≠ s.finalizers := by
  cases s with
  | job o =>
    obtain ⟨hasStore, now, r, course⟩ := h
    have writes := (finalizers_pass (.of_course course)).1
    split at writes
    · exact .inl writes
    · rename_i changed
      exact .inr ⟨writes, changed⟩
  | config o =>
    obtain ⟨env, now, r, course⟩ := h
    exact finalizerWrites_config (.of_course course)

theorem due_of_written (h : s.Pass es) :
    ∀ fs ∈ finalizerWrites es, fs = s.due ∧ s.due ≠ s.finalizers := by
  intro fs member
  rcases finalizerWrites_pass h with nothing | ⟨once, changed⟩
  · rw [nothing] at member
    cases member
  · rw [once] at member
    exact ⟨List.mem_singleton.mp member, changed⟩

/-- However a pass over a snapshot goes, and whatever is stored in its place: afterwards the object
has the finalizers it had or those that are due to the snapshot; these surely if the cluster says
so. The finalizers of others are the same ones as before if nothing has changed, or if the snapshot
has them, and not otherwise. -/
theorem foreign_survival (pass : s.Pass es) (stored : s.place = .ok path)
    (course : Follows (Meets path) d es d') (listed : finalizersOf d = some before) :
    ∃ after, finalizersOf d' = some after ∧
      (after = before ∨ after = s.due ∧ s.due ≠ s.finalizers) ∧
      (s.given ∈ es → after = s.due) ∧
      (foreign s.own after = foreign s.own before ↔
        after = before ∨ foreign s.own s.finalizers = foreign s.own before) ∧
      ((∀ f ≠ s.own, f ∈ after ↔ f ∈ before) ↔
        after = before ∨ ∀ f ≠ s.own, f ∈ s.finalizers ↔ f ∈ before) := by
  have written := due_of_written pass
  obtain ⟨after, now, which⟩ : ∃ after, finalizersOf d' = some after ∧
      (after = before ∨ after = s.due ∧ s.due ≠ s.finalizers) := by
    rcases finalizersOf_follows course with same | ⟨fs, member, now⟩
    · exact ⟨before, same.trans listed, .inl rfl⟩
    · exact ⟨fs, now, .inr (written fs member)⟩
  -- What holds of the finalizers before and cannot tell those due from the snapshot's.
  have kept (R : List String → Prop) (first : R before) (blind : R s.due ↔ R s.finalizers) :
      R after ↔ after = before ∨ R s.finalizers := by
    rcases which with rfl | ⟨rfl, -⟩
    · exact iff_of_true first (.inl rfl)
    · refine ⟨fun still => .inr (blind.mp still), ?_⟩
      rintro (same | still)
      · rw [same]
        exact first
      · exact blind.mpr still
  refine ⟨after, now, which, ?_, kept (fun fs => foreign s.own fs = foreign s.own before) rfl ?_,
    kept (fun fs => ∀ f ≠ s.own, f ∈ fs ↔ f ∈ before) (fun f other => Iff.rfl) ?_⟩
  · intro accepted
    have only : ∀ fs ∈ finalizerWrites es, fs = s.due := fun fs member => (written fs member).1
    exact Option.some.inj (now.symm.trans (finalizersOf_follows_given stored only course accepted))
  · rw [s.foreign_due]
  · have same (f : String) (other : f ≠ s.own) : f ∈ s.due ↔ f ∈ s.finalizers := by
      simpa [other] using congrArg (f ∈ ·) s.foreign_due
    exact forall₂_congr fun f other => by rw [same f other]

/-- How the cluster answers when it has patched a job. -/
def patchedAnswer : Http.Response where
  status := 200
  body := "\x7b\"metadata\": \x7b\x7d, \"spec\": \x7b\"configRef\": \x7b\"name\": \"repo\"\x7d, " ++
    "\"refs\": \x7b\"repository\": \"org/repo\", \"ref\": \"main\", \"sha\": \"\"\x7d\x7d\x7d"

theorem readPatched_patchedAnswer :
    Cluster.readPatched PipelineJob.ofJson? patchedAnswer = .ok () := by decide +kernel

/-- Answered like that, the due finalizers of a job are merged into its document. -/
theorem meets_given {job : PipelineJob} (stored : (Snapshot.job job).place = .ok path) :
    Meets path (Snapshot.job job).given.1 d (Snapshot.job job).given.2
      (mergePatch d (Cluster.finalizersPatch (job.dueFinalizers jobFinalizer))) := by
  have kept : Cluster.placeOf pipelineJobKind job = .ok path := stored
  refine ⟨patchedAnswer, ?_, .inl ?_⟩
  · rw [Cluster.exchange_patchJobFinalizers, kept, readPatched_patchedAnswer]
    rfl
  · rw [Cluster.exchange_patchJobFinalizers, kept, Cluster.applied_patched_self]

theorem foreign_survival_doomed :
    (Snapshot.job doomedBuild).place = .ok "/apis/prflow.dev/v1/namespaces/ci/pipelinejobs/a" ∧
    finalizersOf (PipelineJob.toJson doomedBuild) =
      some ["example.com/before", jobFinalizer, "example.com/after"] ∧
    ∃ es d', (Snapshot.job doomedBuild).Pass es ∧
      Follows (Meets "/apis/prflow.dev/v1/namespaces/ci/pipelinejobs/a")
        (PipelineJob.toJson doomedBuild) es d' ∧
      finalizersOf d' = some ["example.com/before", "example.com/after"] := by
  have stored : (Snapshot.job doomedBuild).place =
      .ok "/apis/prflow.dev/v1/namespaces/ci/pipelinejobs/a" := rfl
  have listed : finalizersOf (PipelineJob.toJson doomedBuild) =
      some ["example.com/before", jobFinalizer, "example.com/after"] :=
    finalizersOf_toJsonWith ..
  have pass : (Snapshot.job doomedBuild).Pass
      [⟨.notify doomedBuild, ()⟩, (Snapshot.job doomedBuild).given] :=
    ⟨false, default, _, .ask _ _ (.ask _ _ (.done _))⟩
  have told : Meets "/apis/prflow.dev/v1/namespaces/ci/pipelinejobs/a" (.notify doomedBuild)
      (PipelineJob.toJson doomedBuild) () (PipelineJob.toJson doomedBuild) := rfl
  have course := Follows.cons told (.cons (meets_given stored) (.nil _))
  obtain ⟨after, now, -, taken, -⟩ := foreign_survival pass stored course listed
  obtain rfl := taken (List.mem_cons_of_mem _ (List.mem_singleton_self _))
  exact ⟨stored, listed, _, _, pass, course, now⟩

/-- The version of a build that a reconciler knows. Someone has let go of it since, and someone else
has taken hold of it. -/
def staleBuild : PipelineJob := waitingBuild.withFinalizers ["example.com/gone"]

/-- The version that is stored. -/
def currentBuild : PipelineJob := waitingBuild.withFinalizers ["example.com/keep"]

/-- A pass over the version that is known loses one finalizer of others and brings another back. -/
theorem foreign_finalizers_replaced :
    ∃ es d', (Snapshot.job staleBuild).Pass es ∧
      Follows (Meets "/apis/prflow.dev/v1/namespaces/ci/pipelinejobs/a")
        (PipelineJob.toJson currentBuild) es d' ∧
      finalizersOf (PipelineJob.toJson currentBuild) = some ["example.com/keep"] ∧
      finalizersOf d' = some ["example.com/gone", jobFinalizer] := by
  have stored : (Snapshot.job staleBuild).place =
      .ok "/apis/prflow.dev/v1/namespaces/ci/pipelinejobs/a" := rfl
  exact ⟨[(Snapshot.job staleBuild).given], _, ⟨false, default, _, .ask _ _ (.done _)⟩,
    .cons (meets_given stored) (.nil _), finalizersOf_toJsonWith ..,
    Cluster.finalizersOf_finalizersPatch _ _⟩

end Gatehouse.Control
