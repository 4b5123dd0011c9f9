import Gatehouse.Proofs.Control.LifeCycle
import Gatehouse.Proofs.Resource.Finalizers

/-!
# The finalizer of a job in the course of time

Whatever fails and wherever it is cut off, a pass asks for the finalizers that are due to its job
and for no others, and the job has these or the ones it had (`finalizers_cut`). So as long as nobody
else writes finalizers, the finalizer comes once, goes once, and never comes back to a job that is
being deleted; and a deleted job without it is out of the hands of all later passes
(`finalizer_custody`).
-/

namespace Gatehouse.Control

open Program Resource

variable {hasStore : Bool} {now : Instant} {job first mid last : PipelineJob}
  {es es' : List Event} {r : Except Error Schedule}

/-- A stored job from one moment to another: what passes over it asked, and how it ended up. A pass
may be cut off at any point. Others may change the job in between, but they neither write its
finalizers nor take back its deletion. -/
inductive Custody (first : PipelineJob) : List Event → PipelineJob → Prop
  | start : Custody first [] first
  | pass {es new rest : List Event} {job : PipelineJob} {r : Except Error Schedule}
      (hasStore : Bool) (now : Instant) :
      Custody first es job → Course (reconcileJob hasStore now job) (new ++ rest) r →
      Custody first (es ++ new) (new.foldl stored job)
  | edit {es : List Event} {job job' : PipelineJob} :
      Custody first es job → job'.finalizers = job.finalizers →
      (job.isDeleting = true → job'.isDeleting = true) → Custody first es job'

/-! One pass. -/

/-- Only what writes finalizers changes them. -/
theorem finalizers_stored (es : List Event) (cur : PipelineJob) :
    (es.foldl stored cur).finalizers = cur.finalizers ∨
      (es.foldl stored cur).finalizers ∈ finalizerWrites es := by
  induction es generalizing cur with
  | nil => exact .inl rfl
  | cons e es ih =>
    rw [List.foldl_cons]
    have further : ∀ fs ∈ finalizerWrites es, fs ∈ finalizerWrites (e :: es) := by
      rw [← List.singleton_append, finalizerWrites_append]
      exact fun fs member => List.mem_append_right _ member
    rcases ih (stored cur e) with same | written
    · rw [same]
      unfold stored
      split
      · exact .inr List.mem_cons_self
      · exact .inl rfl
      · exact .inl rfl
    · exact .inr (further _ written)

theorem isDeleting_stored (es : List Event) (cur : PipelineJob) :
    (es.foldl stored cur).isDeleting = cur.isDeleting := by
  induction es generalizing cur with
  | nil => rfl
  | cons e es ih =>
    rw [List.foldl_cons, ih]
    unfold stored
    split <;> rfl

/-- A pass asks for the finalizers that are due unless the job has them. It leaves the job with
them, or with the ones it had if the cluster refused. -/
theorem finalizers_pass (h : JobCourse hasStore now job es r) :
    finalizerWrites es =
      (if job.dueFinalizers jobFinalizer = job.finalizers then []
        else [job.dueFinalizers jobFinalizer]) ∧
    (es.foldl stored job).finalizers =
      (if finalizerRefusals es = [] then job.dueFinalizers jobFinalizer else job.finalizers) := by
  -- Where nothing is due, nothing is asked for.
  have idle (due : job.dueFinalizers jobFinalizer = job.finalizers)
      (none : finalizerWrites es = []) :
      finalizerWrites es = (if job.dueFinalizers jobFinalizer = job.finalizers then []
        else [job.dueFinalizers jobFinalizer]) ∧
      (es.foldl stored job).finalizers =
        (if finalizerRefusals es = [] then job.dueFinalizers jobFinalizer else job.finalizers) := by
    rw [if_pos due, due, ite_self]
    refine ⟨none, (finalizers_stored es job).resolve_right ?_⟩
    rw [none]
    exact List.not_mem_nil
  cases h with
  | claimed alive new =>
    rw [if_neg (Object.dueFinalizers_ne (by simp [alive, new])), Object.dueFinalizers_new alive new]
    exact ⟨rfl, rfl⟩
  | unclaimed alive new e o =>
    rw [if_neg (Object.dueFinalizers_ne (by simp [alive, new])), Object.dueFinalizers_new alive new]
    exact ⟨rfl, by cases o <;> rfl⟩
  | released deleting own =>
    rw [if_neg (Object.dueFinalizers_ne (by simp [deleting, own])),
      Object.dueFinalizers_deleted deleting]
    exact ⟨rfl, rfl⟩
  | unreleased deleting own e o =>
    rw [if_neg (Object.dueFinalizers_ne (by simp [deleting, own])),
      Object.dueFinalizers_deleted deleting]
    exact ⟨rfl, by cases o <;> rfl⟩
  | left deleting foreign => exact idle (Object.dueFinalizers_left deleting foreign) rfl
  | completed alive own done => exact idle (Object.dueFinalizers_kept alive own) rfl
  | unreflected alive own going failed o =>
    refine idle (Object.dueFinalizers_kept alive own) ?_
    rw [finalizerWrites_append, finalizerWrites_aside (aside_reflect failed)]
    rfl
  | unsaved alive own going reflected e =>
    refine idle (Object.dueFinalizers_kept alive own) ?_
    rw [finalizerWrites_append, finalizerWrites_aside (aside_reflect reflected)]
    rfl
  | @saved alive own going reads report config s reflected reported =>
    refine idle (Object.dueFinalizers_kept alive own) ?_
    have quiet : finalizerWrites report = [] :=
      finalizerWrites_aside (course_reportIfNew reported).1
    have written : finalizerWrites (⟨.cluster (.patchJobStatus job s), .ok ()⟩ :: report) = [] :=
      quiet
    rw [finalizerWrites_append, finalizerWrites_append,
      finalizerWrites_aside (aside_reflect reflected), written]
    rfl

/-- So wherever a pass is cut off, it has asked for no other finalizers than those that are due, and
the job has these or the ones it had. -/
theorem finalizers_cut (h : JobCourse hasStore now job (es ++ es') r) :
    (∀ fs ∈ finalizerWrites es, fs = job.dueFinalizers jobFinalizer) ∧
    ((es.foldl stored job).finalizers = job.finalizers ∨
      (es.foldl stored job).finalizers = job.dueFinalizers jobFinalizer) := by
  have asked : ∀ fs ∈ finalizerWrites es, fs = job.dueFinalizers jobFinalizer := by
    intro fs member
    have due := (finalizers_pass h).1
    have member : fs ∈ finalizerWrites (es ++ es') := by
      rw [finalizerWrites_append]
      exact List.mem_append_left _ member
    rw [due] at member
    split at member
    · cases member
    · exact List.mem_singleton.mp member
  exact ⟨asked, (finalizers_stored es job).imp_right (asked _)⟩

/-- A pass leaves a deleted job without the finalizer alone. -/
theorem silent_pass (h : JobCourse hasStore now job es r) (deleting : job.isDeleting = true)
    (gone : jobFinalizer ∉ job.finalizers) : es = [] := by
  cases h with
  | left deleting foreign => rfl
  | released deleting own | unreleased deleting own => exact absurd own gone
  | claimed alive | unclaimed alive | completed alive | unreflected alive | unsaved alive
  | saved alive => cases deleting.symm.trans alive

/-! Many passes. -/

namespace Custody

theorem isDeleting (h : Custody first es last) (deleting : first.isDeleting = true) :
    last.isDeleting = true := by
  induction h with
  | start => exact deleting
  | pass hasStore now _ course ih => rw [isDeleting_stored, ih]
  | edit _ same kept ih => exact kept ih

theorem foreign_finalizers (h : Custody first es last) :
    foreign jobFinalizer last.finalizers = foreign jobFinalizer first.finalizers := by
  induction h with
  | start => rfl
  | pass hasStore now _ course ih =>
    rcases (finalizers_cut (.of_course course)).2 with same | due
    · rw [same, ih]
    · rw [due, Object.foreign_dueFinalizers, ih]
  | edit _ same kept ih => rw [same, ih]

theorem count_le (h : Custody first es last) (once : first.finalizers.count jobFinalizer ≤ 1) :
    last.finalizers.count jobFinalizer ≤ 1 := by
  induction h with
  | start => exact once
  | pass hasStore now _ course ih =>
    rcases (finalizers_cut (.of_course course)).2 with same | due
    · rw [same]
      exact ih
    · rw [due, Object.count_dueFinalizers ih]
      split <;> omega
  | edit _ same kept ih =>
    rw [same]
    exact ih

/-- Once the job is being deleted, nobody asks for the finalizer any more. -/
theorem unasked (h : Custody first es last) (once : first.finalizers.count jobFinalizer ≤ 1)
    (deleting : first.isDeleting = true) : ∀ fs ∈ finalizerWrites es, jobFinalizer ∉ fs := by
  induction h with
  | start => exact fun fs member => absurd member List.not_mem_nil
  | @pass es new rest job r hasStore now before course ih =>
    have due := Object.count_dueFinalizers (before.count_le once)
    rw [before.isDeleting deleting, if_pos rfl, List.count_eq_zero] at due
    rw [finalizerWrites_append, List.forall_mem_append]
    refine ⟨ih, fun fs member => ?_⟩
    rw [(finalizers_cut (.of_course course)).1 fs member]
    exact due
  | edit _ same kept ih => exact ih

/-- Once the job is being deleted and is without the finalizer, nothing is asked about it. -/
theorem silent (h : Custody first es last) (deleting : first.isDeleting = true)
    (gone : jobFinalizer ∉ first.finalizers) : es = [] ∧ jobFinalizer ∉ last.finalizers := by
  induction h with
  | start => exact ⟨rfl, gone⟩
  | pass hasStore now before course ih =>
    obtain ⟨rfl, still⟩ := ih
    have nothing := silent_pass (.of_course course) (before.isDeleting deleting) still
    obtain ⟨rfl, -⟩ := List.append_eq_nil_iff.mp nothing
    exact ⟨rfl, still⟩
  | edit _ same kept ih =>
    refine ⟨ih.1, ?_⟩
    rw [same]
    exact ih.2

/-- A pass that is run on a world takes the job one step further. -/
theorem reviewed (h : Custody first es job) (failures : List (Cluster.Method × String))
    (run? : Option PipelineRun) :
    ∃ es', Custody first es' (Control.reviewed failures run? job) := by
  obtain ⟨new, r, course, found⟩ := course_perform false default (job_workshop failures run? job)
  have whole : Course (reconcileJob false default job) (new ++ []) r := by
    rwa [List.append_nil]
  refine ⟨es ++ new, ?_⟩
  rw [Control.reviewed, found]
  exact h.pass false default whole

end Custody

/-- At every moment the finalizer is there at most once, if it was so at first, and the finalizers
of others are those from the beginning, in their order. Once the job is being deleted, no pass asks
for the finalizer again, and the first pass whose change of finalizers is not refused takes it off.
Once it is off, later passes ask nothing at all. -/
theorem finalizer_custody (once : first.finalizers.count jobFinalizer ≤ 1)
    (before : Custody first es mid) (after : Custody mid es' last) :
    mid.finalizers.count jobFinalizer ≤ 1 ∧
    foreign jobFinalizer mid.finalizers = foreign jobFinalizer first.finalizers ∧
    (mid.isDeleting = true →
      (∀ fs ∈ finalizerWrites es', jobFinalizer ∉ fs) ∧
      (∀ hasStore now new r, Course (reconcileJob hasStore now mid) new r →
        finalizerRefusals new = [] → jobFinalizer ∉ (new.foldl stored mid).finalizers) ∧
      (jobFinalizer ∉ mid.finalizers → es' = [] ∧ jobFinalizer ∉ last.finalizers)) := by
  have still := before.count_le once
  refine ⟨still, before.foreign_finalizers, fun deleting => ⟨after.unasked still deleting, ?_, ?_⟩⟩
  · intro hasStore now new r course unrefused
    have due := Object.count_dueFinalizers still
    rw [deleting, if_pos rfl, List.count_eq_zero] at due
    rw [(finalizers_pass (.of_course course)).2, if_pos unrefused]
    exact due
  · exact fun gone => after.silent deleting gone

/-- A build that others hold as well. -/
def sharedBuild : PipelineJob :=
  waitingBuild.withFinalizers ["example.com/before", jobFinalizer, "example.com/after"]

/-- Someone deletes it. -/
def doomedBuild : PipelineJob :=
  { sharedBuild with metadata := { sharedBuild.metadata with deletionTimestamp := some default } }

/-- Its finalizers cannot be changed at first. -/
def stuckBuild : PipelineJob := reviewed [(.patchJobFinalizers, "conflict")] none doomedBuild

/-- The next pass changes them. -/
def freedBuild : PipelineJob := reviewed [] none stuckBuild

theorem finalizer_custody_shared :
    sharedBuild.finalizers.count jobFinalizer ≤ 1 ∧
    stuckBuild.finalizers = sharedBuild.finalizers ∧
    freedBuild.isDeleting = true ∧
    freedBuild.finalizers = ["example.com/before", "example.com/after"] ∧
    foreign jobFinalizer freedBuild.finalizers = foreign jobFinalizer sharedBuild.finalizers ∧
    ∃ es, Custody freedBuild es (reviewed [] none freedBuild) ∧ es = [] := by
  have doomed : Custody sharedBuild [] doomedBuild := Custody.start.edit rfl fun _ => rfl
  obtain ⟨_, stuck⟩ := doomed.reviewed [(.patchJobFinalizers, "conflict")] none
  obtain ⟨_, before⟩ := stuck.reviewed [] none
  obtain ⟨es, after⟩ := (@Custody.start freedBuild).reviewed [] none
  obtain ⟨-, others, gone⟩ := finalizer_custody (by decide) before after
  exact ⟨by decide, by decide, by decide, by decide, others, es, after,
    ((gone (by decide)).2.2 (by decide)).1⟩

end Gatehouse.Control
