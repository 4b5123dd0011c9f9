import Gatehouse.Resource.Metadata

/-!
# One finalizer among others

A reconciler keeps a finalizer of its own on the objects that it looks after, until they are
deleted. `dueFinalizers` is the list that it wants an object to have. It differs from the list that
the object has in one entry at most, so the finalizers of others (`foreign`) keep their places
(`foreign_dueFinalizers`).
-/

namespace Gatehouse.Resource

variable {Spec Status : Type} {own f : String} {fs : List String} {o : Object Spec Status}

/-- The finalizers of others, in order. -/
def foreign (own : String) (fs : List String) : List String := fs.filter (· ≠ own)

@[simp] theorem mem_foreign : f ∈ foreign own fs ↔ f ∈ fs ∧ f ≠ own := by
  simp [foreign]

/-- The finalizers that an object is to have for a reconciler whose finalizer is `own`. -/
def Object.dueFinalizers (own : String) (o : Object Spec Status) : List String :=
  if o.isDeleting then o.finalizers.erase own
  else if own ∈ o.finalizers then o.finalizers
  else o.finalizers ++ [own]

namespace Object

theorem dueFinalizers_deleted (deleting : o.isDeleting = true) :
    o.dueFinalizers own = o.finalizers.erase own := by
  rw [dueFinalizers, if_pos deleting]

theorem dueFinalizers_new (alive : o.isDeleting = false) (new : own ∉ o.finalizers) :
    o.dueFinalizers own = o.finalizers ++ [own] := by
  rw [dueFinalizers, alive, if_neg Bool.false_ne_true, if_neg new]

theorem dueFinalizers_kept (alive : o.isDeleting = false) (kept : own ∈ o.finalizers) :
    o.dueFinalizers own = o.finalizers := by
  rw [dueFinalizers, alive, if_neg Bool.false_ne_true, if_pos kept]

theorem dueFinalizers_left (deleting : o.isDeleting = true) (gone : own ∉ o.finalizers) :
    o.dueFinalizers own = o.finalizers := by
  rw [dueFinalizers_deleted deleting, List.erase_of_not_mem gone]

/-- There is something to change in a new object and in a deleted one that still has the finalizer.
-/
theorem dueFinalizers_ne (due : own ∈ o.finalizers ↔ o.isDeleting = true) :
    o.dueFinalizers own ≠ o.finalizers := by
  intro same
  have length := congrArg List.length same
  cases deleting : o.isDeleting with
  | true =>
    have there : own ∈ o.finalizers := due.mpr deleting
    have positive := List.length_pos_of_mem there
    rw [dueFinalizers_deleted deleting, List.length_erase_of_mem there] at length
    omega
  | false =>
    have new : own ∉ o.finalizers := fun there => by
      rw [due.mp there] at deleting
      cases deleting
    rw [dueFinalizers_new deleting new, List.length_append, List.length_singleton] at length
    omega

theorem foreign_dueFinalizers (own : String) (o : Object Spec Status) :
    foreign own (o.dueFinalizers own) = foreign own o.finalizers := by
  have aside : own ∉ foreign own o.finalizers := by simp
  unfold dueFinalizers
  split
  · rw [foreign, ← List.erase_filter]
    exact List.erase_of_not_mem aside
  split
  · rfl
  · simp [foreign]

/-- If the finalizer is not there more than once, then afterwards it is there as it should be. -/
theorem count_dueFinalizers (once : o.finalizers.count own ≤ 1) :
    (o.dueFinalizers own).count own = if o.isDeleting then 0 else 1 := by
  unfold dueFinalizers
  split
  · rw [List.count_erase_self]
    omega
  split
  · rename_i there
    have positive := List.count_pos_iff.mpr there
    omega
  · rename_i new
    rw [List.count_append, List.count_eq_zero.mpr new, List.count_singleton_self]

end Object

end Gatehouse.Resource
