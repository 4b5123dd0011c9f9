import Gatehouse.Git.Basic

/-!
# The newest first

`newestFirst` is a stable sort: putting one more comment in front of a list leaves the others where
they were (`newestFirst_cons`). So it commutes with leaving comments out (`filter_newestFirst`), and
a comment that is newer than all others comes first (`newestFirst_newest`).
-/

namespace Gatehouse.Git

variable {a b c : Comment} {cs : List Comment}

theorem Comment.notOlder_iff :
    a.notOlder b = true ↔ b.createdAt.rank < a.createdAt.rank ∨
      b.createdAt.rank = a.createdAt.rank ∧ b.id ≤ a.id := by
  simp [notOlder]

theorem Comment.notOlder_trans (a b c : Comment) (h : a.notOlder b = true)
    (h' : b.notOlder c = true) : a.notOlder c = true := by
  rw [notOlder_iff] at *
  omega

theorem Comment.notOlder_total (a b : Comment) : (a.notOlder b || b.notOlder a) = true := by
  rw [Bool.or_eq_true, notOlder_iff, notOlder_iff]
  omega

/-- Is a comment strictly newer than another? -/
def Comment.newer (a b : Comment) : Prop := b.notOlder a = false

@[simp] theorem newestFirst_nil : newestFirst [] = [] := List.mergeSort_nil

@[simp] theorem newestFirst_single : newestFirst [c] = [c] := List.mergeSort_singleton ..

theorem pairwise_newestFirst (cs : List Comment) :
    (newestFirst cs).Pairwise fun a b => a.notOlder b = true :=
  List.pairwise_mergeSort Comment.notOlder_trans Comment.notOlder_total cs

/-- One more comment goes behind those that are newer and before all others. -/
theorem newestFirst_cons (c : Comment) (cs : List Comment) :
    ∃ before after, newestFirst (c :: cs) = before ++ c :: after ∧
      newestFirst cs = before ++ after ∧ (∀ b ∈ before, b.newer c) ∧
      ∀ a ∈ after, c.notOlder a = true := by
  obtain ⟨before, after, whole, rest, newer⟩ :=
    List.mergeSort_cons Comment.notOlder_trans Comment.notOlder_total c cs
  refine ⟨before, after, whole, rest, ?_, ?_⟩
  · intro b member
    simpa [Comment.newer] using newer b member
  · have sorted := pairwise_newestFirst (c :: cs)
    rw [show newestFirst (c :: cs) = before ++ c :: after from whole] at sorted
    exact (List.pairwise_cons.mp (List.pairwise_append.mp sorted).2.1).1

theorem division_unique {first second first' second' : List Comment}
    (same : first ++ second = first' ++ second') (newer : ∀ b ∈ first, b.newer c)
    (rest : ∀ a ∈ second, c.notOlder a = true) (newer' : ∀ b ∈ first', b.newer c)
    (rest' : ∀ a ∈ second', c.notOlder a = true) : first = first' ∧ second = second' := by
  -- Were one first part longer, a comment in it would be newer than `c` and also not newer.
  have clash {x : Comment} (h : x.newer c) : ¬ c.notOlder x = true := by
    rw [h]
    exact Bool.false_ne_true
  induction first generalizing first' with
  | nil =>
    cases first' with
    | nil => exact ⟨rfl, same⟩
    | cons x xs =>
      rw [List.nil_append] at same
      have behind : c.notOlder x = true := rest x (by simp [same])
      exact absurd behind (clash (newer' x (by simp)))
  | cons y ys ih =>
    cases first' with
    | nil =>
      rw [List.nil_append] at same
      have behind : c.notOlder y = true := rest' y (by simp [← same])
      exact absurd behind (clash (newer y (by simp)))
    | cons x xs =>
      rw [List.cons_append, List.cons_append, List.cons.injEq] at same
      obtain ⟨rfl, same⟩ := same
      obtain ⟨rfl, tails⟩ := ih same (fun b member => newer b (List.mem_cons_of_mem _ member))
        fun b member => newer' b (List.mem_cons_of_mem _ member)
      exact ⟨rfl, tails⟩

theorem newestFirst_cons_of_division {before after : List Comment}
    (split : newestFirst cs = before ++ after) (newer : ∀ b ∈ before, b.newer c)
    (older : ∀ a ∈ after, c.notOlder a = true) :
    newestFirst (c :: cs) = before ++ c :: after := by
  obtain ⟨before', after', whole, rest, newer', older'⟩ := newestFirst_cons c cs
  obtain ⟨rfl, rfl⟩ := division_unique (split.symm.trans rest) newer older newer' older'
  exact whole

theorem filter_newestFirst (keep : Comment → Bool) (cs : List Comment) :
    (newestFirst cs).filter keep = newestFirst (cs.filter keep) := by
  induction cs with
  | nil => simp
  | cons c cs ih =>
    obtain ⟨before, after, whole, rest, newer, older⟩ := newestFirst_cons c cs
    rw [rest, List.filter_append] at ih
    -- A comment that is kept divides what is kept of the others just as it divides all of them.
    by_cases kept : keep c = true
    · rw [whole, List.filter_append, List.filter_cons_of_pos kept, List.filter_cons_of_pos kept]
      refine (newestFirst_cons_of_division ih.symm ?_ ?_).symm
      · exact fun b member => newer b (List.mem_filter.mp member).1
      · exact fun a member => older a (List.mem_filter.mp member).1
    · rw [whole, List.filter_append, List.filter_cons_of_neg kept, List.filter_cons_of_neg kept,
        ih]

theorem newestFirst_newest (newest : ∀ b ∈ cs, c.newer b) :
    newestFirst (cs ++ [c]) = c :: newestFirst cs := by
  induction cs with
  | nil => simp
  | cons b cs ih =>
    obtain ⟨before, after, whole, rest, newer, older⟩ := newestFirst_cons b cs
    have first := ih fun a member => newest a (List.mem_cons_of_mem b member)
    rw [rest, ← List.cons_append] at first
    rw [List.cons_append, whole, ← List.cons_append]
    refine newestFirst_cons_of_division first ?_ older
    exact List.forall_mem_cons.mpr ⟨newest b (List.mem_cons_self ..), newer⟩

end Gatehouse.Git
