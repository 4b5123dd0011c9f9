import Gatehouse.Proofs.Text.Pieces

/-!
# Lines

Lines are the pieces of a text between line feeds, each without a carriage return at its end, and
without an empty piece after the last line feed (`lines_append`). What does not depend on carriage
returns, and is not found in empty lines, can be looked for among the pieces
(`filterMap_terminated`) and counted there (`countP_lines`).
-/

namespace Gatehouse.Text

variable {line rest s : List Char} {ls : List (List Char)} {p : List Char → Bool}

theorem lines_append (whole : ∀ c ∈ line, (c == '\n') = false) :
    lines (line ++ '\n' :: rest) = dropReturn line :: lines rest := by
  unfold lines splitOn
  rw [splitWhere_append whole rfl]
  cases split : splitWhere (· == '\n') rest with
  | nil => exact absurd split (splitWhere_ne_nil rest)
  | cons piece more => rfl

/-- The text of some lines with line feeds between them, or with one after each of them. -/
inductive Joined (ls : List (List Char)) : List Char → Prop
  | between : Joined ls (List.intercalate ['\n'] ls)
  | ended : Joined ls (ls.flatMap (· ++ ['\n']))

theorem splitOn_intercalate (whole : ∀ line ∈ ls, '\n' ∉ line) (filled : ls ≠ []) :
    splitOn '\n' (List.intercalate ['\n'] ls) = ls := by
  induction ls with
  | nil => exact absurd rfl filled
  | cons line ls ih =>
    obtain ⟨here, later⟩ := List.forall_mem_cons.mp whole
    cases ls with
    | nil =>
      rw [List.intercalate_singleton]
      exact splitWhere_line (not_cut here)
    | cons next ls =>
      have following := ih later (by simp)
      rw [List.intercalate_cons_cons, List.append_assoc, List.singleton_append]
      unfold splitOn at following ⊢
      rw [splitWhere_append (not_cut here) (by decide), following]

theorem splitOn_ended (whole : ∀ line ∈ ls, '\n' ∉ line) :
    splitOn '\n' (ls.flatMap (· ++ ['\n'])) = ls ++ [[]] := by
  induction ls with
  | nil => rfl
  | cons line ls ih =>
    obtain ⟨here, later⟩ := List.forall_mem_cons.mp whole
    have following := ih later
    rw [List.flatMap_cons, List.append_assoc, List.singleton_append]
    unfold splitOn at following ⊢
    rw [splitWhere_append (not_cut here) (by decide), following, List.cons_append]

theorem filterMap_terminated {α : Type} {f : List Char → Option α}
    (returned : ∀ line, f (dropReturn line) = f line) (empty : f [] = none)
    (ls : List (List Char)) : (terminated ls).filterMap f = ls.filterMap f := by
  induction ls with
  | nil => rfl
  | cons piece more ih =>
    cases more with
    | nil =>
      rw [terminated]
      split
      · rename_i none
        rw [List.isEmpty_iff.mp none]
        simp [empty]
      · rfl
    | cons next more =>
      rw [terminated, List.filterMap_cons, List.filterMap_cons, ih, returned]
      simp

theorem countP_terminated (returned : ∀ line, p (dropReturn line) = p line) (empty : p [] = false)
    (ls : List (List Char)) : (terminated ls).countP p = ls.countP p := by
  let mark (line : List Char) : Option Unit := if p line then some () else none
  have counted (ls : List (List Char)) : ls.countP p = (ls.filterMap mark).length := by
    rw [List.length_filterMap_eq_countP]
    congr 1
    funext line
    cases marked : p line <;> simp [mark, marked]
  rw [counted, counted, filterMap_terminated (by simp [mark, returned]) (by simp [mark, empty])]

/-- The lines of a text with a property are counted as they were written. -/
theorem countP_lines (returned : ∀ line, p (dropReturn line) = p line) (empty : p [] = false)
    (whole : ∀ line ∈ ls, '\n' ∉ line) (joined : Joined ls s) :
    (lines s).countP p = ls.countP p := by
  unfold lines
  rw [countP_terminated returned empty]
  cases joined with
  | between =>
    by_cases filled : ls = []
    · subst filled
      simp [splitOn, splitWhere, empty]
    · rw [splitOn_intercalate whole filled]
  | ended =>
    rw [splitOn_ended whole, List.countP_append]
    simp [empty]

end Gatehouse.Text
