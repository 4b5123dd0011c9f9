import Gatehouse.Proofs.Text.Pieces
import Mathlib.Data.List.Infix

/-!
# Where a text occurs

A text is cut where a mark occurs first. So it can be cut exactly if the mark occurs in it
(`contains_iff`), and the cut is at a given occurrence if the mark does not end any sooner
(`cut_first`). A mark with a blank in it does not occur across a blank of the text that something else
stands before (`infix_past`).
-/

namespace Gatehouse.Text

variable {mark before rest s : List Char}

theorem contains_iff : contains mark s = true ↔ mark <:+: s := by
  unfold contains
  induction s with
  | nil =>
    rw [cut, List.infix_nil]
    by_cases empty : mark = []
    · simp [empty]
    · simp [empty]
  | cons c s ih =>
    rw [cut, List.infix_cons_iff]
    by_cases here : mark.isPrefixOf (c :: s) = true
    · simp [here, List.isPrefixOf_iff_prefix.mp here]
    · have later : ¬ mark <+: c :: s := fun starts => here (List.isPrefixOf_iff_prefix.mpr starts)
      rw [if_neg here, Option.isSome_map, ih]
      simp [later]

theorem cut_eq_none (missing : ¬ mark <:+: s) : cut mark s = none := by
  cases found : cut mark s with
  | none => rfl
  | some parts =>
    have occurs : contains mark s = true := by
      unfold contains
      rw [found]
      rfl
    exact absurd (contains_iff.mp occurs) missing

/-- Where a text is cut, the mark stands, and the text is cut there whatever comes behind. -/
theorem cut_found (occurs : mark <:+: s) :
    ∃ before rest, s = before ++ mark ++ rest ∧
      ∀ more, cut mark (s ++ more) = some (before, rest ++ more) := by
  induction s with
  | nil =>
    obtain rfl := List.infix_nil.mp occurs
    refine ⟨[], [], rfl, fun more => ?_⟩
    cases more <;> simp [cut]
  | cons c s ih =>
    by_cases here : mark <+: c :: s
    · obtain ⟨rest, whole⟩ := here
      refine ⟨[], rest, whole.symm, fun more => ?_⟩
      rw [← whole, List.append_assoc]
      cases mark with
      | nil => cases rest ++ more <;> simp [cut]
      | cons m mark => simp [cut]
    · obtain ⟨before, rest, rfl, cuts⟩ := ih ((List.infix_cons_iff.mp occurs).resolve_left here)
      refine ⟨c :: before, rest, rfl, fun more => ?_⟩
      have short : mark.length ≤ (c :: (before ++ mark ++ rest)).length := by
        simp
        omega
      have tested : ¬ mark.isPrefixOf (c :: (before ++ mark ++ rest ++ more)) = true := by
        intro starts
        have longer := List.isPrefixOf_iff_prefix.mp starts
        exact here (List.prefix_of_prefix_length_le longer (List.prefix_append _ more) short)
      rw [List.cons_append, cut, if_neg tested, cuts more]
      rfl

/-- A mark that ends no sooner is where the text is cut. -/
theorem cut_first (alone : ¬ mark <:+: before ++ mark.dropLast) :
    cut mark (before ++ mark ++ rest) = some (before, rest) := by
  induction before with
  | nil =>
    cases mark with
    | nil => simp at alone
    | cons m mark => simp [cut]
  | cons c before ih =>
    have later : ¬ mark <:+: before ++ mark.dropLast := by
      intro occurs
      apply alone
      exact List.infix_cons_iff.mpr (.inr occurs)
    -- An occurrence at the front would end before the last character of the given one.
    have notHere : ¬ mark <+: c :: (before ++ mark ++ rest) := by
      intro starts
      apply alone
      have sooner : c :: before ++ mark.dropLast <+: c :: (before ++ mark ++ rest) := by
        rw [List.cons_append, List.append_assoc]
        refine List.cons_prefix_cons.mpr ⟨rfl, (List.prefix_append_right_inj before).mpr ?_⟩
        exact (List.dropLast_prefix mark).trans (List.prefix_append mark rest)
      refine (List.prefix_of_prefix_length_le starts sooner ?_).isInfix
      simp
      omega
    have tested : ¬ mark.isPrefixOf (c :: (before ++ mark ++ rest)) = true := by
      intro starts
      exact notHere (List.isPrefixOf_iff_prefix.mp starts)
    rw [List.cons_append, List.cons_append, cut, if_neg tested, ih later]
    rfl

theorem eq_of_front {front back rest : List Char} {c : Char} (alone : c ∉ front) (solid : c ∉ s)
    (starts : front ++ c :: back <+: s ++ c :: rest) : front = s := by
  obtain ⟨more, same⟩ := starts
  have upTo (t rest : List Char) : (t ++ c :: rest).takeWhile (· != c) = t.takeWhile (· != c) :=
    takeWhile_front (by simp) t rest
  have first := congrArg (List.takeWhile (· != c)) same
  rwa [List.append_assoc, List.cons_append, upTo, upTo, takeWhile_missing alone,
    takeWhile_missing solid] at first

/-- What a mark has before its first blank, say, is not at the end of a text without blanks: then the
mark does not begin before the blank behind that text. -/
theorem infix_past {front back rest : List Char} {c : Char} (alone : c ∉ front) (solid : c ∉ s)
    (other : ¬ front <:+ s) :
    front ++ c :: back <:+: s ++ c :: rest ↔ front ++ c :: back <:+: rest := by
  have notHere {t : List Char} (solid : c ∉ t) (other : ¬ front <:+ t) :
      ¬ front ++ c :: back <+: t ++ c :: rest := fun starts =>
    other (eq_of_front alone solid starts ▸ List.suffix_rfl)
  induction s with
  | nil => exact List.infix_cons_iff.trans (or_iff_right (notHere solid other))
  | cons d s ih =>
    have later : ¬ front <:+ s := fun ends => other (ends.trans (List.suffix_cons d s))
    have here := notHere solid other
    rw [List.cons_append] at here ⊢
    rw [List.infix_cons_iff, or_iff_right here]
    exact ih (fun member => solid (List.mem_cons_of_mem d member)) later

end Gatehouse.Text
