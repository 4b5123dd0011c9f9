import Gatehouse.Text.Blank
import Mathlib.Data.List.TakeWhile

/-!
# Pieces of texts

How a text is split shows at any one cut: the pieces before it are those of the text before it, and the
same goes for the pieces behind (`splitWhere_cut`). Nothing is in a piece, or left after trimming, that
is not in the text. A character that is kept shields what stands before it from what comes behind.
-/

namespace Gatehouse.Text

variable {p : Char → Bool} {c d : Char} {line rest s : List Char}

theorem splitWhere_ne_nil (s : List Char) : splitWhere p s ≠ [] := by
  cases s with
  | nil => simp [splitWhere]
  | cons c s =>
    rw [splitWhere]
    split
    · simp
    · split <;> simp

/-- The first piece ends where the text is cut first. -/
theorem splitWhere_cons (p : Char → Bool) (s : List Char) :
    ∃ more, splitWhere p s = s.takeWhile (! p ·) :: more := by
  induction s with
  | nil => exact ⟨[], rfl⟩
  | cons c s ih =>
    obtain ⟨more, split⟩ := ih
    cases cut : p c with
    | true => exact ⟨splitWhere p s, by simp [splitWhere, cut]⟩
    | false => exact ⟨more, by simp [splitWhere, cut, split]⟩

theorem splitWhere_cut (cut : p c = true) (first rest : List Char) :
    splitWhere p (first ++ c :: rest) = splitWhere p first ++ splitWhere p rest := by
  induction first with
  | nil => simp [splitWhere, cut]
  | cons d first ih =>
    rw [List.cons_append, splitWhere, ih, splitWhere]
    split
    · rfl
    · obtain ⟨more, split⟩ := splitWhere_cons p first
      rw [split]
      rfl

/-- A text that is cut nowhere is one piece. -/
theorem splitWhere_line (whole : ∀ c ∈ line, p c = false) : splitWhere p line = [line] := by
  induction line with
  | nil => rfl
  | cons c line ih =>
    rw [splitWhere, whole c (List.mem_cons_self ..),
      ih fun c member => whole c (List.mem_cons_of_mem _ member)]
    rfl

theorem splitWhere_append (whole : ∀ c ∈ line, p c = false) (cut : p c = true) :
    splitWhere p (line ++ c :: rest) = line :: splitWhere p rest := by
  rw [splitWhere_cut cut, splitWhere_line whole, List.singleton_append]

theorem mem_of_mem_splitWhere {piece : List Char} (member : piece ∈ splitWhere p s)
    (there : c ∈ piece) : c ∈ s := by
  induction s generalizing piece with
  | nil =>
    obtain rfl := List.mem_singleton.mp member
    cases there
  | cons d s ih =>
    rw [splitWhere] at member
    split at member
    · rcases List.mem_cons.mp member with rfl | member
      · cases there
      · exact List.mem_cons_of_mem d (ih member there)
    · split at member
      · rename_i none
        exact absurd none (splitWhere_ne_nil s)
      · rename_i first more split
        rcases List.mem_cons.mp member with rfl | member
        · rcases List.mem_cons.mp there with rfl | there
          · exact List.mem_cons_self
          · exact List.mem_cons_of_mem d (ih (split ▸ List.mem_cons_self) there)
        · exact List.mem_cons_of_mem d (ih (split ▸ List.mem_cons_of_mem first member) there)

/-- No piece is cut any further. -/
theorem whole_of_mem_splitWhere {piece : List Char} (member : piece ∈ splitWhere p s) :
    ∀ c ∈ piece, p c = false := by
  induction s generalizing piece with
  | nil =>
    obtain rfl := List.mem_singleton.mp member
    exact nofun
  | cons d s ih =>
    rw [splitWhere] at member
    split at member
    · rcases List.mem_cons.mp member with rfl | member
      · exact nofun
      · exact ih member
    · rename_i kept
      obtain ⟨more, split⟩ := splitWhere_cons p s
      rw [split] at ih member
      rcases List.mem_cons.mp member with rfl | member
      · exact List.forall_mem_cons.mpr ⟨by simpa using kept, ih List.mem_cons_self⟩
      · exact ih (List.mem_cons_of_mem _ member)

theorem splitWhere_congr {q : Char → Bool} (same : ∀ c ∈ s, p c = q c) :
    splitWhere p s = splitWhere q s := by
  induction s with
  | nil => rfl
  | cons c s ih =>
    obtain ⟨here, later⟩ := List.forall_mem_cons.mp same
    rw [splitWhere, splitWhere, here, ih later]

/-- What stands before a cut anywhere in a text is in the text before any of its cuts. -/
theorem mem_of_mem_first {first : List Char}
    (member : c ∈ (first ++ d :: rest).takeWhile (! · == d)) : c ∈ first := by
  induction first with
  | nil =>
    rw [List.nil_append, List.takeWhile_cons_of_neg (by simp)] at member
    cases member
  | cons x first ih =>
    rw [List.cons_append, List.takeWhile_cons] at member
    split at member
    · rcases List.mem_cons.mp member with rfl | member
      · exact List.mem_cons_self
      · exact List.mem_cons_of_mem x (ih member)
    · cases member

theorem not_cut (missing : d ∉ s) : ∀ c ∈ s, (c == d) = false := by
  intro c member
  have other : c ≠ d := fun same => missing (same ▸ member)
  simpa using other

/-! Trimming. -/

theorem mem_of_mem_trimWhere (member : c ∈ trimWhere p s) : c ∈ s := by
  unfold trimWhere at member
  have inner := (List.dropWhile_sublist p).mem (List.mem_reverse.mp member)
  exact (List.dropWhile_sublist p).mem (List.mem_reverse.mp inner)

theorem trimWhere_cons (cut : p c = true) (s : List Char) :
    trimWhere p (c :: s) = trimWhere p s := by
  rw [trimWhere, List.dropWhile_cons_of_pos cut, trimWhere]

theorem dropWhile_kept (first : ∀ c ∈ s.head?, p c = false) : s.dropWhile p = s := by
  cases s with
  | nil => rfl
  | cons c s => exact List.dropWhile_cons_of_neg (by simp [first c rfl])

/-- A text that starts and ends with what is kept, if with anything, stays as it is. -/
theorem trimWhere_ends (first : ∀ c ∈ s.head?, p c = false)
    (last : ∀ c ∈ s.getLast?, p c = false) : trimWhere p s = s := by
  have back : ∀ c ∈ s.reverse.head?, p c = false := by rwa [List.head?_reverse]
  rw [trimWhere, dropWhile_kept first, dropWhile_kept back, List.reverse_reverse]

theorem trimWhere_kept (first : p c = false) (last : p d = false) (s : List Char) :
    trimWhere p (c :: (s ++ [d])) = c :: (s ++ [d]) :=
  trimWhere_ends (by simpa using first) (by simpa [List.getLast?_cons] using last)

theorem trimWhere_whole (whole : ∀ c ∈ line, p c = false) : trimWhere p line = line :=
  trimWhere_ends (fun c first => whole c (List.mem_of_head? first))
    fun c last => whole c (List.mem_of_getLast? last)

/-- What is to be cut can be written around a text. -/
theorem trimWhere_around {lead trail : List Char} (front : ∀ c ∈ lead, p c = true)
    (back : ∀ c ∈ trail, p c = true) (s : List Char) :
    trimWhere p (lead ++ s ++ trail) = trimWhere p s := by
  have reversed : ∀ c ∈ trail.reverse, p c = true := fun c member =>
    back c (List.mem_reverse.mp member)
  unfold trimWhere
  rw [List.append_assoc, List.dropWhile_append_of_pos front, List.dropWhile_append]
  split
  · rename_i nothing
    rw [List.isEmpty_iff.mp nothing, ← List.append_nil trail, List.dropWhile_append_of_pos back]
    rfl
  · rw [List.reverse_append, List.dropWhile_append_of_pos reversed]

/-- Between two characters to cut, a text without any stays as it is. -/
theorem trimWhere_between (first : p c = true) (last : p d = true)
    (whole : ∀ x ∈ line, p x = false) : trimWhere p (c :: (line ++ [d])) = line := by
  have front : ∀ x ∈ [c], p x = true := by simpa
  have back : ∀ x ∈ [d], p x = true := by simpa
  calc trimWhere p (c :: (line ++ [d])) = trimWhere p ([c] ++ line ++ [d]) := by simp
    _ = trimWhere p line := trimWhere_around front back line
    _ = line := trimWhere_whole whole

theorem trim_cons (line : List Char) (solid : isBlank c = false) :
    ∃ tail, trim (c :: line) = c :: tail := by
  refine ⟨(line.reverse.dropWhile isBlank).reverse, ?_⟩
  unfold trim trimWhere
  rw [List.dropWhile_cons_of_neg (by simp [solid]), List.reverse_cons, List.dropWhile_append]
  split
  · rename_i blank
    rw [List.isEmpty_iff.mp blank, List.dropWhile_cons_of_neg (by simp [solid])]
    rfl
  · rw [List.reverse_append]
    rfl

/-- Up to a character that is kept, what is cut off the front does not depend on what comes after. -/
theorem dropWhile_front (kept : p d = false) (s : List Char) :
    ∃ front, ∀ rest, (s ++ d :: rest).dropWhile p = front ++ d :: rest := by
  induction s with
  | nil => exact ⟨[], fun rest => List.dropWhile_cons_of_neg (by simp [kept])⟩
  | cons c s ih =>
    cases cut : p c with
    | true =>
      obtain ⟨front, drop⟩ := ih
      refine ⟨front, fun rest => ?_⟩
      rw [List.cons_append, List.dropWhile_cons_of_pos cut, drop]
    | false =>
      exact ⟨c :: s, fun rest => List.dropWhile_cons_of_neg (by simp [cut])⟩

theorem takeWhile_front (cut : p d = false) (s rest : List Char) :
    (s ++ d :: rest).takeWhile p = s.takeWhile p := by
  induction s with
  | nil => exact List.takeWhile_cons_of_neg (by simp [cut])
  | cons c s ih => rw [List.cons_append, List.takeWhile_cons, List.takeWhile_cons, ih]

theorem takeWhile_missing (missing : c ∉ s) : s.takeWhile (· != c) = s :=
  List.takeWhile_eq_self_iff.mpr fun d member => by
    simpa using fun same : d = c => missing (same ▸ member)

/-- Behind a character that is kept, a text of such characters is not trimmed. -/
theorem trimWhere_front (kept : p d = false) (s : List Char) :
    ∃ front, ∀ rest, (∀ c ∈ rest, p c = false) →
      trimWhere p (s ++ d :: rest) = front ++ d :: rest := by
  obtain ⟨front, drop⟩ := dropWhile_front kept s
  refine ⟨front, fun rest whole => ?_⟩
  have back : (rest.reverse ++ d :: front.reverse).dropWhile p =
      rest.reverse ++ d :: front.reverse := by
    cases last : rest.reverse with
    | nil => exact List.dropWhile_cons_of_neg (by simp [kept])
    | cons c more =>
      have member : c ∈ rest := List.mem_reverse.mp (last ▸ List.mem_cons_self)
      exact List.dropWhile_cons_of_neg (by simp [whole c member])
  rw [trimWhere, drop, List.reverse_append, List.reverse_cons, List.append_assoc,
    List.singleton_append, back]
  simp

/-! Cuts. -/

variable {before behind : List Char}

theorem cutAt_append (found : cutAt c s = some (before, behind)) (more : List Char) :
    cutAt c (s ++ more) = some (before, behind ++ more) := by
  induction s generalizing before with
  | nil => cases found
  | cons d s ih =>
    rw [cutAt] at found
    rw [List.cons_append, cutAt]
    split at found
    · rename_i here
      cases found
      rw [if_pos here]
    · rename_i other
      obtain ⟨⟨a, b⟩, later, same⟩ := Option.map_eq_some_iff.mp found
      cases same
      rw [if_neg other, ih later]
      rfl

theorem cutAt_missing (missing : c ∉ s) (more : List Char) :
    cutAt c (s ++ more) = (cutAt c more).map fun (a, b) => (s ++ a, b) := by
  induction s with
  | nil => simp
  | cons d s ih =>
    have other : d ≠ c := fun same => missing (same ▸ List.mem_cons_self)
    rw [List.cons_append, cutAt, if_neg (by simpa using other),
      ih fun later => missing (List.mem_cons_of_mem d later), Option.map_map]
    rfl

theorem dropFront?_eq_some_iff {mark : List Char} :
    dropFront? mark s = some rest ↔ s = mark ++ rest := by
  induction mark generalizing s with
  | nil => simp [dropFront?]
  | cons m mark ih =>
    cases s with
    | nil => simp [dropFront?]
    | cons c s =>
      rw [dropFront?, List.cons_append, List.cons.injEq]
      by_cases here : m = c
      · rw [if_pos here, ih]
        simp [here]
      · rw [if_neg here]
        simp [Ne.symm here]

theorem cutAt_eq_none : cutAt c s = none ↔ c ∉ s := by
  induction s with
  | nil => simp [cutAt]
  | cons d s ih =>
    rw [cutAt, List.mem_cons]
    by_cases here : d = c
    · simp [here]
    · rw [if_neg (by simpa using here), Option.map_eq_none_iff, ih]
      simp [Ne.symm here]

end Gatehouse.Text
