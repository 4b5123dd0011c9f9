import Mathlib.Data.List.TakeWhile
import Gatehouse.Proofs.Text.Pieces

/-!
# Words and the blanks around them

A text is what trimming leaves of it, with what was cut around that (`trimWhere_parts`). The words of a
text are those that were written in it, each behind some blanks (`words_spaced`), and every text
that starts with a blank was written so (`exists_spaced`).
-/

namespace Gatehouse.Text

variable {p : Char → Bool} {s rest trail gap word : List Char}

/-- Trimming takes off nothing but what is to be cut. -/
theorem trimWhere_parts (p : Char → Bool) (s : List Char) :
    ∃ lead trail, s = lead ++ trimWhere p s ++ trail ∧ (∀ c ∈ lead, p c = true) ∧
      ∀ c ∈ trail, p c = true := by
  refine ⟨s.takeWhile p, ((s.dropWhile p).reverse.takeWhile p).reverse, ?_,
    fun c => List.mem_takeWhile_imp, fun c member =>
      List.mem_takeWhile_imp (List.mem_reverse.mp member)⟩
  rw [trimWhere, List.append_assoc, ← List.reverse_append, List.takeWhile_append_dropWhile,
    List.reverse_reverse, List.takeWhile_append_dropWhile]

/-! Words. -/

theorem words_blanks (blank : ∀ c ∈ gap, isBlank c = true) (s : List Char) :
    words (gap ++ s) = words s := by
  induction gap with
  | nil => rfl
  | cons c gap ih =>
    obtain ⟨here, later⟩ := List.forall_mem_cons.mp blank
    rw [List.cons_append, words, splitWhere, if_pos here, List.filter_cons_of_neg (by simp),
      ← words, ih later]

/-- Does the text end here, or go on with a blank? -/
def EndsWord (s : List Char) : Prop := ∀ c ∈ s.head?, isBlank c = true

theorem words_word (filled : word ≠ []) (solid : ∀ c ∈ word, isBlank c = false)
    (ends : EndsWord rest) : words (word ++ rest) = word :: words rest := by
  have kept : (!word.isEmpty) = true := by simpa using filled
  cases rest with
  | nil =>
    rw [List.append_nil, words, splitWhere_line solid]
    simp [words, splitWhere, filled]
  | cons b rest =>
    have blank : isBlank b = true := ends b rfl
    have behind : words ([b] ++ rest) = words rest := words_blanks (by simpa) rest
    rw [words, splitWhere_append solid blank, List.filter_cons, if_pos kept, ← words, ← behind,
      List.singleton_append]

/-- A word as it is written behind another one. -/
structure SpacedWord where
  gap : List Char
  word : List Char
  gap_ne_nil : gap ≠ []
  gap_blank : ∀ c ∈ gap, isBlank c = true
  word_ne_nil : word ≠ []
  word_solid : ∀ c ∈ word, isBlank c = false

/-- Words as they are written one behind the other. -/
def spaced (ws : List SpacedWord) : List Char := ws.flatMap fun w => w.gap ++ w.word

theorem spaced_cons (w : SpacedWord) (ws : List SpacedWord) (s : List Char) :
    spaced (w :: ws) ++ s = w.gap ++ (w.word ++ (spaced ws ++ s)) := by
  simp [spaced]

theorem endsWord_spaced (ws : List SpacedWord) (blank : ∀ c ∈ trail, isBlank c = true) :
    EndsWord (spaced ws ++ trail) := by
  intro c front
  cases ws with
  | nil => exact blank c (List.mem_of_head? front)
  | cons w ws =>
    rw [spaced_cons, List.head?_append, Option.or_of_isSome (by simp [w.gap_ne_nil])] at front
    exact w.gap_blank c (List.mem_of_head? front)

theorem words_spaced (ws : List SpacedWord) (blank : ∀ c ∈ trail, isBlank c = true) :
    words (spaced ws ++ trail) = ws.map SpacedWord.word := by
  induction ws with
  | nil =>
    have nothing := words_blanks blank []
    rwa [List.append_nil] at nothing
  | cons w ws ih =>
    rw [spaced_cons, words_blanks w.gap_blank,
      words_word w.word_ne_nil w.word_solid (endsWord_spaced ws blank), ih, List.map_cons]

/-- Words end with what is not blank. -/
theorem getLast?_spaced (solid : ∀ c ∈ word, isBlank c = false) (ws : List SpacedWord) :
    ∀ c ∈ (word ++ spaced ws).getLast?, isBlank c = false := by
  induction ws generalizing word with
  | nil =>
    intro c last
    exact solid c (List.mem_of_getLast? (by simpa [spaced] using last))
  | cons w ws ih =>
    intro c last
    have filled : (w.word ++ spaced ws).getLast?.isSome := by simp [w.word_ne_nil]
    have whole : word ++ spaced (w :: ws) = (word ++ w.gap) ++ (w.word ++ spaced ws) := by
      simp [spaced]
    rw [whole, List.getLast?_append, Option.or_of_isSome filled] at last
    exact ih w.word_solid c last

/-- A text starts with a run of what is asked for, which goes on as long as it can. -/
theorem exists_run (p : Char → Bool) (s : List Char) :
    ∃ run rest, s = run ++ rest ∧ (∀ c ∈ run, p c = true) ∧ ∀ c ∈ rest.head?, p c = false := by
  refine ⟨s.takeWhile p, s.dropWhile p, List.takeWhile_append_dropWhile.symm,
    fun c => List.mem_takeWhile_imp, fun c front => ?_⟩
  have stops := List.head?_dropWhile_not p s
  rwa [Option.mem_def.mp front] at stops

/-- Every text that starts with a blank, if with anything, is words behind blanks. -/
theorem exists_spaced (s : List Char) (ends : EndsWord s) :
    ∃ ws trail, s = spaced ws ++ trail ∧ ∀ c ∈ trail, isBlank c = true := by
  obtain ⟨gap, rest, rfl, gapBlank, front⟩ := exists_run isBlank s
  cases rest with
  | nil => exact ⟨[], gap, List.append_nil gap, gapBlank⟩
  | cons c more =>
    have solid : isBlank c = false := front c rfl
    obtain ⟨tail, rest, rfl, tailSolid, stops⟩ := exists_run (! isBlank ·) more
    have gapFilled : gap ≠ [] := by
      rintro rfl
      simp [ends c rfl] at solid
    have wordSolid : ∀ d ∈ c :: tail, isBlank d = false :=
      List.forall_mem_cons.mpr ⟨solid, fun d member => by simpa using tailSolid d member⟩
    obtain ⟨ws, trail, rfl, blank⟩ := exists_spaced rest fun d behind => by
      simpa using stops d behind
    let first : SpacedWord := ⟨gap, c :: tail, gapFilled, gapBlank, by simp, wordSolid⟩
    exact ⟨first :: ws, trail, (spaced_cons first ws trail).symm, blank⟩
termination_by s.length

end Gatehouse.Text
