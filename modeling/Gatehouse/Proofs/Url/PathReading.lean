import Gatehouse.Proofs.Text.Percent
import Gatehouse.Proofs.Url.Appending

/-!
# What paths stand for

A path stands for what its segments do, with a slash before each (`reads_path`). A text behind segments
that are there adds what it stands for itself if none of its own segments is one or two dots
(`renderPath_behind`), however these are written (`percentDecode_dot`). Dots add nothing, and may take
segments away (`length_resolve`), so in no case does the path get longer by more (`length_behind`).
-/

namespace Gatehouse.Url

open Text

variable {c : Char} {s : List Char} {done ss : List (List Char)}

/-! Dots. -/

theorem toLower_cases (c : Char) : c = c.toLower ∨ c = c.toLower.toUpper := by
  by_cases low : c.toNat < 128
  · exact forall_char_lt (P := fun c => c = c.toLower ∨ c = c.toLower.toUpper) (by decide) c low
  · exact .inl (toLower_high (Nat.le_of_not_lt low)).symm

/-- The texts that come to one in small letters. -/
def spellings : List Char → List (List Char)
  | [] => [[]]
  | c :: s => (spellings s).flatMap fun t => [c :: t, c.toUpper :: t]

theorem mem_spellings (s : List Char) : s ∈ spellings (s.map Char.toLower) := by
  induction s with
  | nil => exact List.mem_singleton_self _
  | cons c s ih =>
    refine List.mem_flatMap.mpr ⟨s, ih, ?_⟩
    rcases toLower_cases c with same | same
    · rw [← same]
      exact List.mem_cons_self
    · rw [← same]
      exact List.mem_cons_of_mem _ List.mem_cons_self

theorem percentDecode_dot (dot : isDot s = true) : percentDecode (bytes s) = bytes ['.'] := by
  have all : ∀ d ∈ [['.'], "%2e".toList], ∀ t ∈ spellings d,
      percentDecode (bytes t) = bytes ['.'] := by
    decide
  unfold isDot at dot
  rcases Bool.or_eq_true_iff.mp dot with same | same
  · exact all _ (by simp) s (eq_of_beq same ▸ mem_spellings s)
  · exact all _ (by simp) s (eq_of_beq same ▸ mem_spellings s)

theorem percentDecode_dotDot (dots : isDotDot s = true) :
    percentDecode (bytes s) = bytes ['.', '.'] := by
  have all : ∀ d ∈ ["..", ".%2e", "%2e.", "%2e%2e"], ∀ t ∈ spellings d.toList,
      percentDecode (bytes t) = bytes ['.', '.'] := by
    decide
  obtain ⟨d, member, same⟩ := List.any_eq_true.mp dots
  exact all d member s (eq_of_beq same ▸ mem_spellings s)

theorem hasEscape_piece {p : Char → Bool} (free : hasEscape s = false) :
    ∀ piece ∈ splitWhere p s, hasEscape piece = false := by
  induction s with
  | nil => exact fun piece member => List.mem_singleton.mp member ▸ rfl
  | cons c s ih =>
    obtain ⟨here, later⟩ := Bool.or_eq_false_iff.mp free
    rw [splitWhere]
    split
    · exact List.forall_mem_cons.mpr ⟨rfl, ih later⟩
    · obtain ⟨more, split⟩ := splitWhere_cons p s
      have pieces := ih later
      rw [split] at pieces ⊢
      obtain ⟨first, others⟩ := List.forall_mem_cons.mp pieces
      refine List.forall_mem_cons.mpr ⟨?_, others⟩
      rw [hasEscape, first, Bool.or_false]
      refine Bool.eq_false_iff.mpr fun starts => ?_
      have whole := startsEscape_append starts (s.dropWhile (! p ·))
      rw [List.cons_append, List.takeWhile_append_dropWhile, here] at whole
      cases whole

/-! Segments. -/

theorem keepInPath_digit (digit : isHex c = true) : keepInPath c = true := by
  obtain ⟨n, value⟩ := Option.isSome_iff_exists.mp digit
  exact forall_char_lt (P := fun c => isHex c = true → keepInPath c = true) (by decide) c
    (toNat_lt_of_hexDigit? value) digit

/-- A text stands for the same in a path. -/
theorem reads_inPath (s : List Char) :
    Reads (percentEncode keepInPath s) (percentDecode (bytes s)) :=
  .percentEncode rfl (fun _ => keepInPath_digit) (.total s)

/-- What segments stand for, each with a slash before it. -/
def meaning (ss : List (List Char)) : Bytes := ss.flatMap fun s => 0x2F :: percentDecode (bytes s)

theorem reads_path (ss : List (List Char)) :
    Reads (renderPath (.segments (ss.map (percentEncode keepInPath)))) (meaning ss) := by
  induction ss with
  | nil => exact .nil
  | cons s ss ih =>
    have first : Reads ('/' :: percentEncode keepInPath s) (0x2F :: percentDecode (bytes s)) :=
      .char rfl (reads_inPath s)
    cases ss with
    | nil => simpa [renderPath, meaning] using first
    | cons t ss =>
      obtain ⟨cs, more, rest⟩ := ih.behindSlash
      rw [meaning, List.flatMap_cons, ← meaning, more]
      exact first.slash rest

theorem meaning_append (ss ts : List (List Char)) : meaning (ss ++ ts) = meaning ss ++ meaning ts :=
  List.flatMap_append

theorem length_meaning_cons (s : List Char) (ss : List (List Char)) :
    (meaning (s :: ss)).length = (percentDecode (bytes s)).length + 1 + (meaning ss).length := by
  rw [meaning, List.flatMap_cons, List.length_append, List.length_cons]
  rfl

theorem length_meaning_empty (ss : List (List Char)) :
    (meaning ([] :: ss)).length = (meaning ss).length + 1 := by
  have nothing : percentDecode (bytes []) = [] := rfl
  rw [length_meaning_cons, nothing, List.length_nil, Nat.zero_add, Nat.add_comm]

theorem length_meaning_reverse (ss : List (List Char)) :
    (meaning ss.reverse).length = (meaning ss).length := by
  induction ss with
  | nil => rfl
  | cons s ss ih =>
    have last : (meaning [s]).length = (percentDecode (bytes s)).length + 1 :=
      length_meaning_cons s []
    rw [List.reverse_cons, meaning_append, List.length_append, ih, last, length_meaning_cons]
    omega

theorem length_meaning_drop (ss : List (List Char)) :
    (meaning (ss.drop 1)).length ≤ (meaning ss).length := by
  cases ss with
  | nil => exact Nat.le_refl _
  | cons s ss =>
    rw [List.drop_one, List.tail_cons, length_meaning_cons]
    omega

theorem length_walk (done : List (List Char)) (s : List Char) :
    (meaning (walk done s)).length ≤ (meaning (s :: done)).length := by
  have less := length_meaning_drop done
  have more := length_meaning_cons s done
  unfold walk
  split
  · omega
  split
  · omega
  · exact Nat.le_refl _

/-- Dots take away no less than they bring. -/
theorem length_resolve (done ss : List (List Char)) :
    (meaning (resolve done ss)).length ≤ (meaning done).length + (meaning ss).length := by
  induction ss generalizing done with
  | nil =>
    rw [resolve, length_meaning_reverse]
    exact Nat.le_add_right _ _
  | cons s ss ih =>
    have here := length_meaning_cons s done
    have all := length_meaning_cons s ss
    cases ss with
    | nil =>
      have less := length_meaning_drop done
      have one := length_meaning_empty done
      have two := length_meaning_empty (done.drop 1)
      rw [resolve]
      split
      · rw [length_meaning_reverse]
        omega
      split
      · rw [length_meaning_reverse]
        omega
      · rw [length_meaning_reverse]
        omega
    | cons t ss =>
      have step := length_walk done s
      have rest := ih (walk done s)
      rw [resolve_cons (by simp)]
      omega

/-- Segments that are no dots are there as they are. -/
theorem resolve_plain (plain : ∀ s ∈ ss, isDot s = false ∧ isDotDot s = false) :
    resolve done ss = done.reverse ++ ss := by
  induction ss generalizing done with
  | nil => rw [resolve, List.append_nil]
  | cons s ss ih =>
    obtain ⟨⟨one, two⟩, later⟩ := List.forall_mem_cons.mp plain
    cases ss with
    | nil => simp [resolve, one, two]
    | cons t ss =>
      rw [resolve_cons (by simp), walk, if_neg (by simp [two]), if_neg (by simp [one]), ih later]
      simp

/-! Texts. -/

theorem percentEncode_append (keep : Char → Bool) (s t : List Char) :
    percentEncode keep (s ++ t) = percentEncode keep s ++ percentEncode keep t :=
  List.flatMap_append

theorem renderPath_append (ss ts : List (List Char)) :
    renderPath (.segments (ss ++ ts)) = renderPath (.segments ss) ++ renderPath (.segments ts) :=
  List.flatMap_append

/-- The segments of a text are the text again when they are written down. -/
theorem renderPath_split (straight : '\\' ∉ s) :
    renderPath (.segments ((splitWhere (isSlash true) s).map (percentEncode keepInPath))) =
      '/' :: percentEncode keepInPath s := by
  induction s with
  | nil => rfl
  | cons c s ih =>
    obtain ⟨other, straight⟩ : '\\' ≠ c ∧ '\\' ∉ s := by simpa using straight
    have later := ih straight
    rw [splitWhere]
    split
    · rename_i slash
      obtain rfl : c = '/' := by simpa [isSlash, Ne.symm other] using slash
      rw [List.map_cons, renderPath, List.flatMap_cons, ← renderPath, later]
      rfl
    · obtain ⟨more, split⟩ := splitWhere_cons (isSlash true) s
      rw [split] at later ⊢
      rw [List.map_cons, renderPath, List.flatMap_cons, ← renderPath] at later ⊢
      have first := percentEncode_append keepInPath [c] (s.takeWhile (! isSlash true ·))
      have whole := percentEncode_append keepInPath [c] s
      rw [List.singleton_append] at first whole
      rw [List.cons_append] at later ⊢
      rw [first, whole, ← (List.cons.inj later).2, List.append_assoc]

/-- The text of the path before its last slash. -/
def textOf (done : List (List Char)) : List Char :=
  renderPath (.segments (done.reverse.map (percentEncode keepInPath)))

theorem renderPath_pathBehind_nil (done : List (List Char)) :
    renderPath (pathBehind done []) = textOf done ++ ['/'] := by
  rw [pathBehind, splitWhere, resolve_plain (by decide), List.map_append, renderPath_append, textOf]
  rfl

/-- A text without dots for segments comes behind the path as it is. -/
theorem renderPath_behind (straight : '\\' ∉ s)
    (plain : ∀ t ∈ splitWhere (isSlash true) s, isDot t = false ∧ isDotDot t = false) :
    renderPath (pathBehind done s) =
      renderPath (pathBehind done []) ++ percentEncode keepInPath s := by
  rw [renderPath_pathBehind_nil, pathBehind, resolve_plain plain, List.map_append,
    renderPath_append, renderPath_split straight, textOf, List.append_assoc,
    List.singleton_append]

/-- A path that goes on behind another stands for no more than its text does. -/
theorem length_behind {rest : List Char} (straight : '\\' ∉ s)
    (behind : renderPath (pathBehind done s) = renderPath (pathBehind done []) ++ rest) :
    (percentDecode (bytes rest)).length ≤ (percentDecode (bytes s)).length := by
  rw [renderPath_pathBehind_nil, List.append_assoc, List.singleton_append] at behind
  have path := (reads_path done.reverse).slash (.total rest)
  have whole : meaning (resolve done (splitWhere (isSlash true) s)) =
      meaning done.reverse ++ 0x2F :: percentDecode (bytes rest) := by
    rw [← (reads_path _).decoded, ← path.decoded, ← textOf, ← behind]
    rfl
  have text : meaning (splitWhere (isSlash true) s) = 0x2F :: percentDecode (bytes s) := by
    have first : Reads ('/' :: percentEncode keepInPath s) (0x2F :: percentDecode (bytes s)) :=
      .char rfl (reads_inPath s)
    rw [← (reads_path _).decoded, renderPath_split straight, first.decoded]
  have bound := length_resolve done (splitWhere (isSlash true) s)
  rw [whole, text, List.length_append, length_meaning_reverse, List.length_cons,
    List.length_cons] at bound
  omega

end Gatehouse.Url
