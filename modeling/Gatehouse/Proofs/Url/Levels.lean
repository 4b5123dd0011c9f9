import Gatehouse.Proofs.Url.PathReading

/-!
# Paths that do not climb

Double dots in a text behind a URL take segments back, first those of the text and then those of the URL.
A text stays below a URL if it never takes back more segments than it brought and a given number of others
(`Level`). Then the segments of the URL are still there (`Stays.resolve`), and nothing climbs in what is
written behind them, so it stays below the URL when it is read again (`pathBehind_level`).
-/

namespace Gatehouse.Url

open Text

variable {n m : Nat} {c : Char} {s t w : List Char} {extra ss ts : List (List Char)}

/-! Double dots. -/

theorem reads_nothing (reads : Reads s []) : s = [] := by
  generalize ends : ([] : Bytes) = bs at reads
  cases reads with
  | nil => rfl
  | escape left right rest => cases ends
  | @char c s plain bs rest =>
    obtain ⟨x, xs, here, -⟩ := utf8Step_utf8EncodeChar c []
    rw [here] at ends
    cases ends

theorem digit_of_value (low : c.toNat < 0x80) {k : Nat} (value : hexDigit? c = some k) :
    k < 16 ∧ (k = 2 → c = '2') ∧ (k = 14 → c = 'e' ∨ c = 'E') :=
  forall_char_lt (P := fun c => ∀ k, hexDigit? c = some k →
    k < 16 ∧ (k = 2 → c = '2') ∧ (k = 14 → c = 'e' ∨ c = 'E')) (by decide +kernel) c low k value

/-- What stands for a dot and more starts with a dot in one of its spellings. -/
theorem reads_dot {bs : Bytes} (reads : Reads s (0x2E :: bs)) :
    ∃ t, Reads t bs ∧ (s = '.' :: t ∨ s = '%' :: '2' :: 'e' :: t ∨ s = '%' :: '2' :: 'E' :: t) := by
  generalize whole : (0x2E :: bs : Bytes) = all at reads
  cases reads with
  | nil => cases whole
  | @escape a b high low left right t bs' rest =>
    obtain ⟨value, rfl⟩ := List.cons.inj whole
    obtain ⟨small, two, -⟩ := digit_of_value (toNat_lt_of_hexDigit? left) left
    obtain ⟨small', -, fourteen⟩ := digit_of_value (toNat_lt_of_hexDigit? right) right
    have number := congrArg UInt8.toNat value
    rw [toNat_byte (by omega)] at number
    replace number : 46 = high * 16 + low := number
    obtain rfl := two (by omega)
    rcases fourteen (by omega) with rfl | rfl
    · exact ⟨t, rest, .inr (.inl rfl)⟩
    · exact ⟨t, rest, .inr (.inr rfl)⟩
  | @char d t plain bs' rest =>
    by_cases low : d.toNat < 0x80
    · rw [utf8EncodeChar_low low, List.singleton_append] at whole
      obtain ⟨value, rfl⟩ := List.cons.inj whole
      have number := congrArg UInt8.toNat value
      rw [toNat_byte (by omega)] at number
      obtain rfl : '.' = d := Char.toNat_inj.mp number
      exact ⟨t, rest, .inl rfl⟩
    · obtain ⟨x, xs, here, high⟩ := utf8EncodeChar_high (Nat.le_of_not_lt low)
      rw [here] at whole
      obtain ⟨rfl, -⟩ := List.cons.inj whole
      exact absurd (high _ List.mem_cons_self) (by decide)

/-- A segment is a double dot exactly if it stands for one. -/
theorem isDotDot_iff : isDotDot s = true ↔ percentDecode (bytes s) = bytes ['.', '.'] := by
  refine ⟨percentDecode_dotDot, fun stands => ?_⟩
  have reads : Reads s (percentDecode (bytes s)) := .total s
  rw [stands] at reads
  obtain ⟨t, rest, first⟩ := reads_dot reads
  obtain ⟨u, ends, second⟩ := reads_dot rest
  obtain rfl := reads_nothing ends
  rcases first with rfl | rfl | rfl <;> rcases second with rfl | rfl | rfl <;> decide

/-- Encoding a segment for a path makes no double dot of it. -/
theorem isDotDot_inPath (s : List Char) :
    isDotDot (percentEncode keepInPath s) = isDotDot s := by
  rw [Bool.eq_iff_iff, isDotDot_iff, isDotDot_iff, (reads_inPath s).decoded]

theorem isDotDot_eq_false (dot : '.' ∉ s) (sign : '%' ∉ s) : isDotDot s = false := by
  have all : ∀ d ∈ ["..", ".%2e", "%2e.", "%2e%2e"], ∀ t ∈ spellings d.toList,
      '.' ∈ t ∨ '%' ∈ t := by
    decide
  refine Bool.eq_false_iff.mpr fun dots => ?_
  obtain ⟨d, member, same⟩ := List.any_eq_true.mp dots
  rcases all d member s (eq_of_beq same ▸ mem_spellings s) with there | there
  · exact dot there
  · exact sign there

/-! Segments. -/

/-- Going through the segments never takes back more than they brought before and `n` others. -/
inductive Stays : Nat → List (List Char) → Prop
  | ended (n : Nat) : Stays n []
  | back {n : Nat} {s : List Char} {ss : List (List Char)} (dots : isDotDot s = true)
    (later : Stays n ss) : Stays (n + 1) (s :: ss)
  | here {n : Nat} {s : List Char} {ss : List (List Char)} (single : isDotDot s = false)
    (dot : isDot s = true) (later : Stays n ss) : Stays n (s :: ss)
  | down {n : Nat} {s : List Char} {ss : List (List Char)} (single : isDotDot s = false)
    (plain : isDot s = false) (later : Stays (n + 1) ss) : Stays n (s :: ss)

theorem Stays.mono (stays : Stays n ss) (le : n ≤ m) : Stays m ss := by
  induction stays generalizing m with
  | ended n => exact .ended m
  | back dots later ih =>
    obtain ⟨k, rfl⟩ : ∃ k, m = k + 1 := ⟨m - 1, by omega⟩
    exact .back dots (ih (Nat.le_of_succ_le_succ le))
  | here single dot later ih => exact .here single dot (ih le)
  | down single plain later ih => exact .down single plain (ih (Nat.succ_le_succ le))

/-- A segment that is no double dot takes nothing back. -/
theorem Stays.cons (single : isDotDot s = false) (later : Stays n ss) : Stays n (s :: ss) := by
  cases dot : isDot s with
  | true => exact .here single dot later
  | false => exact .down single dot (later.mono (Nat.le_succ n))

/-- A segment takes back one at most. -/
theorem Stays.any (s : List Char) (later : Stays n ss) : Stays (n + 1) (s :: ss) := by
  cases dots : isDotDot s with
  | true => exact .back dots later
  | false => exact .cons dots (later.mono (Nat.le_succ n))

theorem Stays.append (stays : Stays n ss) (more : ∀ k, Stays k ts) : Stays n (ss ++ ts) := by
  induction stays with
  | ended n => exact more n
  | back dots later ih => exact .back dots ih
  | here single dot later ih => exact .here single dot ih
  | down single plain later ih => exact .down single plain ih

theorem stays_single (single : ∀ s ∈ ss, isDotDot s = false) (n : Nat) : Stays n ss := by
  induction ss with
  | nil => exact .ended n
  | cons s ss ih =>
    obtain ⟨here, later⟩ := List.forall_mem_cons.mp single
    exact .cons here (ih later)

/-- A segment of a path without double dots. -/
structure Firm (s : List Char) : Prop where
  single : isDotDot s = false
  whole : ∀ c ∈ s, isSlash true c = false

theorem firm_nil : Firm [] := ⟨rfl, nofun⟩

/-- A step from segments that the text brought behind those that were there. -/
theorem walk_stays (stays : Stays extra.length (s :: ss)) (firm : ∀ t ∈ extra, Firm t)
    (whole : ∀ c ∈ s, isSlash true c = false) (done : List (List Char)) :
    ∃ brought, walk (extra ++ done) s = brought ++ done ∧ Stays brought.length ss ∧
      (∀ t ∈ brought, Firm t) ∧ (isDotDot s = false → isDot s = false → brought ≠ []) := by
  generalize deep : extra.length = n at stays
  cases stays with
  | back dots later =>
    cases extra with
    | nil => cases deep
    | cons x extra =>
      obtain rfl : extra.length = _ := Nat.succ.inj deep
      obtain ⟨-, firm⟩ := List.forall_mem_cons.mp firm
      refine ⟨extra, by rw [walk, if_pos dots]; rfl, later, firm, fun single => ?_⟩
      cases dots.symm.trans single
  | here single dot later =>
    refine ⟨extra, ?_, deep ▸ later, firm, fun _ plain => ?_⟩
    · rw [walk, if_neg (by simp [single]), if_pos dot]
    · cases dot.symm.trans plain
  | down single plain later =>
    refine ⟨s :: extra, ?_, by rw [List.length_cons, deep]; exact later, ?_, fun _ _ => by simp⟩
    · rw [walk, if_neg (by simp [single]), if_neg (by simp [plain])]
      rfl
    · exact List.forall_mem_cons.mpr ⟨⟨single, whole⟩, firm⟩

/-- The last segment is gone through, and dots leave an empty one. -/
theorem resolve_last (done : List (List Char)) (s : List Char) :
    resolve done [s] =
      (walk done s).reverse ++ if isDotDot s || isDot s then [[]] else [] := by
  rw [resolve, walk]
  cases isDotDot s <;> cases isDot s <;> simp

/-- The segments that were there stay, and those behind them have no double dots. -/
theorem Stays.resolve (stays : Stays extra.length ss) (some : ss ≠ [])
    (firm : ∀ t ∈ extra, Firm t) (whole : ∀ s ∈ ss, ∀ c ∈ s, isSlash true c = false)
    (done : List (List Char)) :
    ∃ out, out ≠ [] ∧ resolve (extra ++ done) ss = done.reverse ++ out ∧ ∀ t ∈ out, Firm t := by
  -- `extra` has the segments that the text brought so far, the last one first.
  induction ss generalizing extra with
  | nil => exact absurd rfl some
  | cons s ss ih =>
    obtain ⟨here, whole⟩ := List.forall_mem_cons.mp whole
    obtain ⟨brought, step, stays, firm, plain⟩ := walk_stays stays firm here done
    cases ss with
    | nil =>
      rw [resolve_last, step]
      refine ⟨brought.reverse ++ if isDotDot s || isDot s then [[]] else [], ?_, by simp, ?_⟩
      · cases dots : isDotDot s with
        | true => simp
        | false => cases dot : isDot s <;> simp [plain, dots, dot]
      · intro t member
        rcases List.mem_append.mp member with old | last
        · exact firm t (List.mem_reverse.mp old)
        · split at last
          · exact List.mem_singleton.mp last ▸ firm_nil
          · cases last
    | cons t ss =>
      rw [resolve_cons (by simp), step]
      exact ih stays (by simp) firm whole

/-! Texts. -/

/-- The text of a path ends before a query or a fragment. -/
def pathText (s : List Char) : List Char := s.takeWhile fun c => c != '#' && c != '?'

theorem takeWhile_cutAt (d : Char) (s : List Char) :
    s.takeWhile (· != d) = ((cutAt d s).map Prod.fst).getD s := by
  induction s with
  | nil => rfl
  | cons c s ih =>
    rw [cutAt]
    by_cases mark : c = d
    · simp [mark]
    · rw [if_neg (by simpa using mark), List.takeWhile_cons_of_pos (by simpa using mark), ih]
      cases cutAt d s <;> rfl

theorem splitTail_path (s : List Char) : (splitTail s).1 = pathText s := by
  have body := takeWhile_cutAt '?' (s.takeWhile (· != '#'))
  have both : (s.takeWhile (· != '#')).takeWhile (· != '?') = pathText s := by
    rw [List.takeWhile_takeWhile, pathText]
    congr 1
    funext c
    rw [Bool.eq_iff_iff]
    simp [and_comm]
  rw [← both, body]
  unfold splitTail
  dsimp only
  cases cutAt '?' (s.takeWhile (· != '#')) <;> rfl

/-- The text takes back no more segments than it brought and `n` others. -/
def Level (n : Nat) (s : List Char) : Prop := Stays n (splitWhere (isSlash true) (pathText s))

/-- The text is all in one segment. -/
def IsPart (s : List Char) : Prop := ∀ c ∈ s, endsAuthority true c = false

theorem IsPart.whole (part : IsPart w) : ∀ c ∈ w, isSlash true c = false := by
  intro c member
  have ends := part c member
  simp only [endsAuthority, Bool.or_eq_false_iff] at ends
  exact ends.1.1

theorem IsPart.plain (part : IsPart w) : ∀ c ∈ w, (c != '#' && c != '?') = true := by
  intro c member
  have ends := part c member
  simp only [endsAuthority, Bool.or_eq_false_iff] at ends
  simp [bne, ends.1.2, ends.2]

theorem pathText_part (part : IsPart w) (s : List Char) : pathText (w ++ s) = w ++ pathText s :=
  List.takeWhile_append_of_pos part.plain

theorem pathText_slash (s : List Char) : pathText ('/' :: s) = '/' :: pathText s :=
  List.takeWhile_cons_of_pos rfl

theorem segments_part (part : IsPart w) (s : List Char) :
    splitWhere (isSlash true) (pathText (w ++ '/' :: s)) =
      w :: splitWhere (isSlash true) (pathText s) := by
  rw [pathText_part part, pathText_slash, splitWhere_append part.whole rfl]

theorem Level.mono (level : Level n s) (le : n ≤ m) : Level m s := Stays.mono level le

theorem level_plain (dot : '.' ∉ s) (sign : '%' ∉ s) (n : Nat) : Level n s := by
  refine stays_single (fun t member => isDotDot_eq_false ?_ ?_) n
  · exact fun there => dot ((List.takeWhile_sublist _).mem (mem_of_mem_splitWhere member there))
  · exact fun there => sign ((List.takeWhile_sublist _).mem (mem_of_mem_splitWhere member there))

/-- A segment without dots is one more to take back. -/
theorem Level.behind (level : Level (n + 1) s) (part : IsPart w) (single : isDotDot w = false)
    (plain : isDot w = false) : Level n (w ++ '/' :: s) := by
  rw [Level, segments_part part]
  exact .down single plain level

theorem Level.any (level : Level n s) (part : IsPart w) : Level (n + 1) (w ++ '/' :: s) := by
  rw [Level, segments_part part]
  exact .any w level

theorem level_part (part : IsPart w) (n : Nat) : Level (n + 1) w := by
  have whole : pathText w = w := by
    have alone := pathText_part part []
    rwa [List.append_nil, show pathText [] = [] from rfl, List.append_nil] at alone
  rw [Level, whole, splitWhere_line part.whole]
  exact .any w (.ended n)

theorem splitTail_query {q : List Char} (part : IsPart w) (hash : '#' ∉ q) :
    splitTail (w ++ '?' :: q) = (w, some q, none) := by
  have bare (d : Char) (ends : endsAuthority true d = true) : d ∉ w := fun member => by
    cases (part d member).symm.trans ends
  have behind : splitTail ('?' :: q) = ([], some q, none) := by
    have whole : ('?' :: q).takeWhile (· != '#') = '?' :: q := takeWhile_missing (by simp [hash])
    have rest : ('?' :: q).dropWhile (· != '#') = [] := by
      simpa [whole] using List.takeWhile_append_dropWhile (p := (· != '#')) (l := '?' :: q)
    rw [splitTail, whole, rest]
    rfl
  rw [splitTail_append (bare _ rfl) (bare _ rfl), behind, List.append_nil]

/-- Nothing is taken back in what comes behind without dots. -/
theorem Level.append (level : Level n s) (dot : '.' ∉ t) (sign : '%' ∉ t) :
    Level n (s ++ '/' :: t) := by
  unfold Level pathText at *
  rw [List.takeWhile_append]
  split
  · rename_i all
    rw [List.takeWhile_cons_of_pos rfl, splitWhere_cut rfl]
    have whole := List.IsPrefix.eq_of_length (List.takeWhile_prefix _) all
    rw [whole] at level
    exact level.append fun k => level_plain dot sign k
  · exact level

/-! Paths. -/

theorem Firm.inPath (firm : Firm s) : Firm (percentEncode keepInPath s) := by
  refine ⟨(isDotDot_inPath s).trans firm.single, fun c member => ?_⟩
  rcases of_mem_percentEncode member with ⟨there, -⟩ | rfl | digit
  · exact firm.whole c there
  · rfl
  · refine Bool.eq_false_iff.mpr fun slash => ?_
    obtain ⟨n, value⟩ := Option.isSome_iff_exists.mp digit
    exact forall_char_lt (P := fun c => isHex c = true → isSlash true c ≠ true) (by decide) c
      (toNat_lt_of_hexDigit? value) digit slash

theorem splitWhere_path (whole : ∀ c ∈ s, isSlash true c = false)
    (others : ∀ t ∈ ss, ∀ c ∈ t, isSlash true c = false) :
    splitWhere (isSlash true) (s ++ renderPath (.segments ss)) = s :: ss := by
  induction ss generalizing s with
  | nil =>
    rw [show renderPath (.segments []) = [] from rfl, List.append_nil, splitWhere_line whole]
  | cons t ss ih =>
    obtain ⟨here, others⟩ := List.forall_mem_cons.mp others
    have rest : renderPath (.segments (t :: ss)) = '/' :: (t ++ renderPath (.segments ss)) := rfl
    rw [rest, splitWhere_append whole rfl, ih here others]

/-- Neither blanks nor marks of a query or a fragment are in a path. -/
theorem solid_inPath (member : c ∈ percentEncode keepInPath s) :
    0x20 < c.toNat ∧ c ≠ '#' ∧ c ≠ '?' := by
  refine ⟨solid_percentEncode (by decide) member, ?_, ?_⟩
  · rintro rfl
    exact not_mem_percentEncode (by decide) (by decide) (by decide) member
  · rintro rfl
    exact not_mem_percentEncode (by decide) (by decide) (by decide) member

/-- A text on a level goes on behind the path, and what is written there is on the level too. -/
theorem pathBehind_level (level : Level 0 s) (done : List (List Char)) :
    ∃ r, renderPath (pathBehind done (pathText s)) = renderPath (pathBehind done []) ++ r ∧
      (∀ c ∈ r, 0x20 < c.toNat ∧ c ≠ '#' ∧ c ≠ '?') ∧ ∀ more, Level 0 (r ++ '?' :: more) := by
  obtain ⟨out, some, path, firm⟩ := (show Stays [].length _ from level).resolve
    (splitWhere_ne_nil _) nofun (fun t member => whole_of_mem_splitWhere member) done
  obtain ⟨t, out, rfl⟩ := List.exists_cons_of_ne_nil some
  obtain ⟨here, firm⟩ := List.forall_mem_cons.mp firm
  have written : ∀ u ∈ out.map (percentEncode keepInPath), Firm u := by
    intro u member
    obtain ⟨v, there, rfl⟩ := List.mem_map.mp member
    exact (firm v there).inPath
  have solid : ∀ c ∈ percentEncode keepInPath t ++
      renderPath (.segments (out.map (percentEncode keepInPath))),
      0x20 < c.toNat ∧ c ≠ '#' ∧ c ≠ '?' := by
    intro c member
    rcases List.mem_append.mp member with first | later
    · exact solid_inPath first
    · obtain ⟨u, there, piece⟩ := List.mem_flatMap.mp later
      obtain ⟨v, -, rfl⟩ := List.mem_map.mp there
      rcases List.mem_cons.mp piece with rfl | piece
      · decide
      · exact solid_inPath piece
  refine ⟨_, ?_, solid, fun more => ?_⟩
  · rw [renderPath_pathBehind_nil, pathBehind, ← List.nil_append done, path, List.map_append,
      renderPath_append, textOf]
    simp [renderPath]
  · have plain : ∀ c ∈ percentEncode keepInPath t ++
        renderPath (.segments (out.map (percentEncode keepInPath))),
        (c != '#' && c != '?') = true := by
      intro c member
      simp [(solid c member).2]
    rw [Level, pathText, List.takeWhile_append_of_pos plain, List.takeWhile_cons_of_neg (by simp),
      List.append_nil, splitWhere_path here.inPath.whole fun u member => (written u member).whole]
    exact stays_single (List.forall_mem_cons.mpr ⟨here.inPath.single, fun u member =>
      (written u member).single⟩) 0

/-- What is behind a URL on a level is written behind it. -/
theorem chars_behind {e : Url} {done : List (List Char)} (host : e.host ≠ none)
    (noQuery : e.query = none) (noFragment : e.fragment = none) (path : e.path = pathBehind done [])
    (level : Level 0 s) :
    ∃ r, (∀ c ∈ r, 0x20 < c.toNat) ∧ (∀ more, Level 0 (r ++ '?' :: more)) ∧
      ∀ query fragment, ({ e with path := pathBehind done (pathText s), query, fragment } : Url).chars =
        e.chars ++ (r ++ (renderPart '?' query ++ renderPart '#' fragment)) := by
  obtain ⟨r, behind, solid, levels⟩ := pathBehind_level level done
  exact ⟨r, fun c member => (solid c member).1, levels,
    chars_on host noQuery noFragment (path.symm ▸ behind)⟩

end Gatehouse.Url
