import Gatehouse.Git.Codec
import Gatehouse.Proofs.Text.Digits
import Gatehouse.Proofs.Time.Order

/-!
# Times survive being written

A time that is written and then read in the relaxed grammar is the same time, down to the nanosecond
(`ofJson?_toJson`). All fields of a written time are runs of digits that something else ends, so
each of them is read as far as it was written.
-/

namespace Gatehouse.Instant

open Text

variable {width least most n : Nat} {ds rest : List Char} {t : Instant}

/-! Runs of digits. -/

/-- A run of digits is read as one number. -/
theorem number_digits (digits : ∀ c ∈ ds, c.isDigit = true) (some_ : ds ≠ [])
    (enough : least ≤ ds.length) (few : ds.length ≤ most) (stops : Stops rest) :
    number least most (ds ++ rest) = some (Nat.ofDigitChars 10 ds 0, rest) := by
  have stops' : Stops (rest.take (most - ds.length)) := by
    intro c first
    rw [List.head?_take] at first
    split at first
    · cases first
    · exact stops c first
  have run : ((ds ++ rest).take most).takeWhile Char.isDigit = ds := by
    rw [List.take_append, List.take_of_length_le few, takeWhile_digits digits stops']
  have enough : ¬ (ds.length < least ∨ ds.isEmpty = true) := by
    simp [some_]
    omega
  simp only [number, run, if_neg enough, natural?_digits digits some_, Option.map_some,
    List.drop_left]

/-! Padded numbers. -/

theorem isDigit_padded (width n : Nat) : ∀ c ∈ padded width n, c.isDigit = true := by
  intro c member
  rcases List.mem_append.mp member with zero | digit
  · rw [List.eq_of_mem_replicate zero]
    rfl
  · exact Nat.isDigit_of_mem_toDigits (by decide) (by decide) digit

theorem padded_ne_nil (width n : Nat) : padded width n ≠ [] := by
  intro empty
  exact Nat.toDigits_ne_nil (List.append_eq_nil_iff.mp empty).2

theorem ofDigitChars_padded (width n : Nat) : Nat.ofDigitChars 10 (padded width n) 0 = n := by
  rw [padded, Nat.ofDigitChars_append, Nat.ofDigitChars_replicate_zero, Nat.mul_zero,
    Nat.ofDigitChars_ten_toDigits]

theorem length_padded (positive : 0 < width) (fits : n < Nat.pow 10 width) :
    (padded width n).length = width := by
  have short : (Nat.toDigits 10 n).length ≤ width :=
    (Nat.length_toDigits_le_iff (by decide) positive).mpr fits
  rw [padded, List.length_append, List.length_replicate]
  omega

theorem number_padded (enough : least ≤ (padded width n).length)
    (few : (padded width n).length ≤ most) (stops : Stops rest) :
    number least most (padded width n ++ rest) = some (n, rest) := by
  rw [number_digits (isDigit_padded width n) (padded_ne_nil width n) enough few stops,
    ofDigitChars_padded]

/-- A padded number starts with a digit. -/
theorem padded_eq_cons (width n : Nat) :
    ∃ c ds, padded width n = c :: ds ∧ c.isDigit = true := by
  cases digits : padded width n with
  | nil => exact absurd digits (padded_ne_nil width n)
  | cons c ds => exact ⟨c, ds, rfl, isDigit_padded width n c (by simp [digits])⟩

/-- So no blanks are cut off in front of it. -/
theorem trimStart_padded (width n : Nat) (rest : List Char) :
    trimStart (padded width n ++ rest) = padded width n ++ rest := by
  obtain ⟨c, ds, digits, digit⟩ := padded_eq_cons width n
  simp [digits, trimStart, not_isBlank_of_isDigit digit]

theorem field_padded (fits : n < 100) (stops : Stops rest) :
    field (padded 2 n ++ rest) = some (n, rest) := by
  have two : (padded 2 n).length = 2 := length_padded (by decide) fits
  rw [field, trimStart_padded]
  exact number_padded (by omega) (by omega) stops

theorem stops_cons {c : Char} (stop : c.isDigit = false) (rest : List Char) :
    Stops (c :: rest) := by
  intro first same
  obtain rfl : c = first := by simpa using same
  exact stop

/-! The fields of a time. -/

theorem yearField_minus (s : List Char) :
    yearField ('-' :: s) = (number 1 s.length s).map fun (n, r) => (-(n : Int), r) := rfl

theorem yearField_plus (s : List Char) :
    yearField ('+' :: s) = (number 1 s.length s).map fun (n, r) => ((n : Int), r) := rfl

theorem yearField_yearChars (year : Int) (rest : List Char) :
    yearField (yearChars year ++ '-' :: rest) = some (year, '-' :: rest) := by
  have stops : Stops ('-' :: rest) := stops_cons rfl rest
  have signed : number 1 (padded 4 year.natAbs ++ '-' :: rest).length
      (padded 4 year.natAbs ++ '-' :: rest) = some (year.natAbs, '-' :: rest) := by
    have filled : 0 < (padded 4 year.natAbs).length :=
      List.length_pos_iff.mpr (padded_ne_nil 4 year.natAbs)
    exact number_padded filled (by simp) stops
  unfold yearChars
  by_cases before : year < 0
  · have value : -(year.natAbs : Int) = year := by omega
    rw [if_pos before, List.cons_append, yearField_minus, signed]
    simp only [Option.map_some, value]
  have value : (year.natAbs : Int) = year := by omega
  rw [if_neg before]
  by_cases four : year < 10000
  · have small : year.natAbs < 10000 := by omega
    have width : (padded 4 year.natAbs).length = 4 := length_padded (by decide) small
    have unsigned : number 1 4 (padded 4 year.natAbs ++ '-' :: rest) =
        some (year.natAbs, '-' :: rest) := number_padded (by omega) (by omega) stops
    obtain ⟨c, ds, digits, digit⟩ := padded_eq_cons 4 year.natAbs
    rw [if_pos four, yearField, trimStart_padded]
    split
    · rename_i sign
      rw [digits] at sign
      obtain ⟨rfl, -⟩ := List.cons.inj sign
      cases digit
    · rename_i sign
      rw [digits] at sign
      obtain ⟨rfl, -⟩ := List.cons.inj sign
      cases digit
    · rw [unsigned]
      simp only [Option.map_some, value]
  · rw [if_neg four, List.cons_append, yearField_plus, signed]
    simp only [Option.map_some, value]

theorem fraction_padded (positive : 0 < width) (short : width ≤ 9) (fits : n < Nat.pow 10 width)
    (rest : List Char) :
    fraction ('.' :: (padded width n ++ 'Z' :: rest)) =
      some (n * Nat.pow 10 (9 - width), 'Z' :: rest) := by
  have length : (padded width n).length = width := length_padded positive fits
  have read : number 1 9 (padded width n ++ 'Z' :: rest) = some (n, 'Z' :: rest) :=
    number_padded (by omega) (by omega) (stops_cons rfl rest)
  have digits : (padded width n ++ 'Z' :: rest).length - ('Z' :: rest).length = width := by
    rw [List.length_append]
    omega
  have stop : ('Z' :: rest).dropWhile Char.isDigit = 'Z' :: rest := rfl
  simp only [fraction, read, Option.map_some, digits, stop]

/-- The fraction of a second is read to the nanosecond. -/
theorem fraction_fractionChars (small : n < 1000000000) (rest : List Char) :
    fraction (fractionChars n ++ 'Z' :: rest) = some (n, 'Z' :: rest) := by
  unfold fractionChars
  by_cases none_ : n = 0
  · rw [if_pos none_, none_]
    rfl
  rw [if_neg none_]
  by_cases millis : n % 1000000 = 0
  · have few : n / 1000000 < 1000 := by omega
    have whole : n / 1000000 * 1000000 = n := by omega
    rw [if_pos millis, List.cons_append, fraction_padded (by decide) (by decide) few]
    change some (n / 1000000 * 1000000, _) = _
    rw [whole]
  rw [if_neg millis]
  by_cases micros : n % 1000 = 0
  · have few : n / 1000 < 1000000 := by omega
    have whole : n / 1000 * 1000 = n := by omega
    rw [if_pos micros, List.cons_append, fraction_padded (by decide) (by decide) few]
    change some (n / 1000 * 1000, _) = _
    rw [whole]
  · rw [if_neg micros, List.cons_append, fraction_padded (by decide) (by decide) small]
    change some (n * 1, _) = _
    rw [Nat.mul_one]

/-! Whole times. -/

theorem behind_zero (t : Instant) : t.behind 0 = t := by
  obtain ⟨date, hour, minute, second, nanos, hour_lt, minute_lt, second_le, nanos_lt⟩ := t
  have early : ¬ (hour * 60 + minute - 0 : Int) < 0 := by omega
  have late : ¬ 1440 ≤ (hour * 60 + minute - 0 : Int) := by omega
  have left : ((hour * 60 + minute - 0 : Int).emod 1440).toNat = hour * 60 + minute := by
    change ((hour * 60 + minute - 0 : Int) % 1440).toNat = hour * 60 + minute
    omega
  simp only [behind, if_neg early, if_neg late, left, Instant.mk.injEq, true_and, and_true]
  omega

theorem assemble_self (inRange : t.date.inRange = true) :
    assemble t.date.year t.date.month t.date.day t.hour t.minute t.second t.nanos 0 = some t := by
  have date : Date.of? t.date.year t.date.month t.date.day = some t.date := by
    rw [Date.of?, dif_pos t.date.month_ok, dif_pos t.date.day_ok]
  have time : of? t.date t.hour t.minute t.second t.nanos = some t :=
    dif_pos ⟨t.hour_lt, t.minute_lt, t.second_le, t.nanos_lt⟩
  simp [assemble, date, time, behind_zero, inRange]

theorem stops_fraction (n : Nat) : Stops (fractionChars n ++ ['Z']) := by
  unfold fractionChars
  repeat' split
  all_goals exact stops_cons rfl _

theorem parseRelaxed_render (inRange : t.date.inRange = true) :
    parseRelaxed (charsWith (fractionChars t.nanos) t) = some t := by
  have month_lt : t.date.month < 100 := by
    have upper := t.date.month_ok.2
    omega
  have day_lt : t.date.day < 100 := by
    have upper := t.date.day_le
    omega
  have hour_lt : t.hour < 100 := by
    have upper := t.hour_lt
    omega
  have minute_lt : t.minute < 100 := by
    have upper := t.minute_lt
    omega
  have second_lt : t.second < 100 := by
    have upper := t.second_le
    omega
  have dash (s : List Char) : literal '-' (trimStart ('-' :: s)) = some s := rfl
  have colon (s : List Char) : literal ':' (trimStart (':' :: s)) = some s := rfl
  -- Field by field, each is read up to what stands after it.
  refine Option.bind_eq_some_iff.mpr ⟨_, yearField_yearChars _ _, ?_⟩
  refine Option.bind_eq_some_iff.mpr ⟨_, dash _, ?_⟩
  refine Option.bind_eq_some_iff.mpr ⟨_, field_padded month_lt (stops_cons rfl _), ?_⟩
  refine Option.bind_eq_some_iff.mpr ⟨_, dash _, ?_⟩
  refine Option.bind_eq_some_iff.mpr ⟨_, field_padded day_lt (stops_cons rfl _), ?_⟩
  refine (if_pos rfl).trans (Option.bind_eq_some_iff.mpr ⟨_, rfl, ?_⟩)
  refine Option.bind_eq_some_iff.mpr ⟨_, field_padded hour_lt (stops_cons rfl _), ?_⟩
  refine Option.bind_eq_some_iff.mpr ⟨_, colon _, ?_⟩
  refine Option.bind_eq_some_iff.mpr ⟨_, field_padded minute_lt (stops_cons rfl _), ?_⟩
  refine Option.bind_eq_some_iff.mpr ⟨_, colon _, ?_⟩
  refine Option.bind_eq_some_iff.mpr ⟨_, field_padded second_lt (stops_fraction t.nanos), ?_⟩
  refine Option.bind_eq_some_iff.mpr ⟨_, fraction_fractionChars t.nanos_lt [], ?_⟩
  refine (if_neg (by decide)).trans (Option.bind_eq_some_iff.mpr ⟨(0, []), rfl, ?_⟩)
  exact (if_pos rfl).trans (assemble_self inRange)

/-- A time that is written and read is the same. -/
theorem ofJson?_toJson (inRange : t.date.inRange = true) : ofJson? t.toJson = some t := by
  rw [toJson, ofJson?, Json.text?, Option.bind_some, render, String.toList_ofList,
    parseRelaxed_render inRange]

/-! Times that are read. -/

theorem inRange_of_assemble {year minutes : Int} {month day hour minute second nanos : Nat}
    (h : assemble year month day hour minute second nanos minutes = some t) :
    t.date.inRange = true := by
  obtain ⟨date, -, h⟩ := Option.bind_eq_some_iff.mp h
  split at h
  · cases h
  obtain ⟨there, -, h⟩ := Option.bind_eq_some_iff.mp h
  obtain ⟨inRange, same⟩ := Option.ite_none_right_eq_some.mp h
  rwa [← Option.some.inj same]

theorem inRange_of_parseRelaxed {s : List Char} (h : parseRelaxed s = some t) :
    t.date.inRange = true := by
  obtain ⟨year, -, h⟩ := Option.bind_eq_some_iff.mp h
  obtain ⟨_, -, h⟩ := Option.bind_eq_some_iff.mp h
  obtain ⟨month, -, h⟩ := Option.bind_eq_some_iff.mp h
  obtain ⟨_, -, h⟩ := Option.bind_eq_some_iff.mp h
  obtain ⟨⟨day, separator⟩, -, h⟩ := Option.bind_eq_some_iff.mp h
  cases separator with
  | nil => cases h
  | cons c _ =>
    by_cases known : (c == 'T' || c == 't' || c == ' ') = true
    · obtain ⟨_, -, h⟩ := Option.bind_eq_some_iff.mp ((if_pos known).symm.trans h)
      obtain ⟨hour, -, h⟩ := Option.bind_eq_some_iff.mp h
      obtain ⟨_, -, h⟩ := Option.bind_eq_some_iff.mp h
      obtain ⟨minute, -, h⟩ := Option.bind_eq_some_iff.mp h
      obtain ⟨_, -, h⟩ := Option.bind_eq_some_iff.mp h
      obtain ⟨second, -, h⟩ := Option.bind_eq_some_iff.mp h
      obtain ⟨⟨nanos, rest⟩, -, h⟩ := Option.bind_eq_some_iff.mp h
      -- Either way of writing the offset gives some minutes and goes on alike.
      have ended (o : Option (Int × List Char))
          (h : (o.bind fun m => if (trimStart m.2).isEmpty then
            assemble year.1 month.1 day hour.1 minute.1 second.1 nanos m.1 else none) = some t) :
          t.date.inRange = true := by
        obtain ⟨minutes, -, h⟩ := Option.bind_eq_some_iff.mp h
        exact inRange_of_assemble (Option.ite_none_right_eq_some.mp h).2
      by_cases utc : ((trimStart rest).take 3).map Char.toUpper = "UTC".toList
      · exact ended _ ((if_pos utc).symm.trans h)
      · exact ended _ ((if_neg utc).symm.trans h)
    · obtain ⟨_, impossible, -⟩ := Option.bind_eq_some_iff.mp ((if_neg known).symm.trans h)
      cases impossible

/-- A time that is read is one that can be written. -/
theorem inRange_of_ofJson? {v : Json} (h : ofJson? v = some t) : t.date.inRange = true := by
  obtain ⟨s, -, read⟩ := Option.bind_eq_some_iff.mp h
  exact inRange_of_parseRelaxed read

end Gatehouse.Instant
