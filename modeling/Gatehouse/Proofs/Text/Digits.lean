import Gatehouse.Text.Blank
import Gatehouse.Text.Decimal

/-!
# Runs of digits

A run of digits ends where something else comes (`takeWhile_digits`), and has the value of its digits
(`natural?_digits`). The digits of a number are a run without a zero in front, unless they are that
zero (`no_leading_zero`).
-/

namespace Gatehouse.Text

variable {ds rest : List Char} {n : Nat}

/-- The text does not go on with a digit. -/
def Stops (s : List Char) : Prop := ∀ c ∈ s.head?, c.isDigit = false

theorem takeWhile_digits (digits : ∀ c ∈ ds, c.isDigit = true) (stops : Stops rest) :
    (ds ++ rest).takeWhile Char.isDigit = ds := by
  rw [List.takeWhile_append_of_pos digits]
  cases rest with
  | nil => simp
  | cons c rest =>
    have stop : c.isDigit = false := stops c rfl
    simp [stop]

theorem dropWhile_digits (digits : ∀ c ∈ ds, c.isDigit = true) (stops : Stops rest) :
    (ds ++ rest).dropWhile Char.isDigit = rest := by
  have whole := List.takeWhile_append_dropWhile (p := Char.isDigit) (l := ds ++ rest)
  rw [takeWhile_digits digits stops] at whole
  exact List.append_cancel_left whole

theorem range_of_isDigit {c : Char} (h : c.isDigit = true) : '0' ≤ c ∧ c ≤ '9' := by
  rw [Char.isDigit, Bool.and_eq_true, decide_eq_true_eq, decide_eq_true_eq] at h
  exact h

theorem range_of_isAlphanum {c : Char} (solid : c.isAlphanum = true) :
    ((65 ≤ c.toNat ∧ c.toNat ≤ 90) ∨ (97 ≤ c.toNat ∧ c.toNat ≤ 122)) ∨
      (48 ≤ c.toNat ∧ c.toNat ≤ 57) := by
  have tested : ((decide ('A'.val ≤ c.val ∧ c.val ≤ 'Z'.val) ||
      (decide ('a'.val ≤ c.val) && decide (c.val ≤ 'z'.val))) ||
      (decide ('0'.val ≤ c.val) && decide (c.val ≤ '9'.val))) = true := solid
  simp only [Bool.or_eq_true, Bool.and_eq_true, decide_eq_true_eq] at tested
  exact tested

theorem digit?_of_isDigit {c : Char} (h : c.isDigit = true) :
    digit? c = some (c.toNat - '0'.toNat) := if_pos (range_of_isDigit h)

theorem not_isBlank_of_isDigit {c : Char} (h : c.isDigit = true) : isBlank c = false := by
  obtain ⟨low, high⟩ := range_of_isDigit h
  have low : 48 ≤ c.toNat := low
  have high : c.toNat ≤ 57 := high
  simp [isBlank]
  omega

theorem natural?_digits (digits : ∀ c ∈ ds, c.isDigit = true) (some_ : ds ≠ []) :
    natural? ds = some (Nat.ofDigitChars 10 ds 0) := by
  have values : ds.mapM digit? = some (ds.map fun c => c.toNat - '0'.toNat) := by
    clear some_
    induction ds with
    | nil => rfl
    | cons c ds ih =>
      obtain ⟨first, others⟩ := List.forall_mem_cons.mp digits
      rw [List.mapM_cons, digit?_of_isDigit first, ih others]
      rfl
  have filled : ¬ ds.isEmpty = true := by simpa using some_
  have value : ofDigits 10 (ds.map fun c => c.toNat - '0'.toNat) = Nat.ofDigitChars 10 ds 0 := by
    rw [ofDigits, List.foldl_map, Nat.ofDigitChars_eq_foldl]
    simp only [Nat.mul_comm]
  rw [natural?, if_neg filled, values, Option.map_some, value]

theorem digitChar_ne_zero : ∀ n < 10, n ≠ 0 → Nat.digitChar n ≠ '0' := by decide

/-- Only the number zero starts with a zero. -/
theorem head?_toDigits_ne (positive : n ≠ 0) : (Nat.toDigits 10 n).head? ≠ some '0' := by
  induction n using Nat.strongRecOn with
  | _ n ih =>
    rw [Nat.toDigits_eq_if (by decide)]
    split
    · rename_i small
      simpa using digitChar_ne_zero n small positive
    · rename_i large
      have front := ih (n / 10) (by omega) (by omega)
      cases digits : Nat.toDigits 10 (n / 10) with
      | nil => exact absurd digits Nat.toDigits_ne_nil
      | cons c ds =>
        rw [digits] at front
        exact front

/-- So no digits of a number are superfluous. -/
theorem no_leading_zero (n : Nat) :
    ¬ ((Nat.toDigits 10 n).head? = some '0' ∧ (Nat.toDigits 10 n).length > 1) := by
  rintro ⟨zero, long⟩
  by_cases none : n = 0
  · rw [none, Nat.toDigits_zero] at long
    exact absurd long (by decide)
  · exact head?_toDigits_ne none zero

end Gatehouse.Text
