import Gatehouse.Proofs.Text.Digits
import Gatehouse.Proofs.Text.Pieces

/-!
# Integers in texts

An integer is written as a sign, if it is negative, and the digits of its size. It is read back as
itself (`integer?_toString`), and so within 64 bits if it is within them (`int64?_toString`).
-/

namespace Gatehouse.Text

theorem isDigit_toDigits (n : Nat) : ∀ c ∈ Nat.toDigits 10 n, c.isDigit = true :=
  fun _ member => Nat.isDigit_of_mem_toDigits (by decide) (by decide) member

theorem toList_toString (n : Int) :
    (toString n).toList = (if n < 0 then ['-'] else []) ++ Nat.toDigits 10 n.natAbs := by
  rw [Int.toString_eq_repr, Int.repr_eq_if]
  by_cases negative : n < 0
  · have value : (-n).toNat = n.natAbs := by omega
    rw [if_neg (by omega), if_pos negative, String.toList_append, Nat.toList_repr, value]
    rfl
  · have value : n.toNat = n.natAbs := by omega
    rw [if_pos (by omega), if_neg negative, Nat.toList_repr, value]
    rfl

/-- An integer is written with a sign and digits only. -/
theorem mem_toString {n : Int} {c : Char} (member : c ∈ (toString n).toList) :
    c = '-' ∨ c.isDigit = true := by
  rw [toList_toString] at member
  rcases List.mem_append.mp member with sign | digit
  · split at sign
    · exact .inl (List.mem_singleton.mp sign)
    · cases sign
  · exact .inr (isDigit_toDigits n.natAbs c digit)

theorem natural?_toDigits (n : Nat) : natural? (Nat.toDigits 10 n) = some n := by
  rw [natural?_digits (isDigit_toDigits n) Nat.toDigits_ne_nil, Nat.ofDigitChars_ten_toDigits]

theorem integer?_toString (n : Int) : integer? (toString n).toList = some n := by
  rw [toList_toString]
  by_cases negative : n < 0
  · have value : -(n.natAbs : Int) = n := by omega
    rw [if_pos negative, List.singleton_append, integer?, natural?_toDigits]
    exact congrArg some value
  · have value : (n.natAbs : Int) = n := by omega
    have digits := isDigit_toDigits n.natAbs
    have number := natural?_toDigits n.natAbs
    rw [if_neg negative, List.nil_append]
    -- The first digit is no sign.
    generalize Nat.toDigits 10 n.natAbs = ds at digits number
    unfold integer?
    split
    · have sign : Char.isDigit '+' = true := digits '+' List.mem_cons_self
      cases sign
    · have sign : Char.isDigit '-' = true := digits '-' List.mem_cons_self
      cases sign
    · rw [number, Option.map_some, Int.ofNat_eq_natCast, value]

theorem int64?_toString {n : Int} (small : isInt64 n = true) :
    int64? (toString n).toList = some n := by
  rw [int64?, integer?_toString, Option.filter_some, if_pos small]

theorem trim_toString (n : Int) : trim (toString n).toList = (toString n).toList := by
  apply trimWhere_whole
  intro c member
  rcases mem_toString member with rfl | digit
  · rfl
  · exact not_isBlank_of_isDigit digit

end Gatehouse.Text
