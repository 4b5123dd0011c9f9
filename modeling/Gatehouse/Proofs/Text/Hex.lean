import Gatehouse.Proofs.Text.Percent

/-!
# Hexadecimal digits, read and written

A text stands for bytes exactly if it is what they are written as in hexadecimal, but for the case of
letters (`unhex?_eq_some_iff`). So there are two digits for every byte, and only the case is free.
-/

namespace Gatehouse.Text

variable {c : Char} {n : Nat} {s : List Char} {b : UInt8} {bs : Bytes}

/-- The hexadecimal digit of a number below 16, in small letters. -/
def hexSmall (n : Nat) : Char :=
  if n < 10 then Char.ofNat ('0'.toNat + n) else Char.ofNat ('a'.toNat + (n - 10))

/-- Bytes as pairs of hexadecimal digits in small letters. -/
def hexText (bs : Bytes) : List Char :=
  bs.flatMap fun b => [hexSmall (b.toNat / 16), hexSmall (b.toNat % 16)]

theorem toNat_hexSmall_lt : ∀ n < 16, (hexSmall n).toNat < 0x80 := by decide

theorem hexDigit?_iff_of_low : ∀ m < 0x80, ∀ n < 16,
    hexDigit? (Char.ofNat m) = some n ↔ (Char.ofNat m).toLower = hexSmall n := by
  decide +kernel

theorem hexDigit?_lt : ∀ m < 0x80, ∀ n ∈ hexDigit? (Char.ofNat m), n < 16 := by
  decide +kernel

/-- A digit is read as the number that it is the digit of, whatever its case. -/
theorem hexDigit?_eq_some_iff : hexDigit? c = some n ↔ n < 16 ∧ c.toLower = hexSmall n := by
  by_cases low : c.toNat < 0x80
  · have agree := fun small => hexDigit?_iff_of_low c.toNat low n small
    have bound := hexDigit?_lt c.toNat low n
    rw [Char.ofNat_toNat] at agree bound
    exact ⟨fun digit => ⟨bound digit, (agree (bound digit)).mp digit⟩,
      fun ⟨small, same⟩ => (agree small).mpr same⟩
  · constructor
    · intro digit
      exact absurd (toNat_lt_of_hexDigit? digit) low
    · rintro ⟨small, same⟩
      rw [toLower_high (Nat.le_of_not_lt low)] at same
      exact absurd (same ▸ toNat_hexSmall_lt n small) low

theorem hexText_cons :
    hexText (b :: bs) = hexSmall (b.toNat / 16) :: hexSmall (b.toNat % 16) :: hexText bs := rfl

/-- Two digits stand for one byte and no other. -/
theorem byte_of_digits {high low : Nat} (small : high < 16) (small' : low < 16) :
    (UInt8.ofNat (high * 16 + low)).toNat / 16 = high ∧
      (UInt8.ofNat (high * 16 + low)).toNat % 16 = low := by
  rw [toNat_byte (by omega)]
  omega

theorem unhex?_eq_some_iff : unhex? s = some bs ↔ s.map Char.toLower = hexText bs := by
  induction s using unhex?.induct generalizing bs with
  | case1 => cases bs <;> simp [unhex?, hexText]
  | case2 c => cases bs <;> simp [unhex?, hexText]
  | case3 x y s ih =>
    rw [List.map_cons, List.map_cons]
    constructor
    · intro read
      simp only [unhex?, Option.bind_eq_bind, Option.bind_eq_some_iff] at read
      obtain ⟨high, left, low, right, bs, later, same⟩ := read
      obtain ⟨small, first⟩ := hexDigit?_eq_some_iff.mp left
      obtain ⟨small', second⟩ := hexDigit?_eq_some_iff.mp right
      obtain ⟨upper, lower⟩ := byte_of_digits small small'
      rw [← Option.some.inj same, hexText_cons, upper, lower, first, second, ih.mp later]
    · intro written
      cases bs with
      | nil => cases written
      | cons b bs =>
        rw [hexText_cons] at written
        obtain ⟨first, written⟩ := List.cons.inj written
        obtain ⟨second, later⟩ := List.cons.inj written
        have bound := b.toNat_lt
        have left := hexDigit?_eq_some_iff.mpr ⟨by omega, first⟩
        have right := hexDigit?_eq_some_iff.mpr ⟨by omega, second⟩
        simp only [unhex?, left, right, ih.mpr later, Option.bind_eq_bind, Option.bind_some,
          Nat.div_add_mod', UInt8.ofNat_toNat]

theorem isHex_of_written (written : s.map Char.toLower = hexText bs) : ∀ c ∈ s, isHex c = true := by
  intro c member
  have lower : c.toLower ∈ hexText bs := written ▸ List.mem_map_of_mem member
  obtain ⟨b, -, digits⟩ := List.mem_flatMap.mp lower
  have bound := b.toNat_lt
  have digit {n : Nat} (small : n < 16) (same : c.toLower = hexSmall n) : isHex c = true := by
    rw [isHex, hexDigit?_eq_some_iff.mpr ⟨small, same⟩]
    rfl
  simp only [List.mem_cons, List.not_mem_nil, or_false] at digits
  rcases digits with same | same
  · exact digit (by omega) same
  · exact digit (by omega) same

end Gatehouse.Text
