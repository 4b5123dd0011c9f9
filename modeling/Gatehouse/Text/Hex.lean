import Gatehouse.Text.Utf8

/-!
# Hexadecimal

Bytes written as pairs of hexadecimal digits in either case.
-/

namespace Gatehouse.Text

/-- The value of a hexadecimal digit. -/
def hexDigit? (c : Char) : Option Nat :=
  if '0' ≤ c ∧ c ≤ '9' then some (c.toNat - '0'.toNat)
  else if 'a' ≤ c ∧ c ≤ 'f' then some (c.toNat - 'a'.toNat + 10)
  else if 'A' ≤ c ∧ c ≤ 'F' then some (c.toNat - 'A'.toNat + 10)
  else none

/-- The bytes written by an even number of hexadecimal digits. -/
def unhex? : List Char → Option Bytes
  | [] => some []
  | [_] => none
  | a :: b :: r => do
    let high ← hexDigit? a
    let low ← hexDigit? b
    let rest ← unhex? r
    some (UInt8.ofNat (high * 16 + low) :: rest)

/-- The hexadecimal digit of a number below 16, in capitals. -/
def hexCapital (n : Nat) : Char :=
  if n < 10 then Char.ofNat ('0'.toNat + n) else Char.ofNat ('A'.toNat + (n - 10))

end Gatehouse.Text
