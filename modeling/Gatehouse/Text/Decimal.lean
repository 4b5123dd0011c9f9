/-!
# Decimal integers

Reading integers written in ASCII digits with an optional sign, within the range of a signed
64-bit number.
-/

namespace Gatehouse.Text

/-- The value of an ASCII decimal digit. -/
def digit? (c : Char) : Option Nat :=
  if '0' ≤ c ∧ c ≤ '9' then some (c.toNat - '0'.toNat) else none

/-- The value of a list of digits, most significant first, in a given base. -/
def ofDigits (base : Nat) (ds : List Nat) : Nat := ds.foldl (fun n d => n * base + d) 0

/-- The number written by a non-empty list of decimal digits. -/
def natural? (s : List Char) : Option Nat :=
  if s.isEmpty then none else (s.mapM digit?).map (ofDigits 10)

/-- The integers of a signed 64-bit word. -/
def isInt64 (n : Int) : Bool := -0x8000000000000000 ≤ n && n < 0x8000000000000000

/-- An integer with an optional sign `+` or `-` before at least one digit. -/
def integer? : List Char → Option Int
  | '+' :: r => (natural? r).map Int.ofNat
  | '-' :: r => (natural? r).map fun n => -(n : Int)
  | s => (natural? s).map Int.ofNat

/-- `integer?`, refused outside the signed 64-bit range. -/
def int64? (s : List Char) : Option Int := (integer? s).filter isInt64

end Gatehouse.Text
