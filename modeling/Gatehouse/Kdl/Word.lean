import Gatehouse.Kdl.Basic
import Gatehouse.Kdl.Letters
import Gatehouse.Text.Decimal
import Gatehouse.Text.Hex

/-!
# Words of KDL documents

A bare word is a number if it starts like one, and else a string. Numbers are decimal, or
hexadecimal, octal or binary after `0x`, `0o` or `0b`; underscores may separate digits.
-/

namespace Gatehouse.Kdl

/-- The digits of a number, which start with a digit and may have underscores among them. -/
def digits? (base : Nat) (s : List Char) : Option (List Nat) :=
  match s with
  | '_' :: _ => none
  | [] => none
  | s => (s.filter (· != '_')).mapM fun c => (Text.hexDigit? c).filter (· < base)

/-- The integers that a number can be: those of a signed 128-bit word. -/
def isInteger (n : Int) : Bool :=
  -0x80000000000000000000000000000000 ≤ n && n < 0x80000000000000000000000000000000

/-- The integer with the given sign and digits. -/
def integerOf? (negative : Bool) (base : Nat) (s : List Char) : Option Value := do
  let n : Int := Text.ofDigits base (← digits? base s)
  let n := if negative then -n else n
  if isInteger n then some (.integer n) else none

/-- The part of a number after its sign, cut into what is before, between and after the point and
the letter of the exponent. -/
def decimalParts (s : List Char) : List Char × Option (List Char) × Option (List Char) :=
  let isE (c : Char) := c == 'e' || c == 'E'
  let mantissa := s.takeWhile fun c => !isE c
  let power := (s.drop mantissa.length).drop 1
  let exponent := if mantissa.length = s.length then none else some power
  match Text.cutAt '.' mantissa with
  | some (whole, fraction) => (whole, some fraction, exponent)
  | none => (mantissa, none, exponent)

/-- A list of characters without a sign at its front. -/
def unsigned : List Char → List Char
  | '+' :: r => r
  | '-' :: r => r
  | s => s

/-- A number after its sign; `written` is all of it. -/
def numberOf? (written : List Char) (negative : Bool) (s : List Char) : Option Value :=
  match s with
  | '0' :: 'x' :: r => integerOf? negative 16 r
  | '0' :: 'o' :: r => integerOf? negative 8 r
  | '0' :: 'b' :: r => integerOf? negative 2 r
  | s =>
    match decimalParts s with
    | (whole, none, none) => integerOf? negative 10 whole
    | (whole, fraction, exponent) => do
      let _ ← digits? 10 whole
      let _ ← fraction.mapM (digits? 10)
      let _ ← exponent.mapM fun e => digits? 10 (unsigned e)
      some (.real (String.ofList written))

/-- The words that would be mistaken for keywords. -/
def reservedWords : List String := ["true", "false", "null", "inf", "-inf", "nan"]

/-- Does a word start like a number, up to its sign? -/
def startsLikeNumber : List Char → Bool
  | '.' :: c :: _ => c.isDigit
  | c :: _ => c.isDigit
  | [] => false

/-- The value of a bare word. -/
def wordValue? (word : List Char) : Option Value :=
  if startsLikeNumber (unsigned word) then
    numberOf? word (word.head? == some '-') (unsigned word)
  else if reservedWords.contains (String.ofList word) then none
  else some (.text (String.ofList word))

/-- The value of the word after a hash sign. -/
def keywordValue? (word : String) : Option Value :=
  match word with
  | "true" => some (.bool true)
  | "false" => some (.bool false)
  | "null" => some .null
  | "inf" => some (.real "#inf")
  | "-inf" => some (.real "#-inf")
  | "nan" => some (.real "#nan")
  | _ => none

end Gatehouse.Kdl
