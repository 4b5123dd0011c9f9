import Gatehouse.Text.Hex

/-!
# Percent-encoding

A byte is written as `%` and two hexadecimal digits in capitals. `percentEncode` writes so every byte of a
text outside a given set of ASCII characters; `percentDecode` reads such bytes back and passes
everything else through.
-/

namespace Gatehouse.Text

/-- A byte as `%` and two digits. -/
def percentByte (b : UInt8) : List Char :=
  ['%', hexCapital (b.toNat / 16), hexCapital (b.toNat % 16)]

/-- The characters that stand for themselves in any part of a URL. -/
def isUnreserved (c : Char) : Bool :=
  c.isAlphanum || c == '-' || c == '_' || c == '.' || c == '~'

/-- Encode the bytes of every character outside `keep`, a set of ASCII characters. -/
def percentEncode (keep : Char → Bool) (s : List Char) : List Char :=
  s.flatMap fun c => if keep c then [c] else (encode c.toString).flatMap percentByte

/-- A text as one component of a URL: only unreserved characters stand for themselves. -/
def urlComponent (s : String) : String := String.ofList (percentEncode isUnreserved s.toList)

/-- The bytes of a text with its percent-encoded bytes decoded. -/
def percentDecode : Bytes → Bytes
  | [] => []
  | 0x25 :: a :: b :: r =>
    match hexDigit? (Char.ofNat a.toNat), hexDigit? (Char.ofNat b.toNat) with
    | some high, some low => UInt8.ofNat (high * 16 + low) :: percentDecode r
    | _, _ => 0x25 :: percentDecode (a :: b :: r)
  | c :: r => c :: percentDecode r

end Gatehouse.Text
