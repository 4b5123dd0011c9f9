/-!
# UTF-8

Decoding bytes one character at a time. A sequence that is no character is cut at the first byte
that cannot go on it; `Fault` says how long it is, or that the bytes end inside it.
-/

namespace Gatehouse

/-- A sequence of bytes. -/
abbrev Bytes := List UInt8

namespace Text

/-- The bytes of a text. -/
def encode (s : String) : Bytes := s.toUTF8.toList

/-- What the bytes at the front are. -/
inductive Utf8Step where
  | char (c : Char) (length : Nat)
  /-- `length` bytes that are not part of any character. -/
  | invalid (length : Nat)
  /-- The beginning of a character, and then the end of the bytes. -/
  | cutShort (length : Nat)

/-- Is the byte a continuation byte? -/
def isContinuation (b : UInt8) : Bool := 0x80 ≤ b && b < 0xC0

/-- The value bits of a continuation byte. -/
def lowBits (b : UInt8) : Nat := b.toNat % 64

/-- A character of two bytes. -/
def twoBytes (b : UInt8) : Bytes → Utf8Step
  | [] => .cutShort 1
  | c :: _ =>
    if isContinuation c then .char (Char.ofNat (b.toNat % 32 * 64 + lowBits c)) 2 else .invalid 1

/-- A character of three bytes; `second` says which second bytes are right for the first. -/
def threeBytes (second : UInt8 → Bool) (b : UInt8) : Bytes → Utf8Step
  | [] => .cutShort 1
  | c :: r =>
    if !second c then .invalid 1
    else match r with
      | [] => .cutShort 2
      | d :: _ =>
        if isContinuation d then
          .char (Char.ofNat ((b.toNat % 16 * 64 + lowBits c) * 64 + lowBits d)) 3
        else .invalid 2

/-- A character of four bytes; `second` says which second bytes are right for the first. -/
def fourBytes (second : UInt8 → Bool) (b : UInt8) : Bytes → Utf8Step
  | [] => .cutShort 1
  | c :: r =>
    if !second c then .invalid 1
    else match r with
      | [] => .cutShort 2
      | d :: r =>
        if !isContinuation d then .invalid 2
        else match r with
          | [] => .cutShort 3
          | e :: _ =>
            if isContinuation e then
              .char (Char.ofNat
                (((b.toNat % 8 * 64 + lowBits c) * 64 + lowBits d) * 64 + lowBits e)) 4
            else .invalid 3

/-- What starts with the byte `b`. -/
def utf8Step (b : UInt8) (r : Bytes) : Utf8Step :=
  if b < 0x80 then .char (Char.ofNat b.toNat) 1
  else if 0xC2 ≤ b && b < 0xE0 then twoBytes b r
  else if b == 0xE0 then threeBytes (fun c => 0xA0 ≤ c && c < 0xC0) b r
  else if b == 0xED then threeBytes (fun c => 0x80 ≤ c && c < 0xA0) b r
  else if 0xE1 ≤ b && b < 0xF0 then threeBytes isContinuation b r
  else if b == 0xF0 then fourBytes (fun c => 0x90 ≤ c && c < 0xC0) b r
  else if 0xF1 ≤ b && b < 0xF4 then fourBytes isContinuation b r
  else if b == 0xF4 then fourBytes (fun c => 0x80 ≤ c && c < 0x90) b r
  else .invalid 1

/-- Why bytes are not a text. -/
inductive Utf8Error where
  | invalid (length index : Nat)
  | cutShort (index : Nat)
  deriving DecidableEq, Repr

/-- The wording of a refusal. -/
def Utf8Error.message : Utf8Error → String
  | .invalid length index => s!"invalid utf-8 sequence of {length} bytes from index {index}"
  | .cutShort index => s!"incomplete utf-8 byte sequence from index {index}"

/-- Decode on; `skip` bytes belong to the character read last, `index` bytes are behind. -/
def decodeFrom (index : Nat) : Nat → Bytes → Except Utf8Error (List Char)
  | _, [] => .ok []
  | skip + 1, _ :: r => decodeFrom (index + 1) skip r
  | 0, b :: r =>
    match utf8Step b r with
    | .char c length => (decodeFrom (index + 1) (length - 1) r).map (c :: ·)
    | .invalid length => .error (.invalid length index)
    | .cutShort _ => .error (.cutShort index)

/-- The text that bytes encode. -/
def decode (bs : Bytes) : Except Utf8Error String := (decodeFrom 0 0 bs).map String.ofList

/-- The characters that bytes encode, with a `none` for each byte that is part of none; `skip`
bytes belong to the character read last. -/
def decodeLoose : Nat → Bytes → List (Option Char)
  | _, [] => []
  | skip + 1, _ :: r => decodeLoose skip r
  | 0, b :: r =>
    match utf8Step b r with
    | .char c length => some c :: decodeLoose (length - 1) r
    | _ => none :: decodeLoose 0 r

end Text

end Gatehouse
