import Gatehouse.Text.Decimal
import Gatehouse.Text.Hex

/-!
# Internet addresses

IPv4 and IPv6 addresses as text. A reader takes what it knows from the front of a text and gives the
rest.
-/

namespace Gatehouse.Net

/-- An IPv4 address. -/
structure Ipv4 where
  a : UInt8
  b : UInt8
  c : UInt8
  d : UInt8
  deriving DecidableEq, Repr

/-- An IPv6 address: eight groups of 16 bits. -/
structure Ipv6 where
  groups : Vector UInt16 8
  deriving DecidableEq

/-- One given character. -/
def readChar (c : Char) : List Char → Option (List Char)
  | d :: r => if c = d then some r else none
  | [] => none

/-- A byte in decimal, without leading zeros. -/
def readByte (s : List Char) : Option (UInt8 × List Char) :=
  let ds := s.takeWhile Char.isDigit
  if ds.isEmpty ∨ ds.length > 3 ∨ (ds.head? = some '0' ∧ ds.length > 1) then none
  else do
    let n ← Text.natural? ds
    if n < 256 then some (UInt8.ofNat n, s.drop ds.length) else none

/-- A group in hexadecimal, of one to four digits. -/
def readGroup (s : List Char) : Option (UInt16 × List Char) :=
  let ds := s.takeWhile fun c => (Text.hexDigit? c).isSome
  if ds.isEmpty ∨ ds.length > 4 then none
  else (ds.mapM Text.hexDigit?).map fun ns => (UInt16.ofNat (Text.ofDigits 16 ns), s.drop ds.length)

/-- An IPv4 address: four bytes with points between them. -/
def readIpv4 (s : List Char) : Option (Ipv4 × List Char) := do
  let (a, s) ← readByte s
  let (b, s) ← readChar '.' s >>= readByte
  let (c, s) ← readChar '.' s >>= readByte
  let (d, s) ← readChar '.' s >>= readByte
  some (⟨a, b, c, d⟩, s)

/-- The two groups that an IPv4 address makes at the end of an IPv6 address. -/
def Ipv4.groups (ip : Ipv4) : List UInt16 :=
  [ip.a.toUInt16 * 256 + ip.b.toUInt16, ip.c.toUInt16 * 256 + ip.d.toUInt16]

/-- Up to `room` groups with colons between them; the last two may be an IPv4 address, which ends
them. Gives whether there was one. -/
def readGroups : Nat → Bool → List Char → List UInt16 × Bool × List Char
  | 0, _, s => ([], false, s)
  | room + 1, first, s =>
    match if first then some s else readChar ':' s with
    | none => ([], false, s)
    | some start =>
      match if room = 0 then none else readIpv4 start with
      | some (ip, rest) => (ip.groups, true, rest)
      | none =>
        match readGroup start with
        | none => ([], false, s)
        | some (g, rest) =>
          let (gs, ended, rest) := readGroups room false rest
          (g :: gs, ended, rest)

/-- The address with the given groups, missing ones being zero. -/
def Ipv6.ofGroups (gs : List UInt16) : Ipv6 := ⟨Vector.ofFn fun i => gs.getD i 0⟩

/-- An IPv6 address; `::` stands for one or more groups of zeros. -/
def readIpv6 (s : List Char) : Option (Ipv6 × List Char) :=
  let (front, ended, rest) := readGroups 8 true s
  if front.length = 8 then some (.ofGroups front, rest)
  else if ended then none
  else do
    let rest ← readChar ':' rest >>= readChar ':'
    let (back, _, rest) := readGroups (7 - front.length) true rest
    some (.ofGroups (front ++ List.replicate (8 - front.length - back.length) 0 ++ back), rest)

/-- A number in hexadecimal, in lower case and without leading zeros. -/
def hexLower (n : Nat) : List Char := Nat.toDigits 16 n

/-- The text of an IPv4 address. -/
def Ipv4.render (ip : Ipv4) : List Char :=
  s!"{ip.a.toNat}.{ip.b.toNat}.{ip.c.toNat}.{ip.d.toNat}".toList

/-- The length of the run of zeros at the front. -/
def zeroRun (gs : List UInt16) : Nat := (gs.takeWhile (· == 0)).length

/-- Start and length of the longest run of zeros; the first of equals. -/
def longestZeros (gs : List UInt16) : Nat × Nat :=
  (List.range gs.length).foldl
    (fun best i => if zeroRun (gs.drop i) > best.2 then (i, zeroRun (gs.drop i)) else best) (0, 0)

/-- Groups with colons between them. -/
def renderGroups (gs : List UInt16) : List Char :=
  [':'].intercalate (gs.map fun g => hexLower g.toNat)

/-- The text of an IPv6 address: `::` for the longest run of at least two groups of zeros. -/
def Ipv6.renderPlain (ip : Ipv6) : List Char :=
  let gs := ip.groups.toList
  let (start, length) := longestZeros gs
  if length > 1 then
    renderGroups (gs.take start) ++ ':' :: ':' :: renderGroups (gs.drop (start + length))
  else renderGroups gs

/-- The text of an IPv6 address, with the IPv4 notation for addresses that stand for one. -/
def Ipv6.render (ip : Ipv6) : List Char :=
  match ip.groups.toList with
  | [0, 0, 0, 0, 0, 0xffff, g, h] =>
    "::ffff:".toList ++
      Ipv4.render ⟨UInt8.ofNat (g.toNat / 256), UInt8.ofNat (g.toNat % 256),
        UInt8.ofNat (h.toNat / 256), UInt8.ofNat (h.toNat % 256)⟩
  | _ => ip.renderPlain

end Gatehouse.Net
