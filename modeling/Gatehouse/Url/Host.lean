import Gatehouse.Net.Ip
import Gatehouse.Text.Utf8
import Gatehouse.Url.Basic

/-!
# Hosts of URLs

A host is a domain name, an IPv4 address in any of its old notations, or an IPv6 address in brackets.
Labels of a domain name outside ASCII are written in Punycode (RFC 3492).
-/

namespace Gatehouse.Url

/-- The bias of Punycode after a delta. -/
def punycodeBias (delta count : Nat) (first : Bool) : Nat :=
  let d := if first then delta / 700 else delta / 2
  let d := d + d / count
  let rec reduce : Nat → Nat → Nat → Nat
    | 0, d, k => k + 36 * d / (d + 38)
    | fuel + 1, d, k => if d > 455 then reduce fuel (d / 35) (k + 36) else k + 36 * d / (d + 38)
  reduce d d 0

/-- A digit of Punycode. -/
def punycodeDigit (n : Nat) : Char :=
  if n < 26 then Char.ofNat ('a'.toNat + n) else Char.ofNat ('0'.toNat + (n - 26))

/-- A delta as an integer of variable length. -/
def punycodeNumber (bias : Nat) : Nat → Nat → Nat → List Char
  | 0, _, q => [punycodeDigit (q % 36)]
  | fuel + 1, k, q =>
    let t := if k ≤ bias then 1 else if k ≥ bias + 26 then 26 else k - bias
    if q < t then [punycodeDigit q]
    else punycodeDigit (t + (q - t) % (36 - t)) ::
      punycodeNumber bias fuel (k + 36) ((q - t) / (36 - t))

/-- The state of the encoder: delta, bias and the number of characters that are written. -/
structure Punycode where
  delta : Nat
  bias : Nat
  handled : Nat
  out : List Char

/-- Go over a label once for the code point `n`. -/
def Punycode.pass (basic n : Nat) (label : List Char) (st : Punycode) : Punycode :=
  let st := label.foldl (fun st c =>
    if c.toNat < n then { st with delta := st.delta + 1 }
    else if c.toNat = n then
      { delta := 0
        bias := punycodeBias st.delta (st.handled + 1) (st.handled == basic)
        handled := st.handled + 1
        out := st.out ++ punycodeNumber st.bias st.delta 36 st.delta }
    else st) st
  { st with delta := st.delta + 1 }

/-- Encode the code points from `n` on; each pass handles at least one character. -/
def punycodeFrom (basic : Nat) (label : List Char) : Nat → Nat → Punycode → List Char
  | 0, _, st => st.out
  | fuel + 1, n, st =>
    match (label.map Char.toNat).filter (· ≥ n) |>.min? with
    | none => st.out
    | some m =>
      punycodeFrom basic label fuel (m + 1)
        (Punycode.pass basic m label { st with delta := st.delta + (m - n) * (st.handled + 1) })

/-- A label in ASCII. -/
def asciiLabel (label : List Char) : List Char :=
  if label.all (·.toNat < 0x80) then label
  else
    let basic := label.filter (·.toNat < 0x80)
    let start := if basic.isEmpty then [] else basic ++ ['-']
    "xn--".toList ++ punycodeFrom basic.length label label.length 0x80
      ⟨0, 72, basic.length, start⟩

/-- The characters that end a label. -/
def isLabelEnd (c : Char) : Bool :=
  c == '.' || c == '\u3002' || c == '\uff0e' || c == '\uff61'

/-- Split where a label ends. -/
def splitLabels : List Char → List (List Char)
  | [] => [[]]
  | c :: r =>
    if isLabelEnd c then [] :: splitLabels r
    else match splitLabels r with
      | [] => [[c]]
      | l :: ls => (c.toLower :: l) :: ls

/-- The characters that may not stand in a host. -/
def isForbiddenInHost (c : Char) : Bool :=
  c == '\x00' || c == '\t' || c == '\n' || c == '\r' || "#/:<>?@[\\]^| ".toList.contains c

/-- The characters that may not stand in a domain name. -/
def isForbiddenInDomain (c : Char) : Bool :=
  isForbiddenInHost c || c.toNat < 0x20 || c == '%' || c == '\x7f'

/-- A number of an IPv4 address: decimal, octal after `0`, hexadecimal after `0x`. -/
def ipv4Number? (s : List Char) : Option Nat :=
  let base (b : Nat) (ds : List Char) : Option Nat :=
    (ds.mapM fun c => (Text.hexDigit? c).filter (· < b)).map (Text.ofDigits b)
  match s with
  | [] => none
  | '0' :: 'x' :: ds => base 16 ds
  | '0' :: 'X' :: ds => base 16 ds
  | '0' :: d :: ds => base 8 (d :: ds)
  | ds => base 10 ds

/-- The labels of a name without an empty last one. -/
def withoutEmptyLast (labels : List (List Char)) : List (List Char) :=
  if labels.length > 1 && labels.getLast? == some [] then labels.dropLast else labels

/-- Must the name be an IPv4 address? Its last label is a number then. -/
def endsInNumber (labels : List (List Char)) : Bool :=
  match (withoutEmptyLast labels).getLast? with
  | none => false
  | some [] => false
  | some l =>
    l.all Char.isDigit ||
      ((l.take 2).map Char.toLower == ['0', 'x'] && (ipv4Number? l).isSome)

/-- The IPv4 address written by labels that are numbers. -/
def ipv4OfLabels? (labels : List (List Char)) : Option Net.Ipv4 := do
  let numbers ← (withoutEmptyLast labels).mapM ipv4Number?
  if numbers.length > 4 then none
  let last ← numbers.getLast?
  if numbers.dropLast.any (· > 255) || last ≥ 1 <<< (8 * (5 - numbers.length)) then none
  let front := (numbers.dropLast.zipIdx).foldl (fun n (x, i) => n + x <<< (8 * (3 - i))) 0
  let n := front + last
  some ⟨UInt8.ofNat (n >>> 24), UInt8.ofNat (n >>> 16), UInt8.ofNat (n >>> 8), UInt8.ofNat n⟩

/-- A domain name or IPv4 address. -/
def parseDomain (s : List Char) : Except ParseError (List Char) :=
  match Text.decode (Text.percentDecode (Text.encode (String.ofList s))) with
  | .error _ => .error .domainName
  | .ok decoded =>
    let labels := (splitLabels decoded.toList).map asciiLabel
    let name := ['.'].intercalate labels
    if name.any isForbiddenInDomain then .error .domainName
    else if name.isEmpty then .error .emptyHost
    else if endsInNumber labels then
      match ipv4OfLabels? labels with
      | some ip => .ok ip.render
      | none => .error .ipv4
    else .ok name

/-- An IPv6 address with its brackets. -/
def parseBracketed (s : List Char) : Except ParseError (List Char) :=
  match Net.readIpv6 s with
  | some (ip, [']']) => .ok ('[' :: (ip.renderPlain ++ [']']))
  | _ => .error .ipv6

/-- The host of a URL with a special scheme. -/
def parseHost (s : List Char) : Except ParseError (List Char) :=
  match s with
  | '[' :: r => parseBracketed r
  | _ => parseDomain s

/-- The host of any other URL. -/
def parsePlainHost (s : List Char) : Except ParseError (List Char) :=
  match s with
  | '[' :: r => parseBracketed r
  | _ =>
    if s.any isForbiddenInHost then .error .hostCharacter
    else .ok (Text.percentEncode (fun c => 0x20 ≤ c.toNat && c.toNat < 0x7F) s)

end Gatehouse.Url
