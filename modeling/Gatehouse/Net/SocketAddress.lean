import Gatehouse.Net.Ip

/-!
# Socket addresses

An address and a port as text: `1.2.3.4:80`, `[::1]:80` or `[fe80::1%3]:80`.
-/

namespace Gatehouse.Net

/-- An address and a port; the scope of an IPv6 address is 0 if it has none. -/
inductive SocketAddress where
  | v4 (ip : Ipv4) (port : UInt16)
  | v6 (ip : Ipv6) (scope : UInt32) (port : UInt16)
  deriving DecidableEq

namespace SocketAddress

/-- A number in decimal below a bound, with any leading zeros. -/
def readBelow (bound : Nat) (s : List Char) : Option (Nat × List Char) := do
  let ds := s.takeWhile Char.isDigit
  let n ← Text.natural? ds
  if n < bound then some (n, s.drop ds.length) else none

/-- A colon and a port, up to the end. -/
def readPort (s : List Char) : Option UInt16 := do
  let s ← readChar ':' s
  let (port, rest) ← readBelow UInt16.size s
  if rest.isEmpty then some (UInt16.ofNat port) else none

/-- A percent sign and a scope, or nothing. -/
def readScope (s : List Char) : Option (UInt32 × List Char) :=
  match s with
  | '%' :: r => (readBelow UInt32.size r).map fun (n, rest) => (UInt32.ofNat n, rest)
  | s => some (0, s)

/-- An IPv4 address and a port. -/
def parseV4 (s : List Char) : Option SocketAddress := do
  let (ip, s) ← readIpv4 s
  let port ← readPort s
  some (.v4 ip port)

/-- An IPv6 address in brackets and a port. -/
def parseV6 (s : List Char) : Option SocketAddress := do
  let s ← readChar '[' s
  let (ip, s) ← readIpv6 s
  let (scope, s) ← readScope s
  let s ← readChar ']' s
  let port ← readPort s
  some (.v6 ip scope port)

/-- The address written by a text. -/
def parse? (s : String) : Option SocketAddress := parseV4 s.toList <|> parseV6 s.toList

/-- The text of an address. -/
def render : SocketAddress → String
  | .v4 ip port => String.ofList (ip.render ++ ':' :: (toString port.toNat).toList)
  | .v6 ip scope port =>
    let scopePart := if scope = 0 then [] else '%' :: (toString scope.toNat).toList
    String.ofList ('[' :: (ip.render ++ scopePart ++ ']' :: ':' :: (toString port.toNat).toList))

end SocketAddress

end Gatehouse.Net
