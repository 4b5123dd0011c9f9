import Gatehouse.Text.Percent

/-!
# URLs

A URL in its parts, each in its written form: percent-encoded where it has to be. `render` writes it down
as the URL standard has it.
-/

namespace Gatehouse

/-- The path of a URL: segments after slashes, or a text that no slash starts. -/
inductive UrlPath where
  | segments (s : List (List Char))
  | rootless (s : List Char)
  deriving DecidableEq

/-- A URL. -/
structure Url where
  scheme : List Char
  username : List Char := []
  password : List Char := []
  host : Option (List Char) := none
  port : Option Nat := none
  path : UrlPath := .segments []
  query : Option (List Char) := none
  fragment : Option (List Char) := none
  deriving DecidableEq

namespace Url

/-- Why a text is not a URL. -/
inductive ParseError where
  | emptyHost
  | domainName
  | port
  | ipv4
  | ipv6
  | hostCharacter
  | relative
  deriving DecidableEq, Repr

/-- The wording of a refusal. -/
def ParseError.message : ParseError → String
  | .emptyHost => "empty host"
  | .domainName => "invalid international domain name"
  | .port => "invalid port number"
  | .ipv4 => "invalid IPv4 address"
  | .ipv6 => "invalid IPv6 address"
  | .hostCharacter => "invalid domain character"
  | .relative => "relative URL without a base"

/-- The port that a scheme uses when none is given; schemes that have one are the special ones. -/
def defaultPort? (scheme : List Char) : Option Nat :=
  match String.ofList scheme with
  | "http" => some 80
  | "ws" => some 80
  | "https" => some 443
  | "wss" => some 443
  | "ftp" => some 21
  | _ => none

/-- Do backslashes count as slashes and is a host required? -/
def isSpecial (scheme : List Char) : Bool :=
  (defaultPort? scheme).isSome || scheme == "file".toList

/-- The text of a path. -/
def renderPath : UrlPath → List Char
  | .segments ss => ss.flatMap fun s => '/' :: s
  | .rootless s => s

/-- The name and password in front of a host. -/
def renderCredentials (u : Url) : List Char :=
  if u.username.isEmpty && u.password.isEmpty then []
  else u.username ++ (if u.password.isEmpty then [] else ':' :: u.password) ++ ['@']

/-- The text from the host to the path; a path that would pass for a host is kept apart by `/.`. -/
def renderHostAndPath (u : Url) : List Char :=
  match u.host with
  | some h =>
    '/' :: '/' :: (renderCredentials u ++ h ++
      (match u.port with
        | some p => ':' :: (toString p).toList
        | none => []) ++ renderPath u.path)
  | none =>
    match u.path with
    | .segments ([] :: _ :: _) => '/' :: '.' :: renderPath u.path
    | _ => renderPath u.path

/-- A part with the character that starts it, if there is one. -/
def renderPart (mark : Char) : Option (List Char) → List Char
  | some s => mark :: s
  | none => []

/-- The characters of a URL. -/
def chars (u : Url) : List Char :=
  u.scheme ++ ':' :: (renderHostAndPath u ++ renderPart '?' u.query ++ renderPart '#' u.fragment)

/-- The text of a URL. -/
def render (u : Url) : String := String.ofList u.chars

/-- The URL without name and password. -/
def withoutCredentials (u : Url) : Url := { u with username := [], password := [] }

/-- Append a pair to the query; both texts must stand for themselves there. -/
def appendQuery (u : Url) (key value : List Char) : Url :=
  { u with
    query := some (match u.query with
      | none => key ++ '=' :: value
      | some [] => key ++ '=' :: value
      | some q => q ++ '&' :: (key ++ '=' :: value)) }

end Url

end Gatehouse
