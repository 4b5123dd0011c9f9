import Gatehouse.Text.Blank
import Gatehouse.Text.Decimal
import Gatehouse.Url.Host

/-!
# Reading URLs

The parser of the URL standard for absolute URLs. It is forgiving: controls at the ends and tabs and
line breaks anywhere are dropped, dots in paths are resolved, and what may not stand as it is gets
percent-encoded.
-/

namespace Gatehouse.Url

/-- Is the character printable ASCII or a blank? -/
def isPlain (c : Char) : Bool := 0x20 ≤ c.toNat && c.toNat < 0x7F

/-- The characters that stand for themselves in a fragment. -/
def keepInFragment (c : Char) : Bool := isPlain c && !" \"<>`".toList.contains c

/-- The characters that stand for themselves in a path. -/
def keepInPath (c : Char) : Bool := keepInFragment c && !"#?^\x7b\x7d".toList.contains c

/-- The characters that stand for themselves in names and passwords. -/
def keepInCredentials (c : Char) : Bool := keepInPath c && !"/:;=@[\\]|".toList.contains c

/-- The characters that stand for themselves in a query. -/
def keepInQuery (special : Bool) (c : Char) : Bool :=
  isPlain c && !" \"#<>".toList.contains c && !(special && c == '\'')

/-- A scheme and what follows its colon. -/
def splitScheme (s : List Char) : Option (List Char × List Char) :=
  match Text.cutAt ':' s with
  | some (c :: scheme, rest) =>
    if c.isAlpha && scheme.all fun c => c.isAlphanum || c == '+' || c == '-' || c == '.' then
      some ((c :: scheme).map Char.toLower, rest)
    else none
  | _ => none

/-- Does the character end a host or a segment of a path? -/
def isSlash (special : Bool) (c : Char) : Bool := c == '/' || (special && c == '\\')

/-- Does the character end the part from host to port? -/
def endsAuthority (special : Bool) (c : Char) : Bool := isSlash special c || c == '?' || c == '#'

/-- Split behind the last `@`. -/
def splitCredentials (s : List Char) : List Char × List Char :=
  let host := (s.reverse.takeWhile (· != '@')).reverse
  (s.take (s.length - host.length), host)

/-- Split a host from the colon of its port; colons in brackets are part of the host. -/
def splitPort : Bool → List Char → List Char × Option (List Char)
  | _, [] => ([], none)
  | inside, c :: r =>
    if c == ':' && !inside then ([], some r)
    else
      let inside := if c == '[' then true else if c == ']' then false else inside
      let (host, port) := splitPort inside r
      (c :: host, port)

/-- A port; the default one of the scheme is left out. -/
def parsePort (scheme : List Char) : Option (List Char) → Except ParseError (Option Nat)
  | none => .ok none
  | some [] => .ok none
  | some ds =>
    match Text.natural? ds with
    | some n =>
      if n > 65535 then .error .port
      else .ok (if defaultPort? scheme = some n then none else some n)
    | none => .error .port

/-- Is the segment a dot, which stands for nothing? -/
def isDot (s : List Char) : Bool := s.map Char.toLower == ['.'] || s.map Char.toLower == "%2e".toList

/-- Is the segment a pair of dots, which takes back the segment before? -/
def isDotDot (s : List Char) : Bool :=
  ["..", ".%2e", "%2e.", "%2e%2e"].any fun d => s.map Char.toLower == d.toList

/-- The segments of a path with its dots resolved; `done` is in reverse. -/
def resolve (done : List (List Char)) : List (List Char) → List (List Char)
  | [] => done.reverse
  | [last] =>
    if isDotDot last then ([] :: done.drop 1).reverse
    else if isDot last then ([] :: done).reverse
    else (last :: done).reverse
  | s :: r =>
    if isDotDot s then resolve (done.drop 1) r
    else if isDot s then resolve done r
    else resolve (s :: done) r

/-- The path written by the text after its first slash. -/
def parseSegments (special : Bool) (s : List Char) : UrlPath :=
  .segments ((resolve [] (Text.splitWhere (isSlash special) s)).map
    (Text.percentEncode keepInPath))

/-- Split off query and fragment. -/
def splitTail (s : List Char) : List Char × Option (List Char) × Option (List Char) :=
  let body := s.takeWhile (· != '#')
  let fragment := match s.dropWhile (· != '#') with
    | [] => none
    | _ :: f => some f
  match Text.cutAt '?' body with
  | some (path, query) => (path, some query, fragment)
  | none => (body, none, fragment)

/-- Set path, query and fragment from the text behind the host. -/
def withTail (special : Bool) (u : Url) (path : List Char → UrlPath) (s : List Char) : Url :=
  let (p, query, fragment) := splitTail s
  { u with
    path := path p
    query := query.map (Text.percentEncode (keepInQuery special))
    fragment := fragment.map (Text.percentEncode keepInFragment) }

/-- The path behind a host: it starts with a slash, given or not, unless it is empty. -/
def pathAfterHost (special : Bool) : List Char → UrlPath
  | [] => if special then .segments [[]] else .segments []
  | c :: r => parseSegments special (if isSlash special c then r else c :: r)

/-- The rest of a URL from its host on. -/
def parseFromHost (scheme s : List Char) : Except ParseError Url := do
  let special := isSpecial scheme
  let authority := s.takeWhile fun c => !endsAuthority special c
  let rest := s.dropWhile fun c => !endsAuthority special c
  let (credentials, hostPort) := splitCredentials authority
  let (hostText, portText) := splitPort false hostPort
  if hostText.isEmpty && (defaultPort? scheme).isSome then throw .emptyHost
  if hostText.isEmpty && (portText.isSome || !credentials.isEmpty) then throw .emptyHost
  let host ← if hostText.isEmpty then pure []
    else if special then parseHost hostText else parsePlainHost hostText
  let port ← parsePort scheme portText
  let (username, password) := match Text.cutAt ':' credentials.dropLast with
    | some (name, word) => (name, word)
    | none => (credentials.dropLast, [])
  let u : Url :=
    { scheme, port, host := some host
      username := Text.percentEncode keepInCredentials username
      password := Text.percentEncode keepInCredentials password }
  return withTail special u (pathAfterHost special) rest

/-- Drop controls and blanks at the ends, and tabs and line breaks anywhere. -/
def cleaned (s : List Char) : List Char :=
  (Text.trimWhere (·.toNat ≤ 0x20) s).filter fun c => c != '\t' && c != '\n' && c != '\r'

/-- Read an absolute URL. -/
def parse (text : String) : Except ParseError Url :=
  match splitScheme (cleaned text.toList) with
  | none => .error .relative
  | some (scheme, rest) =>
    let special := isSpecial scheme
    if (defaultPort? scheme).isSome then
      parseFromHost scheme (rest.dropWhile (isSlash special))
    else match rest with
      | '/' :: '/' :: r => parseFromHost scheme r
      | '/' :: r => .ok (withTail special { scheme } (parseSegments special) r)
      | r =>
        if special then .ok (withTail special { scheme, host := some [] } (parseSegments special) r)
        else .ok (withTail special { scheme }
          (fun p => .rootless (Text.percentEncode isPlain p)) r)

end Gatehouse.Url
