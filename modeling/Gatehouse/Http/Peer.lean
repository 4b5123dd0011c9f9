import Gatehouse.Git.Error
import Gatehouse.Http.Link
import Gatehouse.Json.Record
import Gatehouse.Json.Scan
import Gatehouse.Url.Parser

/-!
# Talking to an HTTP peer

A peer is what it will answer, in order, and what it was sent so far. A request that cannot be made
or is not answered fails, and so does an answer whose status tells of no success; every kind of
failure has its own error. Listings come in pages, and each page names the next one in its `Link`
header. Main statement: a request that succeeds takes one answer off the peer's script, so reading
pages comes to an end.
-/

namespace Gatehouse.Http

/-- A peer: does it take connections, what will it answer (`none` closes the connection), and what
was it sent? An answer is what a request comes to in the end, after all redirections that the HTTP
library follows on its own. A script that is used up closes every connection. -/
structure Peer where
  /-- Does it take a connection, by whether that must be secret? -/
  connects : Bool → Bool := fun _ => true
  script : List (Option Response) := []
  sent : List Request := []

/-- A computation that talks to a peer and may fail. -/
abbrev Call (α : Type) : Type := ExceptT Git.Error (StateM Peer) α

/-- Deliver a request. A connection that cannot be made leaves no trace. -/
def Peer.deliver (p : Peer) (secret : Bool) (r : Request) : Option Response × Peer :=
  if p.connects secret then
    let p := { p with sent := p.sent ++ [r] }
    match p.script with
    | [] => (none, p)
    | answer :: rest => (answer, { p with script := rest })
  else (none, p)

/-- The seconds a rate limit lasts if the answer does not say. -/
def defaultResetSeconds : Int := 60

/-- The integer in the first field that has one of the given names. -/
def integerField? (headers : Headers) (names : List String) : Option Int := do
  let value ← names.findSome? headers.find?
  let text ← valueText? value
  Text.int64? (Text.trim text.toList)

/-- When the rate limit ends that an answer tells of, in seconds since the start of 1970; `none` if
it tells of none. The end by default is computed whether it is needed or not. -/
def rateLimitReset? (now : Int) (r : Response) : Except Git.Error (Option Int) := do
  let exhausted :=
    integerField? r.headers ["x-ratelimit-remaining", "ratelimit-remaining"] == some 0
  if r.status == 429 || (r.status == 403 && exhausted) then
    let told ← match integerField? r.headers ["x-ratelimit-reset", "ratelimit-reset"] with
      | some reset => pure (some reset)
      | none => (integerField? r.headers ["retry-after"]).mapM fun s => Git.checked (now + s)
    let latest ← Git.checked (now + defaultResetSeconds)
    return some (told.getD latest)
  else return none

/-- What an answer means for the caller. -/
def outcome (now : Int) (method : Method) (url : String) (r : Response) :
    Except Git.Error Response :=
  if r.isSuccess then .ok r
  else match rateLimitReset? now r with
    | .error e => .error e
    | .ok (some reset) => .error (.rateLimited reset s!"code {r.status}")
    | .ok none =>
      let message := s!"[{method.name}] {url}: {r.body}"
      if r.status == 404 then .error (.notFound message) else .error (.api r.status message)

/-- The URL that a request goes to: one with a host, over HTTP, without name and password. -/
def target? (url : String) : Except Git.Error Url :=
  match Url.parse url with
  | .error _ => .error (.request "builder error")
  | .ok u =>
    let u := u.withoutCredentials
    if (u.host.getD []).isEmpty || !(["http".toList, "https".toList].contains u.scheme) then
      .error (.request s!"builder error for url ({u.render})")
    else .ok u

/-- The request for a URL, with the header fields of a client. -/
def requestFor (headers : Headers) (method : Method) (u : Url) (body : Option Json) : Request :=
  let json := if body.isSome then [("content-type", Text.encode "application/json")] else []
  { method, body
    url := { u with fragment := none }.render
    headers := headers ++ json ++ [("user-agent", Text.encode "prflow")] }

/-- Send one request, and give the answer if it tells of success. -/
def send (headers : Headers) (now : Int) (method : Method) (url : String) (body : Option Json) :
    Call Response := fun p =>
  match target? url with
  | .error e => (.error e, p)
  | .ok u =>
    match p.deliver (u.scheme == "https".toList) (requestFor headers method u body) with
    | (none, p) => (.error (.request s!"error sending request for url ({u.render})"), p)
    | (some r, p) => (outcome now method url r, p)

/-- Read the body of an answer. -/
def readBody {α : Type} (read : Json → Option α) (r : Response) : Except Git.Error α :=
  match Json.parse? r.body >>= read with
  | some a => .ok a
  | none => .error .malformed

/-- Get a document. -/
def getJson {α : Type} (headers : Headers) (now : Int) (read : Json → Option α) (url : String) :
    Call α := do
  let r ← send headers now .get url none
  (readBody read r : Except Git.Error α)

/-- The number of items asked for on a page. -/
def pageSize : Nat := 100

/-- The URL of the first page of a listing. -/
def withPageSize (url : String) : Except Git.Error String :=
  match Url.parse url with
  | .error e => .error (.request e.message)
  | .ok u => .ok (u.appendQuery "per_page".toList (toString pageSize).toList).render

theorem deliver_some {p : Peer} {secret : Bool} {r : Request} {a : Response}
    (h : (p.deliver secret r).1 = some a) :
    (p.deliver secret r).2.script.length + 1 = p.script.length := by
  unfold Peer.deliver at h ⊢
  cases hs : p.script with
  | nil => split at h <;> simp_all
  | cons answer rest => split at h <;> simp_all

theorem send_ok {headers : Headers} {now : Int} {method : Method} {url : String}
    {body : Option Json} {p p' : Peer} {r : Response}
    (h : send headers now method url body p = (.ok r, p')) :
    p'.script.length < p.script.length := by
  unfold send at h
  split at h
  · exact absurd h (by rintro ⟨⟩)
  · split at h
    · exact absurd h (by rintro ⟨⟩)
    · rename_i hd
      have hs := deliver_some (congrArg Prod.fst hd)
      rw [hd] at hs
      have hp : _ = p' := congrArg Prod.snd h
      exact hp ▸ Nat.lt_of_succ_le (Nat.le_of_eq hs)

/-- Get a page and all pages after it, and give their items in order. -/
def collect {α : Type} (headers : Headers) (now : Int) (read : Json → Option (List α))
    (url : String) (p : Peer) : Except Git.Error (List α) × Peer :=
  match _h : send headers now .get url none p with
  | (.error e, p') => (.error e, p')
  | (.ok r, p') =>
    match readBody read r with
    | .error e => (.error e, p')
    | .ok page =>
      match Link.next? r.headers with
      | none => (.ok page, p')
      | some next =>
        match collect headers now read next p' with
        | (.ok more, p'') => (.ok (page ++ more), p'')
        | (.error e, p'') => (.error e, p'')
termination_by p.script.length
decreasing_by exact send_ok _h

/-- Get all items of a listing. -/
def getAll {α : Type} (headers : Headers) (now : Int) (read : Json → Option α) (url : String) :
    Call (List α) := do
  let first ← (withPageSize url : Except Git.Error String)
  (fun p => collect headers now (Json.list? read) first p)

/-- Run a call and give what it ended with as a value. -/
def attempt {α : Type} (call : Call α) : Call (Except Git.Error α) := fun p =>
  let (outcome, p) := call p
  (.ok outcome, p)

/-- The text without slashes at its end. -/
def withoutLastSlashes (s : String) : String :=
  String.ofList (s.toList.reverse.dropWhile (· == '/')).reverse

/-- The header fields of a client: what it accepts, and its token if it has one. -/
def clientHeaders (accept : String) : Option String → Except Git.Error Headers
  | none => .ok [("accept", Text.encode accept)]
  | some token =>
    let value := Text.encode ("Bearer " ++ token)
    if isFieldValue value then .ok [("accept", Text.encode accept), ("authorization", value)]
    else .error (.request "invalid token: failed to parse header value")

end Gatehouse.Http
