import Gatehouse.Json.Basic
import Gatehouse.Text.Utf8

/-!
# HTTP messages

Requests and answers as far as the clients and the webhook endpoint look at them.
-/

namespace Gatehouse.Http

/-- Header fields in order; names may repeat. -/
abbrev Headers := List (String × Bytes)

/-- Are two names equal but for the case of ASCII letters? -/
def sameName (a b : String) : Bool := a.toLower == b.toLower

/-- The value of the first field of a name. -/
def Headers.find? (h : Headers) (name : String) : Option Bytes :=
  (List.find? (fun field => sameName field.1 name) h).map Prod.snd

/-- The value of a field as text: only visible ASCII characters, blanks and tabs have one. -/
def valueText? (value : Bytes) : Option String :=
  if value.all fun b => (0x20 ≤ b && b < 0x7F) || b == 0x09 then
    some (String.ofList (value.map fun b => Char.ofNat b.toNat))
  else none

/-- The text of the first field of a name. -/
def Headers.text? (h : Headers) (name : String) : Option String := (h.find? name).bind valueText?

/-- May the bytes stand in a header field? -/
def isFieldValue (value : Bytes) : Bool := value.all fun b => (0x20 ≤ b && b != 0x7F) || b == 0x09

/-- The methods in use. -/
inductive Method where
  | get
  | post
  | put
  | patch
  | delete
  deriving DecidableEq, Repr

/-- The name of a method. -/
def Method.name : Method → String
  | .get => "GET"
  | .post => "POST"
  | .put => "PUT"
  | .patch => "PATCH"
  | .delete => "DELETE"

/-- A request with a JSON body or none; the URL is absolute and normalized. -/
structure Request where
  method : Method
  url : String
  headers : Headers
  body : Option Json

/-- An answer. -/
structure Response where
  status : Nat
  headers : Headers := []
  body : String := ""
  deriving DecidableEq

/-- Does the status tell of success? -/
def Response.isSuccess (r : Response) : Bool := 200 ≤ r.status && r.status < 300

end Gatehouse.Http
