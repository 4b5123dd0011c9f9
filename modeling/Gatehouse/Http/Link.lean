import Gatehouse.Http.Message
import Gatehouse.Text.Blank

/-!
# Link headers

The entries of a `Link` header: `<url>; rel="words"`, separated by commas. An entry without a
bracketed URL or without a relation is passed over.
-/

namespace Gatehouse.Http

open Text

/-- A link and its relation to the answer it came with. -/
structure Link where
  url : String
  rel : String
  deriving DecidableEq, Repr

namespace Link

/-- The relation given by one parameter of an entry, if it gives one. -/
def relation? (parameter : List Char) : Option (List Char) :=
  match cutAt '=' (trim parameter) with
  | some (key, value) =>
    if trim key = "rel".toList then some (trimWhere (· == '"') (trim value)) else none
  | none => none

/-- The link of one entry. -/
def ofEntry? (entry : List Char) : Option Link :=
  match splitOn ';' entry with
  | [] => none
  | target :: parameters => do
    let url ← dropFront? ['<'] (trim target) >>= dropBack? '>'
    let rel ← parameters.findSome? relation?
    some ⟨String.ofList url, String.ofList rel⟩

/-- The links of a header's text. -/
def parse (value : String) : List Link := (splitOn ',' value.toList).filterMap ofEntry?

/-- Does the link lead to the next page? -/
def isNext (l : Link) : Bool := (words l.rel.toList).contains "next".toList

/-- The URL of the next page, as the header fields of an answer give it. -/
def next? (headers : Headers) : Option String := do
  let value ← headers.text? "link"
  ((parse value).find? isNext).map (·.url)

end Link

end Gatehouse.Http
