import Gatehouse.Git.Error
import Gatehouse.Json.Scan
import Gatehouse.Text.Utf8

/-!
# Bodies of webhook deliveries

Providers deliver events as documents in UTF-8. A body that is no such document, or not one of the
kind that is expected, is malformed.
-/

namespace Gatehouse.Git

/-- Read a body as a document. Bytes that are part of no character make a string unreadable, which
does no harm where nobody looks at it. -/
def readBody {α : Type} (read : Json → Option α) (body : Bytes) : Except Error α :=
  match Json.read? (Text.decodeLoose 0 body) >>= read with
  | some a => .ok a
  | none => .error .malformed

end Gatehouse.Git
