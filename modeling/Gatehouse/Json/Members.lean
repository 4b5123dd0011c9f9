import Gatehouse.Json.Record
import Gatehouse.Table

/-!
# Reading members

A lenient reading of objects: a member may be `null` or left out, and may be repeated, in which case
every one must be readable and the last one counts. Unknown members are passed over.
-/

namespace Gatehouse.Json

/-- The members of an object. -/
def members? : Json → Option (List (String × Json))
  | .obj members => some members
  | _ => none

/-- The value of a member. -/
def memberOf {α : Type} (members : List (String × Json)) (name : String)
    (read : Json → Option α) : Option (Option α) := do
  let given ← (members.filter (·.1 == name)).mapM fun m => nullable? read m.2
  some (given.getLast?.join)

/-- An object of texts. -/
def textTable? (v : Json) : Option (Table String String) := do
  let members ← v.members?
  let entries ← members.mapM fun m => m.2.text?.map fun s => (m.1, s)
  some (Table.ofList entries)

/-- A table of texts as an object. -/
def ofTextTable (t : Table String String) : Json := .obj (t.entries.map fun e => (e.1, .str e.2))

end Gatehouse.Json
