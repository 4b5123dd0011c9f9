import Gatehouse.Json.Basic

/-!
# Merge patches

A merge patch is a document that says how another one changes: an object in the patch is merged into
the object it meets member by member, `null` takes a member away, and anything else takes the
place of what was there.
-/

namespace Gatehouse.Json

/-- Is there a member of that name? -/
def hasMember (name : String) (members : List (String × Json)) : Bool :=
  members.any (·.1 == name)

/-- The members without those of a name. -/
def dropMember (name : String) (members : List (String × Json)) : List (String × Json) :=
  members.filter (·.1 != name)

/-- Give the member of a name a value, in its place if it is there and else at the end. -/
def putMember (name : String) (v : Json) (members : List (String × Json)) :
    List (String × Json) :=
  if hasMember name members then members.map fun m => if m.1 == name then (name, v) else m
  else members ++ [(name, v)]

/-- The members of an object; anything else counts as an object without members. -/
def membersOf : Json → List (String × Json)
  | .obj members => members
  | _ => []

mutual

/-- The document that a patch makes of another one. -/
def mergePatch (target : Json) : Json → Json
  | .obj patch => .obj (mergeMembers (membersOf target) patch)
  | v => v

/-- The members that the members of a patch make of others. -/
def mergeMembers (members : List (String × Json)) :
    List (String × Json) → List (String × Json)
  | [] => members
  | (name, .null) :: patch => mergeMembers (dropMember name members) patch
  | (name, v) :: patch =>
    let old := (members.lookup name).getD .null
    mergeMembers (putMember name (mergePatch old v) members) patch

end

end Gatehouse.Json
