import Gatehouse.Json.MergePatch

/-!
# Merging one member

A patch with a single member changes the member of its name and no other (`member_mergePatch`). A
path of names is changed by going down it, one patch with a single member inside the other.
-/

namespace Gatehouse.Json

variable {d v : Json} {name other : String} {members : List (String × Json)}

/-- The member of a name, and `null` if there is none. -/
def member (name : String) (d : Json) : Json := ((membersOf d).lookup name).getD .null

theorem lookup_putMember_self (name : String) (v : Json) (members : List (String × Json)) :
    (putMember name v members).lookup name = some v := by
  unfold putMember
  cases there : hasMember name members with
  | true =>
    rw [if_pos rfl]
    induction members with
    | nil => cases there
    | cons m rest ih =>
      obtain ⟨n, w⟩ := m
      by_cases here : n = name
      · simp [here]
      · have further : hasMember name rest = true := by simpa [hasMember, here] using there
        have next : (name == n) = false := by simpa using Ne.symm here
        simpa [List.lookup_cons, here, next] using ih further
  | false =>
    have missing : members.lookup name = none := by
      rw [List.lookup_eq_none_iff]
      intro m member
      have others : m.1 ≠ name := by simpa using List.any_eq_false.mp there m member
      simpa using Ne.symm others
    simp [List.lookup_append, missing]

theorem lookup_putMember_of_ne (different : other ≠ name) (v : Json)
    (members : List (String × Json)) :
    (putMember name v members).lookup other = members.lookup other := by
  have elsewhere : (other == name) = false := by simpa using different
  unfold putMember
  split
  · rename_i there
    clear there
    induction members with
    | nil => rfl
    | cons m rest ih =>
      obtain ⟨n, w⟩ := m
      by_cases here : n = name
      · subst here
        simpa [List.lookup_cons, elsewhere] using ih
      · rw [List.map_cons, if_neg (by simpa using here), List.lookup_cons, List.lookup_cons, ih]
  · simp [List.lookup_append, List.lookup_cons, elsewhere]

theorem lookup_dropMember (different : other ≠ name) (members : List (String × Json)) :
    (dropMember name members).lookup other = members.lookup other := by
  unfold dropMember
  induction members with
  | nil => rfl
  | cons m rest ih =>
    obtain ⟨n, w⟩ := m
    by_cases here : n = name
    · subst here
      have elsewhere : (other == n) = false := by simpa using different
      simp [List.lookup_cons, elsewhere, ih]
    · simp [here, List.lookup_cons, ih]

theorem mergePatch_single (something : v ≠ .null) :
    mergePatch d (.obj [(name, v)]) =
      .obj (putMember name (mergePatch (member name d) v) (membersOf d)) := by
  cases v <;> simp_all [mergePatch, mergeMembers, member]

/-- The member that a patch names is merged. -/
theorem member_mergePatch (something : v ≠ .null) :
    member name (mergePatch d (.obj [(name, v)])) = mergePatch (member name d) v := by
  rw [mergePatch_single something, member, membersOf, lookup_putMember_self, Option.getD_some]

/-- The other members stay as they are. -/
theorem member_mergePatch_of_ne (different : other ≠ name) :
    member other (mergePatch d (.obj [(name, v)])) = member other d := by
  by_cases nothing : v = .null
  · rw [nothing, mergePatch, mergeMembers, mergeMembers, member, membersOf,
      lookup_dropMember different, member]
  · rw [mergePatch_single nothing, member, membersOf, lookup_putMember_of_ne different, member]

end Gatehouse.Json
