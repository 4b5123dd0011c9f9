import Gatehouse.Json.Record
import Gatehouse.Proofs.Json.MergePatch

/-!
# Records in patched documents

A record that is written as an object is read by the names of its fields, each of which may be there
once at most. A patch keeps it that way, and the value that it leaves in a field depends only on
what the patch and the document have under the name of that field (`member_mergePatch_obj`).
-/

namespace Gatehouse.Json

variable {α : Type} {d v : Json} {name other : String} {names : List String}
  {members patch : List (String × Json)} {f : Fields} {read : Json → Option α}

/-! Patches with any members. -/

@[simp] theorem mergePatch_null (d : Json) : mergePatch d .null = .null := by simp [mergePatch]

theorem mergePatch_obj_ne_null (d : Json) (patch : List (String × Json)) :
    mergePatch d (.obj patch) ≠ .null := by
  simp [mergePatch]

theorem mergeMembers_cons_null :
    mergeMembers members ((name, .null) :: patch) =
      mergeMembers (dropMember name members) patch := by
  simp [mergeMembers]

theorem mergeMembers_cons (something : v ≠ .null) :
    mergeMembers members ((name, v) :: patch) =
      mergeMembers (putMember name (mergePatch (member name (.obj members)) v) members) patch := by
  cases v <;> simp_all [mergeMembers, member, membersOf]

@[simp] theorem member_putMember (name : String) (v : Json) (members : List (String × Json)) :
    member name (.obj (putMember name v members)) = v := by
  rw [member, membersOf, lookup_putMember_self, Option.getD_some]

theorem lookup_dropMember_self (name : String) (members : List (String × Json)) :
    (dropMember name members).lookup name = none := by
  rw [List.lookup_eq_none_iff]
  intro m left
  have other : m.1 ≠ name := by simpa using (List.mem_filter.mp left).2
  simpa using Ne.symm other

/-- Members that the patch does not name stay as they are. -/
theorem lookup_mergeMembers (absent : name ∉ patch.map Prod.fst) :
    (mergeMembers members patch).lookup name = members.lookup name := by
  induction patch generalizing members with
  | nil => rfl
  | cons m patch ih =>
    obtain ⟨other, v⟩ := m
    obtain ⟨different, absent⟩ : name ≠ other ∧ name ∉ patch.map Prod.fst := by
      simpa using absent
    by_cases nothing : v = .null
    · rw [nothing, mergeMembers_cons_null, ih absent, lookup_dropMember different]
    · rw [mergeMembers_cons nothing, ih absent, lookup_putMember_of_ne different]

theorem member_mergeMembers (distinct : (patch.map Prod.fst).Nodup) :
    member name (.obj (mergeMembers members patch)) =
      match patch.lookup name with
      | none => member name (.obj members)
      | some v => mergePatch (member name (.obj members)) v := by
  induction patch generalizing members with
  | nil => rfl
  | cons m patch ih =>
    obtain ⟨other, v⟩ := m
    obtain ⟨alone, distinct⟩ := List.nodup_cons.mp distinct
    by_cases same : name = other
    · subst same
      rw [List.lookup_cons_self]
      by_cases nothing : v = .null
      · subst nothing
        change _ = mergePatch _ .null
        rw [mergeMembers_cons_null, mergePatch_null, member, membersOf,
          lookup_mergeMembers alone, lookup_dropMember_self, Option.getD_none]
      · rw [mergeMembers_cons nothing, member, membersOf, lookup_mergeMembers alone,
          lookup_putMember_self, Option.getD_some]
    · have elsewhere : (name == other) = false := by simpa using same
      rw [List.lookup_cons, elsewhere]
      by_cases nothing : v = .null
      · have aside :
            member name (.obj (dropMember other members)) = member name (.obj members) := by
          rw [member, membersOf, lookup_dropMember same, member, membersOf]
        rw [nothing, mergeMembers_cons_null, ih distinct, aside]
      · have aside (w : Json) :
            member name (.obj (putMember other w members)) = member name (.obj members) := by
          rw [member, membersOf, lookup_putMember_of_ne same, member, membersOf]
        rw [mergeMembers_cons nothing, ih distinct, aside]

/-- What a patch leaves of a member. -/
theorem member_mergePatch_obj (distinct : (patch.map Prod.fst).Nodup) :
    member name (mergePatch d (.obj patch)) =
      match patch.lookup name with
      | none => member name d
      | some v => mergePatch (member name d) v := by
  rw [mergePatch, member_mergeMembers distinct]
  rfl

/-- A value that takes the place of whatever was there. -/
def Whole (v : Json) : Prop := ∀ old, mergePatch old v = v

theorem whole_str (s : String) : Whole (.str s) := fun old => by simp [mergePatch]

theorem whole_list (write : α → Json) (as : List α) : Whole (list write as) :=
  fun old => by simp [list, mergePatch]

theorem list_ne_null (write : α → Json) (as : List α) : list write as ≠ .null := by simp [list]

theorem member_mergePatch_whole (distinct : (patch.map Prod.fst).Nodup)
    (given : patch.lookup name = some v) (whole : Whole v) :
    member name (mergePatch d (.obj patch)) = v := by
  rw [member_mergePatch_obj distinct, given]
  exact whole _

/-- A member that the patch leaves out for want of a value is well left out if there was none. -/
theorem member_mergePatch_option {write : α → Json} {o : Option α}
    (distinct : (patch.map Prod.fst).Nodup) (given : patch.lookup name = o.map write)
    (whole : ∀ a, Whole (write a)) (missing : o = none → member name d = .null) :
    member name (mergePatch d (.obj patch)) = option write o := by
  rw [member_mergePatch_obj distinct, given]
  cases o with
  | none => exact missing rfl
  | some a => exact whole a _

/-! Members that are left out. -/

theorem lookup_member?_self (name : String) (write : α → Json) (o : Option α) :
    (member? name write o).lookup name = o.map write := by
  cases o with
  | none => rfl
  | some a => simp [member?]

theorem lookup_member?_of_ne (different : other ≠ name) (write : α → Json) (o : Option α) :
    (member? name write o).lookup other = none := by
  cases o with
  | none => rfl
  | some a =>
    have elsewhere : (other == name) = false := by simpa using different
    simp [member?, List.lookup_cons, elsewhere]

/-! Fields that are there once. -/

/-- No two members have the name of the same field. -/
def Once (names : List String) (members : List (String × Json)) : Prop :=
  ((members.map Prod.fst).filter names.contains).Nodup

theorem once_iff : Once names members ↔
    ((members.filter fun m => names.contains m.1).map Prod.fst).Nodup := by
  rw [Once, List.filter_map]
  rfl

/-- A member takes the place of its name, or a new one at the end. -/
theorem keys_putMember (name : String) (v : Json) (members : List (String × Json)) :
    (putMember name v members).map Prod.fst =
      if name ∈ members.map Prod.fst then members.map Prod.fst
      else members.map Prod.fst ++ [name] := by
  have known : hasMember name members = true ↔ name ∈ members.map Prod.fst := by
    simp [hasMember]
  unfold putMember
  by_cases there : name ∈ members.map Prod.fst
  · rw [if_pos (known.mpr there), if_pos there, List.map_map]
    refine List.map_congr_left ?_
    intro m _
    by_cases same : m.1 = name
    · simp [same]
    · simp [same]
  · rw [if_neg (mt known.mp there), if_neg there, List.map_append]
    rfl

theorem Once.putMember (h : Once names members) (name : String) (v : Json) :
    Once names (putMember name v members) := by
  unfold Once at h ⊢
  rw [keys_putMember]
  by_cases there : name ∈ members.map Prod.fst
  · rwa [if_pos there]
  · rw [if_neg there, List.filter_append]
    refine List.nodup_append.mpr ⟨h, List.Nodup.sublist List.filter_sublist (by simp), ?_⟩
    intro key member other new same
    obtain rfl : other = name := List.mem_singleton.mp (List.mem_filter.mp new).1
    exact there (same ▸ (List.mem_filter.mp member).1)

theorem Once.dropMember (h : Once names members) (name : String) :
    Once names (dropMember name members) := by
  unfold Once at h ⊢
  have fewer : (Json.dropMember name members).Sublist members := List.filter_sublist
  exact h.sublist ((fewer.map Prod.fst).filter _)

theorem Once.mergeMembers (h : Once names members) (patch : List (String × Json)) :
    Once names (mergeMembers members patch) := by
  induction patch generalizing members with
  | nil => exact h
  | cons m patch ih =>
    obtain ⟨name, v⟩ := m
    by_cases nothing : v = .null
    · rw [nothing, mergeMembers_cons_null]
      exact ih (h.dropMember name)
    · rw [mergeMembers_cons nothing]
      exact ih (h.putMember name _)

/-! Reading values. -/

theorem nullable?_of_ne (something : v ≠ .null) : nullable? read v = (read v).map some := by
  cases v with
  | null => exact absurd rfl something
  | _ => rfl

theorem nullable?_eq_some {a : α} :
    nullable? read v = some (some a) ↔ v ≠ .null ∧ read v = some a := by
  by_cases nothing : v = .null
  · simp [nothing, nullable?]
  · simp [nullable?_of_ne nothing, nothing]

theorem nullable?_eq_none : nullable? read v = some none ↔ v = .null := by
  by_cases nothing : v = .null
  · simp [nothing, nullable?]
  · simp [nullable?_of_ne nothing, nothing]

/-- A list that is written is read if each item is. -/
theorem mapM_write {write : α → Json} {as : List α} (each : ∀ a ∈ as, read (write a) = some a) :
    (as.map write).mapM read = some as := by
  induction as with
  | nil => rfl
  | cons a as ih =>
    obtain ⟨first, others⟩ := List.forall_mem_cons.mp each
    rw [List.map_cons, List.mapM_cons, first, ih others]
    rfl

/-- Whatever is in a list that is read has been read. -/
theorem of_mem_mapM {items : List Json} {as : List α} (listed : items.mapM read = some as) {a : α}
    (member : a ∈ as) : ∃ v ∈ items, read v = some a := by
  induction items generalizing as with
  | nil =>
    obtain rfl : [] = as := Option.some.inj listed
    cases member
  | cons v items ih =>
    rw [List.mapM_cons] at listed
    obtain ⟨first, seen, listed⟩ := Option.bind_eq_some_iff.mp listed
    obtain ⟨others, later, same⟩ := Option.bind_eq_some_iff.mp listed
    obtain rfl : first :: others = as := Option.some.inj same
    rcases List.mem_cons.mp member with rfl | member
    · exact ⟨v, List.mem_cons_self .., seen⟩
    · obtain ⟨w, there, read⟩ := ih later member
      exact ⟨w, List.mem_cons_of_mem _ there, read⟩

/-! Reading the fields of an object. -/

theorem fields?_obj : fields? names (.obj members) = some f ↔
    Once names members ∧ f = ⟨false, members.filter fun m => names.contains m.1⟩ := by
  rw [once_iff]
  simp only [fields?, Option.ite_none_right_eq_some, Option.some.injEq]
  exact and_congr_right fun _ => eq_comm

theorem lookup_filter_contains (declared : name ∈ names) (members : List (String × Json)) :
    (members.filter fun m => names.contains m.1).lookup name = members.lookup name := by
  induction members with
  | nil => rfl
  | cons m members ih =>
    obtain ⟨other, v⟩ := m
    by_cases same : name = other
    · subst same
      have kept : names.contains name = true := by simpa using declared
      rw [List.filter_cons, if_pos kept, List.lookup_cons_self, List.lookup_cons_self]
    · have elsewhere : (name == other) = false := by simpa using same
      rw [List.lookup_cons, elsewhere, List.filter_cons]
      split
      · rw [List.lookup_cons, elsewhere, ih]
      · exact ih

theorem find?_obj (fields : fields? names (.obj members) = some f) (declared : name ∈ names) :
    f.find? name = members.lookup name := by
  obtain ⟨-, rfl⟩ := fields?_obj.mp fields
  exact lookup_filter_contains declared members

theorem required_obj (fields : fields? names (.obj members) = some f) (declared : name ∈ names) :
    f.required name read = (members.lookup name).bind read := by
  rw [Fields.required, find?_obj fields declared]
  rfl

theorem optional_obj (fields : fields? names (.obj members) = some f) (declared : name ∈ names) :
    f.optional name read = nullable? read (member name (.obj members)) := by
  rw [Fields.optional, Fields.withDefault, find?_obj fields declared, member, membersOf]
  cases members.lookup name with
  | none => rfl
  | some v => rfl

theorem nullable_obj (fields : fields? names (.obj members) = some f) (declared : name ∈ names) :
    f.nullable name read = nullable? read (member name (.obj members)) := by
  rw [Fields.nullable, find?_obj fields declared, member, membersOf]
  obtain ⟨-, rfl⟩ := fields?_obj.mp fields
  cases members.lookup name with
  | none => rfl
  | some v => rfl

/-- A field with a value, whatever it takes when it is left out. -/
theorem withDefault_obj {default : α} (fields : fields? names (.obj members) = some f)
    (declared : name ∈ names) (given : member name (.obj members) = v) (something : v ≠ .null) :
    f.withDefault name default read = read v := by
  rw [member, membersOf] at given
  rw [Fields.withDefault, find?_obj fields declared]
  cases there : members.lookup name with
  | none =>
    rw [there] at given
    exact absurd given.symm something
  | some w =>
    rw [there] at given
    exact congrArg read given

end Gatehouse.Json
