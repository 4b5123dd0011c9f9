import Gatehouse.Proofs.Json.Record
import Gatehouse.Proofs.Json.Written
import Gatehouse.Proofs.Time.Rfc3339

/-!
# Faithful documents

A way of writing values as documents is faithful for a way of reading them if what was written is
read as the value that it was, for all values that fit, and no other values are ever read
(`Faithful`). Texts, numbers, times and values with names only are written faithfully, and so are
lists and options of what is. For a record, what is read fits because each field was read
(`of_required` and the lemmas after it), and what was written is read back field by field.
-/

namespace Gatehouse

namespace Json

variable {α : Type} {nulls : Bool} {Fits : α → Prop} {write : α → Json} {read : Json → Option α}
  {name : String} {a : α} {o : Option α} {as : List α} {f : Fields}

/-- Values that fit are read back from their documents, and all values that are read fit. Documents
have `null` in them only if `nulls` is set. -/
structure Faithful (nulls : Bool) (Fits : α → Prop) (write : α → Json) (read : Json → Option α) :
    Prop where
  written : ∀ a, Fits a → Written nulls (write a)
  back : ∀ a, Fits a → read (write a) = some a
  fits : ∀ {v a}, read v = some a → Fits a

/-! What is written. -/

@[simp] theorem written_str (s : String) : Written nulls (.str s) := .str s

@[simp] theorem written_bool (b : Bool) : Written nulls (.bool b) := .bool b

@[simp] theorem written_obj {members : List (String × Json)} :
    Written nulls (.obj members) ↔ ∀ m ∈ members, Written nulls m.2 := by
  constructor
  · rintro ⟨⟩
    assumption
  · exact .obj members

@[simp] theorem written_member? :
    (∀ n v, (n, v) ∈ member? name write o → Written nulls v) ↔
      ∀ a, o = some a → Written nulls (write a) := by
  cases o <;> simp [member?]

theorem str_ne_null (s : String) : Json.str s ≠ .null := nofun

theorem time_ne_null (t : Instant) : t.toJson ≠ .null := str_ne_null t.render

theorem obj_ne_null (members : List (String × Json)) : Json.obj members ≠ .null := nofun

/-! Single values. -/

/-- Where every value is read back, all values fit. -/
theorem faithful_of_back (written : ∀ a, Written nulls (write a))
    (back : ∀ a, read (write a) = some a) : Faithful nulls (fun _ => True) write read where
  written a _ := written a
  back a _ := back a
  fits _ := trivial

theorem faithful_text (nulls : Bool) : Faithful nulls (fun _ => True) .str text? :=
  faithful_of_back written_str fun _ => rfl

theorem faithful_int64 (nulls : Bool) :
    Faithful nulls (Text.isInt64 · = true) .int int64? where
  written n small := by
    refine .int n ?_
    simp only [Text.isInt64, isInteger, Bool.and_eq_true, decide_eq_true_eq] at small ⊢
    omega
  back n small := by
    simp only [Text.isInt64, Bool.and_eq_true, decide_eq_true_eq] at small
    exact if_pos small
  fits {v n} read := by
    unfold int64? at read
    split at read
    · obtain ⟨small, same⟩ := Option.ite_none_right_eq_some.mp read
      rw [← Option.some.inj same]
      simpa [Text.isInt64] using small
    · cases read

theorem faithful_time (nulls : Bool) :
    Faithful nulls (·.date.inRange = true) Instant.toJson Instant.ofJson? where
  written t _ := .str t.render
  back _ inRange := Instant.ofJson?_toJson inRange
  fits := Instant.inRange_of_ofJson?

namespace Faithful

/-! Lists and options. -/

theorem list (h : Faithful nulls Fits write read) :
    Faithful nulls (fun as => ∀ a ∈ as, Fits a) (Json.list write) (list? read) where
  written as each := by
    refine .arr _ fun v there => ?_
    obtain ⟨a, member, rfl⟩ := List.mem_map.mp there
    exact h.written a (each a member)
  back as each := mapM_write fun a member => h.back a (each a member)
  fits {v as} listed a member := by
    unfold list? at listed
    split at listed
    · obtain ⟨w, -, seen⟩ := of_mem_mapM listed member
      exact h.fits seen
    · cases listed

/-- An option is read back from the value or `null`, unless a value may be written as `null`. -/
theorem option (h : Faithful true Fits write read) (present : ∀ a, write a ≠ .null) :
    Faithful true (fun o => ∀ a ∈ o, Fits a) (Json.option write) (nullable? read) where
  written o each := by
    cases o with
    | none => exact .null rfl
    | some a => exact h.written a (each a rfl)
  back o each := by
    cases o with
    | none => rfl
    | some a => exact nullable?_eq_some.mpr ⟨present a, h.back a (each a rfl)⟩
  fits {v o} seen a := by
    rintro rfl
    exact h.fits (nullable?_eq_some.mp seen).2

/-! Values that may be left out. -/

theorem written_present (h : Faithful nulls Fits write read) (o : Option α)
    (fits : ∀ a ∈ o, Fits a) : ∀ a ∈ o, Written nulls (write a) :=
  fun a there => h.written a (fits a there)

/-- A value that is there is not taken for a missing one. -/
theorem back_present (h : Faithful nulls Fits write read) (o : Option α)
    (something : ∀ a, write a ≠ .null) (fits : ∀ a ∈ o, Fits a) :
    ∀ a ∈ o, nullable? read (write a) = some (some a) :=
  fun a there => nullable?_eq_some.mpr ⟨something a, h.back a (fits a there)⟩

/-! Fields that were read. -/

theorem of_required (h : Faithful nulls Fits write read) (seen : f.required name read = some a) :
    Fits a := by
  obtain ⟨v, -, seen⟩ := Option.bind_eq_some_iff.mp seen
  exact h.fits seen

theorem of_withDefault {default : α} (h : Faithful nulls Fits write read) (initial : Fits default)
    (seen : f.withDefault name default read = some a) : Fits a := by
  unfold Fields.withDefault at seen
  split at seen
  · rwa [← Option.some.inj seen]
  · exact h.fits seen

theorem of_optional (h : Faithful nulls Fits write read) (seen : f.optional name read = some o) :
    ∀ a ∈ o, Fits a := by
  rintro a rfl
  unfold Fields.optional Fields.withDefault at seen
  split at seen
  · cases seen
  · exact h.fits (nullable?_eq_some.mp seen).2

theorem of_nullable (h : Faithful nulls Fits write read) (seen : f.nullable name read = some o) :
    ∀ a ∈ o, Fits a := by
  rintro a rfl
  unfold Fields.nullable at seen
  split at seen
  · split at seen <;> cases seen
  · exact h.fits (nullable?_eq_some.mp seen).2

end Faithful

end Json

end Gatehouse
