/-!
# Tables

A finite map as a list of entries in ascending order of their keys. Looking up finds the first entry
of a key, `insert` puts an entry before the first larger key and takes the place of an equal one,
and `erase` removes every entry of a key; so the laws of look-up hold for any list of entries.
-/

namespace Gatehouse

/-- A map from `κ` to `α`. -/
structure Table (κ α : Type) where
  entries : List (κ × α)
  deriving DecidableEq, Repr

namespace Table

variable {κ α : Type}

instance : Inhabited (Table κ α) := ⟨⟨[]⟩⟩

/-- The table without entries. -/
def empty : Table κ α := ⟨[]⟩

instance : EmptyCollection (Table κ α) := ⟨empty⟩

/-- The keys in ascending order. -/
def keys (t : Table κ α) : List κ := t.entries.map Prod.fst

/-- The values in the order of their keys. -/
def values (t : Table κ α) : List α := t.entries.map Prod.snd

variable [DecidableEq κ]

/-- Find the value of a key in a list of entries. -/
def findIn (k : κ) : List (κ × α) → Option α
  | [] => none
  | (k', a) :: r => if k = k' then some a else findIn k r

/-- The value of a key. -/
def get? (t : Table κ α) (k : κ) : Option α := findIn k t.entries

/-- The value of a key, or a default. -/
def getD (t : Table κ α) (k : κ) (d : α) : α := (t.get? k).getD d

/-- Does the key have a value? -/
def contains (t : Table κ α) (k : κ) : Bool := (t.get? k).isSome

/-- Put an entry into a list of entries. -/
def insertIn [LT κ] [DecidableLT κ] (k : κ) (a : α) : List (κ × α) → List (κ × α)
  | [] => [(k, a)]
  | (k', b) :: r =>
    if k = k' then (k, a) :: r
    else if k < k' then (k, a) :: (k', b) :: r
    else (k', b) :: insertIn k a r

/-- Give a key a value, in place of any it had. -/
def insert [LT κ] [DecidableLT κ] (t : Table κ α) (k : κ) (a : α) : Table κ α :=
  ⟨insertIn k a t.entries⟩

/-- Take a key and its value out. -/
def erase (t : Table κ α) (k : κ) : Table κ α := ⟨t.entries.filter fun e => e.1 ≠ k⟩

/-- The table of a list of entries, where a later entry wins over an earlier one of its key. -/
def ofList [LT κ] [DecidableLT κ] (es : List (κ × α)) : Table κ α :=
  es.foldl (fun t e => t.insert e.1 e.2) ∅

theorem findIn_insertIn [LT κ] [DecidableLT κ] (k k' : κ) (a : α) (es : List (κ × α)) :
    findIn k' (insertIn k a es) = if k' = k then some a else findIn k' es := by
  induction es with
  | nil => rfl
  | cons e r ih =>
    obtain ⟨k₁, b⟩ := e
    grind [insertIn, findIn]

@[simp] theorem get?_insert [LT κ] [DecidableLT κ] (t : Table κ α) (k k' : κ) (a : α) :
    (t.insert k a).get? k' = if k' = k then some a else t.get? k' :=
  findIn_insertIn k k' a t.entries

theorem findIn_filter (k k' : κ) (es : List (κ × α)) :
    findIn k' (es.filter fun e => e.1 ≠ k) = if k' = k then none else findIn k' es := by
  induction es with
  | nil => simp [findIn]
  | cons e r ih =>
    obtain ⟨k₁, b⟩ := e
    grind [findIn]

@[simp] theorem get?_erase (t : Table κ α) (k k' : κ) :
    (t.erase k).get? k' = if k' = k then none else t.get? k' :=
  findIn_filter k k' t.entries

theorem mem_map_findIn (k : κ) (es : List (κ × α)) :
    k ∈ es.map Prod.fst ↔ ∃ a, findIn k es = some a := by
  induction es with
  | nil => simp [findIn]
  | cons e r ih =>
    obtain ⟨k₁, b⟩ := e
    by_cases same : k = k₁
    · simp [findIn, same]
    · simp [findIn, same, ih]

/-- The keys are those that have a value. -/
theorem mem_keys {t : Table κ α} {k : κ} : k ∈ t.keys ↔ ∃ a, t.get? k = some a :=
  mem_map_findIn k t.entries

@[simp] theorem get?_empty (k : κ) : (∅ : Table κ α).get? k = none := rfl

end Table

end Gatehouse
