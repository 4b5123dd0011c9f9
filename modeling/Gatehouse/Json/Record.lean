import Gatehouse.Json.Basic

/-!
# Reading records

A record is written as an object, or as an array of its fields in the order of their declaration.
In an object a field of the record may not be repeated, other members are passed over, and a
field whose absence means something may be left out. In an array only trailing fields may be
left out, and only those that have a default.
-/

namespace Gatehouse.Json

/-- A string. -/
def text? : Json → Option String
  | .str s => some s
  | _ => none

/-- A boolean. -/
def bool? : Json → Option Bool
  | .bool b => some b
  | _ => none

/-- An integer of a signed 64-bit word. -/
def int64? : Json → Option Int
  | .int n => if -0x8000000000000000 ≤ n ∧ n < 0x8000000000000000 then some n else none
  | _ => none

/-- A natural number below a bound. -/
def below? (bound : Nat) : Json → Option Nat
  | .int n => if 0 ≤ n ∧ n < bound then some n.toNat else none
  | _ => none

/-- An array, each item read in the same way. -/
def list? {α : Type} (read : Json → Option α) : Json → Option (List α)
  | .arr items => items.mapM read
  | _ => none

/-- `null`, or a value. -/
def nullable? {α : Type} (read : Json → Option α) : Json → Option (Option α)
  | .null => some none
  | v => (read v).map some

/-- The name of a case without content: a string, or an object whose only member is the name with
the value `null`. -/
def case? : Json → Option String
  | .str s => some s
  | .obj [(s, .null)] => some s
  | _ => none

/-- The fields of a record that are written down. -/
structure Fields where
  /-- Was the record written as an array? -/
  positional : Bool
  given : List (String × Json)

/-- The fields of a record, given the names it declares. -/
def fields? (names : List String) : Json → Option Fields
  | .obj members =>
    let given := members.filter fun m => names.contains m.1
    if (given.map Prod.fst).Nodup then some ⟨false, given⟩ else none
  | .arr items => if items.length ≤ names.length then some ⟨true, names.zip items⟩ else none
  | _ => none

namespace Fields

variable {α : Type}

/-- The value of a field, if it is written down. -/
def find? (f : Fields) (name : String) : Option Json := f.given.lookup name

/-- A field that must be written down. -/
def required (f : Fields) (name : String) (read : Json → Option α) : Option α :=
  f.find? name >>= read

/-- A field that takes a default when left out. -/
def withDefault (f : Fields) (name : String) (default : α) (read : Json → Option α) : Option α :=
  match f.find? name with
  | none => some default
  | some v => read v

/-- A field that may be `null` or left out. -/
def optional (f : Fields) (name : String) (read : Json → Option α) : Option (Option α) :=
  f.withDefault name none (nullable? read)

/-- A field that may be `null`, and may be left out of an object but not of an array. -/
def nullable (f : Fields) (name : String) (read : Json → Option α) : Option (Option α) :=
  match f.find? name with
  | none => if f.positional then none else some none
  | some v => nullable? read v

end Fields

/-- A value kept as it is, below `level` open containers of its document: `null` counts as absent,
and the rest must be readable and not nested too deeply. -/
def freeForm? (level : Nat) (v : Json) : Option Json :=
  if fits (depthLimit - level) v then some v else none

end Gatehouse.Json
