/-!
# JSON values

A document as a value: members of an object keep their order and may repeat a name, because readers
differ in what they make of that. An integer of at most 64 bits is kept as a number; every other
number of finite size is kept as it is written. `garbled` stands for a well-formed value that
has no reading: a string, or an object with a name, that is not Unicode text, or a number too large
for a double. Such a value does no harm where nobody looks at it.
-/

namespace Gatehouse

inductive Json where
  | null
  | bool (b : Bool)
  | int (n : Int)
  | real (text : String)
  | str (s : String)
  | arr (items : List Json)
  | obj (members : List (String × Json))
  | garbled
  deriving BEq, Inhabited, Repr

namespace Json

/-- The integers that a number without fraction and exponent can be read as: those of a signed or
an unsigned 64-bit word. -/
def isInteger (n : Int) : Bool := -0x8000000000000000 ≤ n && n < 0x10000000000000000

/-- A list of values. -/
def list {α : Type} (write : α → Json) (xs : List α) : Json := .arr (xs.map write)

/-- A value or `null`. -/
def option {α : Type} (write : α → Json) : Option α → Json
  | none => .null
  | some a => write a

/-- An object member that is left out when there is no value. -/
def member? {α : Type} (name : String) (write : α → Json) : Option α → List (String × Json)
  | none => []
  | some a => [(name, write a)]

/-- Is the value readable throughout, and nested at most `n` containers deep? -/
def fits : Nat → Json → Bool
  | _, .garbled => false
  | 0, .arr _ => false
  | 0, .obj _ => false
  | n + 1, .arr items => items.all (fits n)
  | n + 1, .obj members => members.all fun m => fits n m.2
  | _, _ => true

/-- How deep containers may be nested in a document whose values are kept as they are. -/
def depthLimit : Nat := 127

end Json

end Gatehouse
