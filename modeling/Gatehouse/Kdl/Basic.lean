/-!
# KDL documents

A document is a list of nodes. A node has a name, entries in order, and children. An entry is an
argument, or a property if it has a name.
-/

namespace Gatehouse.Kdl

/-- A value. Numbers other than integers are kept as they are written. -/
inductive Value where
  | text (s : String)
  | integer (n : Int)
  | real (written : String)
  | bool (b : Bool)
  | null
  deriving DecidableEq, Repr, Inhabited

/-- An argument or a property. -/
structure Entry where
  name : Option String := none
  value : Value
  deriving DecidableEq, Repr

/-- A node. -/
inductive Node where
  | mk (name : String) (entries : List Entry) (children : List Node)

namespace Node

/-- The name of a node. -/
def name : Node → String
  | mk name _ _ => name

/-- The entries of a node. -/
def entries : Node → List Entry
  | mk _ entries _ => entries

/-- The first argument of a node. -/
def argument? (n : Node) : Option Value := (n.entries.find? (·.name.isNone)).map (·.value)

end Node

/-- The text that a value is, if it is one. -/
def Value.text? : Value → Option String
  | .text s => some s
  | _ => none

/-- The integer that a value is, if it is one. -/
def Value.integer? : Value → Option Int
  | .integer n => some n
  | _ => none

end Gatehouse.Kdl
