import Gatehouse.Json.Basic
import Gatehouse.Table

/-!
# Schemas

Descriptions of documents, as the cluster takes them. A schema is a table of keywords, so that its
document lists them in order.
-/

namespace Gatehouse.Resource

/-- A schema. -/
abbrev Schema := Table String Json

/-- A field of a record. -/
structure SchemaField where
  name : String
  schema : Schema
  isRequired : Bool := true

namespace Schema

/-- The document of a schema. -/
def toJson (s : Schema) : Json := .obj s.entries

/-- The schema of a type. -/
def ofType (type : String) : Schema := (∅ : Schema).insert "type" (.str type)

/-- Texts. -/
def text : Schema := ofType "string"

/-- Times. -/
def time : Schema := text.insert "format" (.str "date-time")

/-- Signed 64-bit integers. -/
def int64 : Schema := (ofType "integer").insert "format" (.str "int64")

/-- One of the given texts. -/
def oneOf (cases : List String) : Schema := text.insert "enum" (Json.list .str cases)

/-- Lists. -/
def listOf (item : Schema) : Schema := (ofType "array").insert "items" item.toJson

/-- Records. -/
def record (fields : List SchemaField) : Schema :=
  let properties : Table String Json := .ofList (fields.map fun f => (f.name, f.schema.toJson))
  let required := (fields.filter (·.isRequired)).map (·.name)
  let s := (ofType "object").insert "properties" (.obj properties.entries)
  if required.isEmpty then s else s.insert "required" (Json.list .str required)

/-- The schema with a description. -/
def described (s : Schema) (text : String) : Schema := s.insert "description" (.str text)

/-- The schema with a default. -/
def defaulting (s : Schema) (v : Json) : Schema := s.insert "default" v

/-- The schema that also takes `null`. -/
def nullable (s : Schema) : Schema := s.insert "nullable" (.bool true)

end Schema

end Gatehouse.Resource
