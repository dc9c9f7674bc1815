/-
TableMapper.Settings.RecordSchema — the schema of the records of a
table, as a configuration gives it.
-/
import TableMapper.Dictionary
import TableMapper.JsonSchema.TypeName

namespace TableMapper

open JsonSchema (TypeName)

/-! ## 1. Properties -/

/-- The type of a property: one name or a list of names. -/
inductive SchemaType where
  | single (name : TypeName)
  | union (names : List TypeName)
deriving DecidableEq, Repr

namespace SchemaType

/-- The type as a document. -/
def toJson : SchemaType → Json
  | single name => .string name.text
  | union names => .array (names.map fun name => .string name.text)

/-- The type as messages show it. -/
def text : SchemaType → String
  | single name => name.text
  | union names => "[" ++ Text.joinWith ", " (names.map TypeName.text) ++ "]"

end SchemaType

/-- The schema of one property: its type, and all its other keywords as
they were written. -/
structure PropertySchema where
  type : SchemaType
  keywords : Dictionary Json

namespace PropertySchema

/-- A property that has a type and nothing else. -/
def ofType (type : SchemaType) : PropertySchema := ⟨type, .empty⟩

/-- The schema as a document: the type first, then the other keywords;
a keyword called `type` would take the place of the type. -/
def toJson (p : PropertySchema) : Json :=
  .object (p.keywords.entries.foldl (fun fields (name, value) => Fields.insert name value fields)
    [("type", p.type.toJson)])

end PropertySchema

/-! ## 2. Records -/

/-- The schema of a record: an object with a name. -/
structure RecordSchema where
  name : String
  required : Option (List String)
  properties : Dictionary PropertySchema
  additionalProperties : Option Bool

namespace RecordSchema

/-- The property of that name. -/
def property? (name : String) (r : RecordSchema) : Option PropertySchema :=
  r.properties.get? name

/-- The schemas of properties as a document. -/
def propertiesJson (properties : Fields PropertySchema) : Json :=
  .object (properties.map fun (name, p) => (name, p.toJson))

/-- The fields of the schema as a document: those that were left out
are absent, and the properties are always there. -/
def toFields (r : RecordSchema) : Fields Json :=
  [("name", .string r.name), ("type", .string "object")]
    ++ (r.required.map fun names => ("required", Json.strings names)).toList
    ++ [("properties", propertiesJson r.properties.entries)]
    ++ (r.additionalProperties.map fun b => ("additionalProperties", Json.bool b)).toList

/-- The schema as a document. -/
def toJson (r : RecordSchema) : Json := .object r.toFields

end RecordSchema

end TableMapper
