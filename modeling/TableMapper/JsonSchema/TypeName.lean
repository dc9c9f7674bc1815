/-
TableMapper.JsonSchema.TypeName — the names a schema has for types.
-/

namespace TableMapper.JsonSchema

/-- The name of a type in the `type` keyword. -/
inductive TypeName where
  | string
  | number
  | integer
  | boolean
  | object
  | array
  | null
  | any
deriving DecidableEq, Repr

namespace TypeName

/-- The written form of a type name. -/
def text : TypeName → String
  | .string => "string"
  | .number => "number"
  | .integer => "integer"
  | .boolean => "boolean"
  | .object => "object"
  | .array => "array"
  | .null => "null"
  | .any => "any"

/-- All type names, in the order in which they are numbered. -/
def all : List TypeName :=
  [.string, .number, .integer, .boolean, .object, .array, .null, .any]

/-- The type name with that written form. -/
def ofText? (s : String) : Option TypeName := all.find? (·.text == s)

end TypeName

end TableMapper.JsonSchema
