/-
TableMapper.JsonSchema.Basic — schemas as trees, and what is wrong with
a document that is no schema.

A schema document decides its type by the first of several keywords
that it has. The tree keeps only what was decided, so that everything
after the reading is a function on the tree.
-/
import TableMapper.JsonSchema.Pointer
import TableMapper.TypeScript.TypeExpr

namespace TableMapper.JsonSchema

/-! ## 1. Schemas -/

/-- The types without parts. -/
inductive Primitive where
  | string
  | number
  | boolean
  | null
  | any
deriving DecidableEq, Repr

/-- A schema.

* `never` admits no value;
* `verbatim` is a type given by its source text;
* `choice` admits the listed values, and `constant` one;
* `enumeration` admits the values of named members;
* `object` has properties in order and, unless it is closed, a schema
  for all further ones. -/
inductive Schema where
  | primitive (type : Primitive)
  | never
  | verbatim (source : String)
  | choice (values : List Json)
  | enumeration (members : List (String × Json))
  | constant (value : Json)
  | union (branches : List Schema)
  | intersection (branches : List Schema)
  | array (element : Schema)
  | tuple (elements : List Schema)
  | object (properties : List (PropertyHead × Schema)) (further : Option Schema)

/-! ## 2. Errors -/

/-- What is wrong at a place of a document. -/
inductive Violation where
  | invalidName (name : String)
  | rootNotObject
  | notSchema
  | verbatimNotString
  | choiceNotArray
  | memberNamesNotIdentifiers
  | memberNamesCount
  | branchesNotArray
  | typeNotNames
  | typeListNotNames
  | unknownType (name : String)
  | requiredNotNames
  | propertiesNotObject
  | furtherNotSchema
  | itemsNotSchema
deriving DecidableEq, Repr

/-- The wording of a violation. -/
def Violation.message : Violation → String
  | .invalidName name => "`" ++ name ++ "` is not a valid type name"
  | .rootNotObject => "schema must be an object"
  | .notSchema => "schema must be an object or a boolean"
  | .verbatimNotString => "`tsType` must be a string"
  | .choiceNotArray => "`enum` must be an array"
  | .memberNamesNotIdentifiers => "`tsEnumNames` must be an array of identifiers"
  | .memberNamesCount => "`tsEnumNames` must have one name per `enum` value"
  | .branchesNotArray => "expected an array of schemas"
  | .typeNotNames => "`type` must be a type name or a non-empty list of type names"
  | .typeListNotNames => "`type` must list type names"
  | .unknownType name => "unknown type `" ++ name ++ "`"
  | .requiredNotNames => "`required` must be an array of strings"
  | .propertiesNotObject => "`properties` must be an object"
  | .furtherNotSchema => "`additionalProperties` must be a boolean or a schema"
  | .itemsNotSchema => "`items` must be a schema or an array of schemas"

/-- A document is no schema: the place and what is wrong there. -/
structure SchemaError where
  pointer : Pointer
  violation : Violation
deriving DecidableEq, Repr

/-- The wording of the error. -/
def SchemaError.message (e : SchemaError) : String :=
  "malformed schema at `" ++ e.pointer.text ++ "`: " ++ e.violation.message

end TableMapper.JsonSchema
