/-
TableMapper.JsonSchema.Typing — the type expression of a schema, and
the declarations of a type.

Enumerations with named members cannot be written in place. Each is
declared once and referred to by name: the name of the nearest property
in Pascal case, with a number from 2 on where another enumeration has
that name already.
-/
import TableMapper.JsonSchema.Reading
import TableMapper.Text.Words
import TableMapper.TypeScript.Declaration

namespace TableMapper.JsonSchema

open TypeScript (TypeExpr Enumeration TypeBody Declarations)

/-! ## 1. Names of enumerations -/

/-- The name that is tried after `index` others. -/
def candidateName (base : String) (index : Nat) : String :=
  if index = 0 then base else base ++ String.ofList (Decimal.digitsOf (index + 1))

/-- Whether an enumeration may be called `name`: nothing else is, save
one with the same members. -/
def nameFits (known : List Enumeration) (e : Enumeration) : Bool :=
  match known.find? (·.name == e.name) with
  | none => true
  | some other => other.writtenMembers == e.writtenMembers

/-- The enumeration of the given members under the first name that
fits. One candidate more than there are names suffices. -/
def nameEnumeration (known : List Enumeration) (base : String) (members : List (String × Json)) :
    Enumeration :=
  let candidates := (List.range (known.length + 1)).map fun index =>
    Enumeration.mk (candidateName base index) members
  (candidates.find? (nameFits known)).getD ⟨candidateName base known.length, members⟩

/-- Declares the enumeration of the given members, unless it is
declared, and refers to it. -/
def declareEnumeration (base : String) (members : List (String × Json)) :
    StateM (List Enumeration) TypeExpr := do
  let known ← get
  let e := nameEnumeration known base members
  unless known.any (·.name == e.name) do set (known ++ [e])
  return .name e.name

/-! ## 2. Type expressions -/

/-- The keyword of a primitive type. -/
def Primitive.keyword : Primitive → String
  | .string => "string"
  | .number => "number"
  | .boolean => "boolean"
  | .null => "null"
  | .any => "any"

mutual

/-- The type expression of a schema. The hint names its
enumerations. -/
def typeOf (hint : String) : Schema → StateM (List Enumeration) TypeExpr
  | .primitive type => return .name type.keyword
  | .never => return .name "never"
  | .verbatim source => return .verbatim source
  | .choice values => return .union (values.map .literal)
  | .enumeration members => declareEnumeration (Text.pascalCase hint) members
  | .constant value => return .literal value
  | .union branches => do return .union (← typesOf hint branches)
  | .intersection branches => do
    return .intersection ((← typesOf hint branches).map TypeExpr.operand)
  | .array element => do return .array (← typeOf hint element).operand
  | .tuple elements => do return .tuple (← typesOf hint elements)
  | .object properties further => do
    return .object (← membersOf properties) (← furtherOf further)

/-- The type expressions of several schemas under one hint. -/
def typesOf (hint : String) : List Schema → StateM (List Enumeration) (List TypeExpr)
  | [] => return []
  | s :: rest => do return (← typeOf hint s) :: (← typesOf hint rest)

/-- The members for the properties of an object. -/
def membersOf : List (PropertyHead × Schema) →
    StateM (List Enumeration) (List (PropertyHead × TypeExpr))
  | [] => return []
  | (head, s) :: rest => do return (head, ← typeOf head.name s) :: (← membersOf rest)

/-- The type of all further members of an object. -/
def furtherOf : Option Schema → StateM (List Enumeration) (Option TypeExpr)
  | none => return none
  | some s => do return some (← typeOf "additional" s)

end

/-! ## 3. Declarations -/

/-- Whether a document is declared as an interface: its type is
`object`, or it has properties and no type. -/
def isObjectDocument (fields : Fields Json) : Bool :=
  match Fields.get? "type" fields with
  | some (.string name) => name == "object"
  | some _ => false
  | none => Fields.contains "properties" fields

/-- The schema of a whole document. An object document is an object
whatever other keywords it has. -/
def ofRoot (fields : Fields Json) : Except SchemaError Schema :=
  if isObjectDocument fields then ofObject [] fields else ofKeywords [] fields

/-- The declared form of the type of an expression that belongs to a
whole document: the members of an interface for an object document. -/
def bodyOf (fields : Fields Json) : TypeExpr → TypeBody
  | .object members further =>
    if isObjectDocument fields then .interface members further
    else .alias (.object members further)
  | type => .alias type

/-- The declarations for a document under a name. -/
def declare (document : Json) (name : String) : Except SchemaError Declarations :=
  if !TypeScript.isIdentifier name then .error ⟨[], .invalidName name⟩
  else match document with
    | .object fields => do
      let schema ← ofRoot fields
      let (type, enumerations) := (typeOf name schema).run []
      return ⟨name, descriptionOf document, bodyOf fields type, enumerations⟩
    | _ => .error ⟨[], .rootNotObject⟩

end TableMapper.JsonSchema
