/-
TableMapper.JsonSchema.Reading — the schema that a document stands for.

The keywords are looked at in a fixed order: `tsType`, `enum`, `const`,
`anyOf`, `oneOf`, `allOf`, `type`, and last `properties` and `items`.
The first one present decides, and only what it needs is read. Within a
schema the parts are read in written order, and the first violation met
is the error.
-/
import TableMapper.JsonSchema.Basic
import TableMapper.JsonSchema.TypeName

namespace TableMapper

/-- A value that is found is smaller than the fields it is found in. -/
theorem Fields.sizeOf_lt_of_get? {α : Type} [SizeOf α] {name : String} {value : α} :
    ∀ {fields : Fields α}, Fields.get? name fields = some value → sizeOf value < sizeOf fields
  | [], h => by simp [Fields.get?] at h
  | (n, v) :: rest, h => by
    simp only [Fields.get?] at h
    split at h
    · cases h; simp; omega
    · have := sizeOf_lt_of_get? h; simp; omega

/-- The items of an array that is found are smaller than the fields. -/
theorem Fields.sizeOf_items_lt {name : String} {items : List Json} {fields : Fields Json}
    (h : Fields.get? name fields = some (.array items)) : sizeOf items < sizeOf fields := by
  have := Fields.sizeOf_lt_of_get? h
  simp at this
  omega

/-- The fields of an object that is found are smaller than the fields
around it. -/
theorem Fields.sizeOf_fields_lt {name : String} {inner fields : Fields Json}
    (h : Fields.get? name fields = some (.object inner)) : sizeOf inner < sizeOf fields := by
  have := Fields.sizeOf_lt_of_get? h
  simp at this
  omega

namespace JsonSchema

/-! ## 1. Lists of names -/

/-- The strings of an array, if it holds nothing else. -/
def strings? : List Json → Option (List String)
  | [] => some []
  | .string s :: rest => (strings? rest).map (s :: ·)
  | _ :: _ => none

/-- The names in `required`. -/
def requiredNames (place : Pointer) (fields : Fields Json) : Except SchemaError (List String) :=
  match Fields.get? "required" fields with
  | none => .ok []
  | some (.array items) => match strings? items with
    | some names => .ok names
    | none => .error ⟨place ++ ["required"], .requiredNotNames⟩
  | some _ => .error ⟨place ++ ["required"], .requiredNotNames⟩

/-- The names in `type`, which are not looked up yet. -/
def typeNames (place : Pointer) : Json → Except SchemaError (List String)
  | .string name => .ok [name]
  | .array [] => .error ⟨place, .typeNotNames⟩
  | .array items => match strings? items with
    | some names => .ok names
    | none => .error ⟨place, .typeListNotNames⟩
  | _ => .error ⟨place, .typeNotNames⟩

/-- The members of a named enumeration: one identifier for each
value. -/
def enumerationMembers (place : Pointer) (values : List Json) (names : Json) :
    Except SchemaError (List (String × Json)) :=
  let identifiers? : Option (List String) := match names with
    | .array items => (strings? items).filter fun names => names.all TypeScript.isIdentifier
    | _ => none
  match identifiers? with
  | none => .error ⟨place, .memberNamesNotIdentifiers⟩
  | some names =>
    if names.length = values.length then .ok (names.zip values)
    else .error ⟨place, .memberNamesCount⟩

/-- The description in a document that has one. -/
def descriptionOf : Json → Option String
  | .object fields => match Fields.get? "description" fields with
    | some (.string s) => some s
    | _ => none
  | _ => none

/-! ## 2. Alternatives -/

/-- The primitive type of a name; `integer` is a number. -/
def primitiveOf? : TypeName → Option Primitive
  | .string => some .string
  | .number => some .number
  | .integer => some .number
  | .boolean => some .boolean
  | .null => some .null
  | .any => some .any
  | .object => none
  | .array => none

/-- What a type name stands for beside the others of its list: `number`
and `integer` are the same. -/
def TypeName.alternative : TypeName → TypeName
  | .integer => .number
  | name => name

/-- The alternatives of a list of type names, without those in `seen`
and without repetition. The outcomes for arrays and for objects are
given, and count only if the name is met. -/
def alternatives (place : Pointer) (array object : Except SchemaError Schema) :
    List TypeName → List String → Except SchemaError (List Schema)
  | _, [] => .ok []
  | seen, name :: names =>
    match TypeName.ofText? name with
    | none => .error ⟨place, .unknownType name⟩
    | some type =>
      let type := type.alternative
      if seen.contains type then alternatives place array object seen names
      else do
        let first ← match type with
          | .array => array
          | .object => object
          | _ => match primitiveOf? type with
            | some p => .ok (.primitive p)
            | none => .ok .never
        return first :: (← alternatives place array object (type :: seen) names)

/-- Several alternatives as one schema. -/
def unionOf : List Schema → Schema
  | [] => .never
  | branches => .union branches

/-- Several demands as one schema. -/
def intersectionOf : List Schema → Schema
  | [] => .never
  | branches => .intersection branches

/-- Several values as one schema. -/
def choiceOf : List Json → Schema
  | [] => .never
  | values => .choice values

/-! ## 3. Schemas -/

mutual

/-- The schema of a document. -/
def ofJson (place : Pointer) (document : Json) : Except SchemaError Schema :=
  match document with
  | .bool true => .ok (.primitive .any)
  | .bool false => .ok .never
  | .object fields => ofKeywords place fields
  | _ => .error ⟨place, .notSchema⟩
termination_by (sizeOf document, 0)

/-- The schema of an object with the given fields. -/
def ofKeywords (place : Pointer) (fields : Fields Json) : Except SchemaError Schema :=
  match Fields.get? "tsType" fields with
  | some (.string source) => .ok (.verbatim source)
  | some _ => .error ⟨place ++ ["tsType"], .verbatimNotString⟩
  | none =>
  match Fields.get? "enum" fields with
  | some (.array values) => match Fields.get? "tsEnumNames" fields with
    | some names => (enumerationMembers (place ++ ["tsEnumNames"]) values names).map .enumeration
    | none => .ok (choiceOf values)
  | some _ => .error ⟨place ++ ["enum"], .choiceNotArray⟩
  | none =>
  match Fields.get? "const" fields with
  | some value => .ok (.constant value)
  | none =>
  match _h : Fields.get? "anyOf" fields with
  | some (.array branches) => (ofBranches (place ++ ["anyOf"]) 0 branches).map unionOf
  | some _ => .error ⟨place ++ ["anyOf"], .branchesNotArray⟩
  | none =>
  match _h : Fields.get? "oneOf" fields with
  | some (.array branches) => (ofBranches (place ++ ["oneOf"]) 0 branches).map unionOf
  | some _ => .error ⟨place ++ ["oneOf"], .branchesNotArray⟩
  | none =>
  match _h : Fields.get? "allOf" fields with
  | some (.array branches) => (ofBranches (place ++ ["allOf"]) 0 branches).map intersectionOf
  | some _ => .error ⟨place ++ ["allOf"], .branchesNotArray⟩
  | none =>
  match Fields.get? "type" fields with
  | some type => do
    let names ← typeNames (place ++ ["type"]) type
    return unionOf (← alternatives (place ++ ["type"]) (ofArray place fields)
      (ofObject place fields) [] names)
  | none =>
    if Fields.contains "properties" fields then ofObject place fields
    else if Fields.contains "items" fields then ofArray place fields
    else .ok (.primitive .any)
termination_by (sizeOf fields, 2)
decreasing_by
  · exact .left _ _ (Fields.sizeOf_items_lt _h)
  · exact .left _ _ (Fields.sizeOf_items_lt _h)
  · exact .left _ _ (Fields.sizeOf_items_lt _h)
  all_goals exact .right _ (by decide)

/-- The schema of an array, by `items`. -/
def ofArray (place : Pointer) (fields : Fields Json) : Except SchemaError Schema :=
  match _h : Fields.get? "items" fields with
  | none => .ok (.array (.primitive .any))
  | some (.array items) => (ofBranches (place ++ ["items"]) 0 items).map .tuple
  | some (.object element) => (ofKeywords (place ++ ["items"]) element).map .array
  | some (.bool element) => (ofJson (place ++ ["items"]) (.bool element)).map .array
  | some _ => .error ⟨place ++ ["items"], .itemsNotSchema⟩
termination_by (sizeOf fields, 1)
decreasing_by
  · exact .left _ _ (Fields.sizeOf_items_lt _h)
  · exact .left _ _ (Fields.sizeOf_fields_lt _h)
  · exact .left _ _ (Fields.sizeOf_lt_of_get? _h)

/-- The schema of an object, by `required`, `properties` and
`additionalProperties`. -/
def ofObject (place : Pointer) (fields : Fields Json) : Except SchemaError Schema := do
  let required ← requiredNames place fields
  let properties ← match _h : Fields.get? "properties" fields with
    | none => .ok []
    | some (.object properties) => ofProperties (place ++ ["properties"]) required properties
    | some _ => .error ⟨place ++ ["properties"], .propertiesNotObject⟩
  let further ← match _h : Fields.get? "additionalProperties" fields with
    | none => .ok (some (.primitive .any))
    | some (.bool true) => .ok (some (.primitive .any))
    | some (.bool false) => .ok none
    | some (.object further) =>
      (ofKeywords (place ++ ["additionalProperties"]) further).map some
    | some _ => .error ⟨place ++ ["additionalProperties"], .furtherNotSchema⟩
  return .object properties further
termination_by (sizeOf fields, 1)
decreasing_by
  · exact .left _ _ (Fields.sizeOf_fields_lt _h)
  · exact .left _ _ (Fields.sizeOf_fields_lt _h)

/-- The schemas of a list, whose first has the given index. -/
def ofBranches (place : Pointer) (index : Nat) (branches : List Json) :
    Except SchemaError (List Schema) :=
  match branches with
  | [] => .ok []
  | branch :: rest => do
    let first ← ofJson (place ++ [String.ofList (Decimal.digitsOf index)]) branch
    return first :: (← ofBranches place (index + 1) rest)
termination_by (sizeOf branches, 0)

/-- The properties of an object. -/
def ofProperties (place : Pointer) (required : List String) (properties : Fields Json) :
    Except SchemaError (List (PropertyHead × Schema)) :=
  match properties with
  | [] => .ok []
  | (name, property) :: rest => do
    let schema ← ofJson (place ++ [name]) property
    let head : PropertyHead := ⟨name, descriptionOf property, required.contains name⟩
    return (head, schema) :: (← ofProperties place required rest)
termination_by (sizeOf properties, 0)

end

end JsonSchema

end TableMapper
