/-
TableMapper.Generated.ItemTypes — the types of the items of a table.

An item has three types: the whole item; the uninitialized item, which
may leave out the fields that providers supply; and the generated part,
which has just those fields.
-/
import TableMapper.Generated.SourceFile
import TableMapper.JsonSchema.Typing
import TableMapper.Provider
import TableMapper.Settings.Basic
import TableMapper.Text.Blank

namespace TableMapper

open JsonSchema (SchemaError)
open TypeScript (Declarations Style TypeExpr)

/-! ## 1. Items -/

/-- The items of a table: their schema, the file of their types, and
the providers by field. -/
structure Item where
  schema : RecordSchema
  outPath : String
  overwrite : Bool
  providers : Dictionary Provider

/-- Why there is no item, or no type of it. -/
inductive ItemError where
  | noProperty (property schema : String)
  | badProvider (field : String) (error : Provider.SyntaxError)
  | badSchema (typeName : String) (error : SchemaError)
deriving DecidableEq, Repr

namespace ItemError

/-- The wording of the error. -/
def message : ItemError → String
  | noProperty property schema =>
    "property \"" ++ property ++ "\" does not exist on schema \"" ++ schema ++ "\""
  | badProvider field _ => "default provider for `" ++ field ++ "` is invalid"
  | badSchema typeName _ => "failed to compile type `" ++ typeName ++ "`"

/-- The wording of what is behind the error. -/
def causes : ItemError → List String
  | noProperty _ _ => []
  | badProvider _ e => [e.message]
  | badSchema _ e => [e.message]

end ItemError

namespace Item

/-- Reads the providers of fields, after those in the dictionary. -/
def readProviders (d : Dictionary Provider) :
    Fields String → Except ItemError (Dictionary Provider)
  | [] => .ok d
  | (field, text) :: rest =>
    match Provider.parse text with
    | .ok p => readProviders (d.insert field p) rest
    | .error e => .error (.badProvider field e)

/-- The item that is configured. -/
def ofSettings (s : ItemSettings) : Except ItemError Item := do
  let providers ← readProviders .empty s.defaultProviders.entries
  return ⟨s.schema, s.outPath, s.overwrite.getD true, providers⟩

/-- The name of the type of the whole item. -/
def typeName (i : Item) : String := i.schema.name

/-- The name of the type of the uninitialized item. -/
def uninitializedName (i : Item) : String := "Uninitialized" ++ i.typeName

/-- The name of the type of the generated part. -/
def generatedPartName (i : Item) : String := "GeneratedPartial" ++ i.typeName

/-- The fields that providers supply, in order. -/
def generatedKeys (i : Item) : List String := i.providers.names

/-- Whether a provider supplies the field. -/
def isGenerated (i : Item) (field : String) : Bool := i.providers.contains field

/-- The type of a field. -/
def fieldType (i : Item) (field : String) : Except ItemError SchemaType :=
  match i.schema.property? field with
  | some p => .ok p.type
  | none => .error (.noProperty field i.typeName)

/-! ## 2. Documents of the three types -/

/-- The fields of the schema with other names required. -/
def fieldsRequiring (i : Item) (names : List String) : Fields Json :=
  Fields.insert "required" (Json.strings names) i.schema.toFields

/-- The properties for which a test holds. -/
def propertiesWhere (i : Item) (test : String → Bool) : Fields PropertySchema :=
  i.schema.properties.entries.filter fun (name, _) => test name

/-- The schema of the whole item. -/
def document (i : Item) : Json := i.schema.toJson

/-- The schema of the uninitialized item: what is generated is not
required. -/
def uninitializedDocument (i : Item) : Json :=
  .object (i.fieldsRequiring ((i.schema.required.getD []).filter (!i.isGenerated ·)))

/-- The schema of the generated part: what is generated is required,
and there is nothing else. -/
def generatedPartDocument (i : Item) : Json :=
  .object
    [("type", .string "object"),
     ("required", Json.strings i.generatedKeys),
     ("properties", RecordSchema.propertiesJson (i.propertiesWhere i.isGenerated)),
     ("additionalItems", .bool false),
     ("additionalProperties", .bool false)]

/-! ## 3. Declarations -/

/-- The declarations for a document, or the error of the type. -/
def declareType (document : Json) (name : String) : Except ItemError Declarations :=
  (JsonSchema.declare document name).mapError (.badSchema name)

/-- The declaration of one name for a type expression. -/
def aliasOf (name : String) (type : TypeExpr) : Declarations := ⟨name, none, .alias type, []⟩

/-- The declarations of the three types. -/
structure Types where
  whole : Declarations
  uninitialized : Declarations
  generatedPart : Declarations

/-- Declares the three types. Without providers the uninitialized item
is the whole item, and the generated part is empty. -/
def types (i : Item) : Except ItemError Types := do
  let whole ← declareType i.document i.typeName
  if i.providers.isEmpty then
    return ⟨whole, aliasOf i.uninitializedName (.name i.typeName),
      aliasOf i.generatedPartName (.object [] none)⟩
  let uninitialized ← declareType i.uninitializedDocument i.uninitializedName
  let generatedPart ← declareType i.generatedPartDocument i.generatedPartName
  return ⟨whole, uninitialized, generatedPart⟩

/-- How the variants are written: mere aliases stand below the banner
of the whole item and have none of their own. -/
def variantStyle (i : Item) (style : Style) : Style :=
  if i.providers.isEmpty then { style with banner := none } else style

/-- The texts of the three types, in order. -/
def typeTexts (i : Item) (style : Style) (t : Types) : List String :=
  [t.whole.text style, t.uninitialized.text (i.variantStyle style),
   t.generatedPart.text (i.variantStyle style)]

/-- The file of the three types. -/
def typeFile (i : Item) (style : Style) : Except ItemError SourceFile := do
  let t ← i.types
  let body := Text.joinWith "\n\n" ((i.typeTexts style t).map Text.trimmed)
  return ⟨i.outPath, body, i.overwrite⟩

end Item

end TableMapper
