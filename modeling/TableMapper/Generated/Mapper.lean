/-
TableMapper.Generated.Mapper — the mapper of a table: the class that
reads and writes its items, and the two files it is generated into.
-/
import TableMapper.Generated.ItemTypes
import TableMapper.Generated.MapperFile
import TableMapper.Generated.TableDescription
import TableMapper.ImportPath

namespace TableMapper

open TypeScript (Declarations Literal Style)

/-! ## 1. Mappers -/

/-- A mapper: the class name, the item, and the table with its keys and
indexes. -/
structure Mapper where
  name : String
  item : Item
  tableName : String
  keys : KeySchema
  globalIndexes : List GlobalIndex
  localIndexes : List LocalIndex
  outPath : String
  overwrite : Bool

/-- Why there is no mapper, or no file of it. -/
inductive MapperError where
  | item (error : ItemError)
  | unionKey (property : String)
  | unfitKey (property : String) (type : SchemaType)
deriving DecidableEq, Repr

namespace MapperError

/-- The wording of the error; an error of the item keeps its own. -/
def message : MapperError → String
  | item e => e.message
  | unionKey property =>
    "union types are not currently supported as index keys (property \"" ++ property ++ "\")"
  | unfitKey property type =>
    "property \"" ++ property ++ "\" of type `" ++ type.text ++ "` cannot be used as an index key"

/-- The wording of what is behind the error. -/
def causes : MapperError → List String
  | item e => e.causes
  | unionKey _ => []
  | unfitKey _ _ => []

end MapperError

namespace Mapper

/-- The mapper that is configured. -/
def ofSettings (name : String) (s : MapperSettings) : Except MapperError Mapper := do
  let item ← (Item.ofSettings s.item).mapError .item
  return ⟨name, item, s.tableName, ⟨s.hashKey, s.rangeKey⟩, s.globalIndexes, s.localIndexes,
    s.outPath, s.overwrite.getD true⟩

/-- The name of the type of keys. -/
def keyTypeName (m : Mapper) : String := m.item.typeName ++ "Key"

/-! ## 2. Key attributes -/

/-- The attribute type of a key. -/
def attributeType (m : Mapper) (key : String) : Except MapperError AttributeType :=
  match m.item.fieldType key with
  | .error e => .error (.item e)
  | .ok (.union _) => .error (.unionKey key)
  | .ok (.single .string) => .ok .text
  | .ok (.single .number) => .ok .number
  | .ok (.single .integer) => .ok .number
  | .ok type => .error (.unfitKey key type)

/-- The keys of the global indexes. -/
def globalKeys (m : Mapper) : List String :=
  m.globalIndexes.flatMap fun i => KeySchema.attributes ⟨i.hashKey, i.rangeKey⟩

/-- The range keys of the local indexes. -/
def localKeys (m : Mapper) : List String := m.localIndexes.map (·.rangeKey)

/-- The keys of all indexes and then those of the table; a key may
come several times. -/
def indexKeys (m : Mapper) : List String := m.globalKeys ++ m.localKeys ++ m.keys.attributes

/-- The keys of the table and then those of all indexes. -/
def tableKeys (m : Mapper) : List String := m.keys.attributes ++ m.globalKeys ++ m.localKeys

/-- Defines the attributes of keys, each at its first use, after those
in the dictionary. -/
def defineAttributes (m : Mapper) (d : Dictionary AttributeType) :
    List String → Except MapperError (Dictionary AttributeType)
  | [] => .ok d
  | key :: rest =>
    if d.contains key then m.defineAttributes d rest
    else do
      let type ← m.attributeType key
      m.defineAttributes (d.insert key type) rest

/-- The description of the table. -/
def describeTable (m : Mapper) : Except MapperError TableDescription := do
  let attributes ← m.defineAttributes .empty m.tableKeys
  return ⟨m.tableName, m.keys, attributes.entries, m.globalIndexes.map GlobalIndex.describe,
    m.localIndexes.map (LocalIndex.describe m.keys.hash)⟩

/-! ## 3. Parts of the mapper's file -/

/-- The description of the table as it stands in the class. -/
def tableSchemaText (m : Mapper) : Except MapperError String := do
  return (← m.describeTable).toLiteral.renderContinued 1

/-- The schema of keys: the key properties, none of them required. -/
def keyDocument (m : Mapper) : Json :=
  .object (Fields.insert "properties"
    (RecordSchema.propertiesJson (m.item.propertiesWhere m.indexKeys.contains))
    (m.item.fieldsRequiring []))

/-- The declarations of the type of keys. -/
def keyType (m : Mapper) : Except MapperError Declarations :=
  (Item.declareType m.keyDocument m.keyTypeName).mapError .item

/-- The text of the type of keys. -/
def keyTypeText (m : Mapper) (style : Style) : Except MapperError String := do
  return Text.trimmed ((← m.keyType).text style)

/-- The names of the indexes, global ones first. -/
def indexNames (m : Mapper) : List String :=
  m.globalIndexes.map (·.name) ++ m.localIndexes.map (·.name)

/-- The type of index names. -/
def indexNameText (m : Mapper) : String :=
  let type := if m.indexNames.isEmpty then "never"
    else Text.joinWith " | " (m.indexNames.map Text.quoted)
  "export type IndexName = " ++ type ++ ";"

/-- The specifier by which the mapper imports the module of a
provider. -/
def providerSpecifier (m : Mapper) (base : Location) (p : Provider) : String :=
  if p.isLocal then ImportPath.resolve base m.outPath p.modulePath else p.modulePath

/-- The import of a provider. -/
def providerImport (m : Mapper) (base : Location) (p : Provider) : String :=
  match p.form with
  | .defaultExport =>
    "import " ++ p.symbol ++ " = require('" ++ m.providerSpecifier base p ++ "');"
  | .namedExport =>
    "import \x7b " ++ p.symbol ++ " \x7d from '" ++ m.providerSpecifier base p ++ "';"

/-- The imports of all providers, one for each field. -/
def providerImports (m : Mapper) (base : Location) : String :=
  Text.joinWith "\n" (m.item.providers.values.map (m.providerImport base))

/-- The entry that fills a field from its provider. -/
def generatedEntry (field : String) (p : Provider) : String :=
  Text.indent 3 ++ TypeScript.propertyKey field ++ ": " ++ p.symbol ++ "(),"

/-- The entries for all generated fields. -/
def generatedEntries (m : Mapper) : String :=
  Text.joinWith "\n" (m.item.providers.entries.map fun (field, p) => generatedEntry field p)

/-- The schema of the item as it stands in the class. -/
def itemSchemaText (m : Mapper) : String :=
  (Literal.ofJson m.item.document).renderContinued 1

/-- The schema of an item of which any part may be missing. -/
def partialItemSchemaText (m : Mapper) : String :=
  (Literal.ofJson (.object (m.item.fieldsRequiring []))).renderContinued 1

/-- The specifier by which the mapper imports the item types. -/
def itemSpecifier (m : Mapper) (base : Location) : String :=
  ImportPath.resolve base m.outPath m.item.outPath

/-! ## 4. The files -/

/-- The parts of the file of the mapper. -/
def parts (m : Mapper) (base : Location) (tableSchema keyType : String) : MapperFile where
  name := m.name
  typeName := m.item.typeName
  uninitializedName := m.item.uninitializedName
  generatedPartName := m.item.generatedPartName
  itemSpecifier := m.itemSpecifier base
  providerImports := m.providerImports base
  keyTypeName := m.keyTypeName
  keyType := keyType
  indexNameType := m.indexNameText
  tableSchema := tableSchema
  itemSchema := m.itemSchemaText
  partialItemSchema := m.partialItemSchemaText
  generatedEntries := m.generatedEntries

/-- The file of the mapper. -/
def mapperFile (m : Mapper) (base : Location) (tableSchema keyType : String) : SourceFile :=
  ⟨m.outPath, (m.parts base tableSchema keyType).text, m.overwrite⟩

/-- The files of a mapper, seen from a working directory: that of its
item types and its own. The keys are looked at before any type. -/
def generate (m : Mapper) (style : Style) (base : Location) :
    Except MapperError (List SourceFile) := do
  let tableSchema ← m.tableSchemaText
  let itemFile ← (m.item.typeFile style).mapError .item
  let keyType ← m.keyTypeText style
  return [itemFile, m.mapperFile base tableSchema keyType]

end Mapper

end TableMapper
