/-
TableMapper.Settings.Reading — the configuration that a value stands
for.

The entries of a record are read in written order, each completely
before the next, and the first that fails is the error. Only after all
of them a missing field is one: the first that the record declares. A
null stands for an empty record, list or map, and for a field that is
left out.
-/
import TableMapper.Settings.Basic
import TableMapper.Settings.Error

namespace TableMapper.Settings

open Yaml (Node)
open JsonSchema (TypeName)

/-- Reading either gives a result or says what is wrong. -/
abbrev Outcome := Except ShapeError

/-! ## 1. Plain values -/

/-- Reads a text. -/
def readText : Node → Outcome String
  | .text s => .ok s
  | node => .error (.wrongKind node .text)

/-- Reads a truth value. -/
def readBool : Node → Outcome Bool
  | .bool b => .ok b
  | node => .error (.wrongKind node .boolean)

/-- Reads a value that may be left out. -/
def readOptional {α : Type} (read : Node → Outcome α) : Node → Outcome (Option α)
  | .null => .ok none
  | node => (read node).map some

/-- Reads a list. -/
def readList {α : Type} (read : Node → Outcome α) : Node → Outcome (List α)
  | .null => .ok []
  | .sequence items => items.mapM read
  | node => .error (.wrongKind node .sequence)

/-- Reads the entries of a map with names as keys, after others. -/
def readEntries {α : Type} (read : Node → Outcome α) (d : Dictionary α) :
    List (Node × Node) → Outcome (Dictionary α)
  | [] => .ok d
  | (key, value) :: rest => do
    let name ← readText key
    let value ← read value
    readEntries read (d.insert name value) rest

/-- Reads a map with names as keys. -/
def readMap {α : Type} (read : Node → Outcome α) : Node → Outcome (Dictionary α)
  | .null => .ok .empty
  | .mapping entries => readEntries read .empty entries
  | node => .error (.wrongKind node .map)

/-! ## 2. Records -/

/-- A declared field: its name, and how its value is put into a draft
of the record. -/
structure Field (δ : Type) where
  name : String
  read : δ → Node → Outcome δ

/-- A field whose value is read first and then put into the draft. -/
def Field.reading {δ α : Type} (name : String) (read : Node → Outcome α) (put : δ → α → δ) :
    Field δ :=
  ⟨name, fun draft node => (read node).map (put draft)⟩

/-- Reads the entries of a record into a draft. -/
def readFields {δ : Type} (fields : List (Field δ)) (draft : δ) :
    List (Node × Node) → Outcome δ
  | [] => .ok draft
  | (.text name, value) :: rest =>
    match fields.find? (·.name == name) with
    | some field => do readFields fields (← field.read draft value) rest
    | none => .error (.unknownField name (fields.map (·.name)))
  | (key, _) :: _ => .error (.wrongKind key .fieldName)

/-- Reads a record into a draft. -/
def readRecord {δ : Type} (record : String) (fields : List (Field δ)) (blank : δ) :
    Node → Outcome δ
  | .null => .ok blank
  | .mapping entries => readFields fields blank entries
  | node => .error (.wrongKind node (.record record))

/-- The value of a field that must not be missing. -/
def demand {α : Type} (name : String) : Option α → Outcome α
  | some value => .ok value
  | none => .error (.missingField name)

/-! ## 3. Schemas -/

/-- The type name a value stands for: a text, or a map with a null
under the name or under its number. -/
def typeName? : Node → Option TypeName
  | .text s => TypeName.ofText? s
  | .mapping [(.text s, .null)] => TypeName.ofText? s
  | .mapping [(.whole n, .null)] => if n < 0 then none else TypeName.all[n.toNat]?
  | _ => none

/-- Reads the type of a property. -/
def readSchemaType (node : Node) : Outcome SchemaType :=
  match typeName? node with
  | some name => .ok (.single name)
  | none => match node with
    | .sequence items => match items.mapM typeName? with
      | some names => .ok (.union names)
      | none => .error .noSchemaType
    | _ => .error .noSchemaType

mutual

/-- Reads a keyword's value as a document. What is no finite number
becomes a null. -/
def readDocument : Node → Outcome Json
  | .null => .ok .null
  | .bool b => .ok (.bool b)
  | .whole n => .ok (.number (.whole n))
  | .real (.finite x) => .ok (.number (.double x))
  | .real _ => .ok .null
  | .text s => .ok (.string s)
  | .sequence items => do return .array (← readDocuments items)
  | .mapping entries => do return .object (← readDocumentFields [] entries)

/-- Reads the items of a sequence as documents. -/
def readDocuments : List Node → Outcome (List Json)
  | [] => .ok []
  | item :: rest => do return (← readDocument item) :: (← readDocuments rest)

/-- Reads entries as the fields of a document, after others. -/
def readDocumentFields (fields : Fields Json) : List (Node × Node) → Outcome (List (String × Json))
  | [] => .ok fields
  | (.text name, value) :: rest => do
    let value ← readDocument value
    readDocumentFields (Fields.insert name value fields) rest
  | (key, _) :: _ => .error (.wrongKind key .key)

end

/-- The type of a property and the entries of its other keywords, as
far as they are read. -/
structure PropertyDraft where
  type : Option SchemaType := none
  others : List (String × Node) := []

/-- Reads the entries of a property. -/
def readPropertyEntries (draft : PropertyDraft) : List (Node × Node) → Outcome PropertyDraft
  | [] => .ok draft
  | (.text name, value) :: rest =>
    if name = "type" then do
      let type ← readSchemaType value
      readPropertyEntries { draft with type := some type } rest
    else readPropertyEntries { draft with others := draft.others ++ [(name, value)] } rest
  | (key, _) :: _ => .error (.wrongKind key .fieldName)

/-- Reads other keywords as documents, after those in the dictionary. -/
def readKeywords (d : Dictionary Json) : List (String × Node) → Outcome (Dictionary Json)
  | [] => .ok d
  | (name, value) :: rest => do
    let value ← readDocument value
    readKeywords (d.insert name value) rest

/-- A property from what was read of it; the other keywords are read
only once the type is known. -/
def PropertyDraft.finish (draft : PropertyDraft) : Outcome PropertySchema := do
  let type ← demand "type" draft.type
  let keywords ← readKeywords .empty draft.others
  return ⟨type, keywords⟩

/-- Reads the schema of a property. -/
def readProperty : Node → Outcome PropertySchema
  | .null => PropertyDraft.finish {}
  | .mapping entries => do (← readPropertyEntries {} entries).finish
  | node => .error (.wrongKind node (.record "PropertySchema"))

/-- Reads the type of a record schema, which says nothing new. -/
def readObjectTag : Node → Outcome Unit
  | .text s => if s = "object" then .ok () else .error (.unknownVariant s)
  | node => .error (.wrongKind node .variant)

/-- A record schema as far as it is read. -/
structure RecordDraft where
  name : Option String := none
  tag : Option Unit := none
  required : Option (List String) := none
  properties : Dictionary PropertySchema := .empty
  additionalProperties : Option Bool := none

/-- The fields of a record schema. -/
def recordFields : List (Field RecordDraft) :=
  [.reading "name" readText fun d v => { d with name := some v },
   .reading "type" readObjectTag fun d v => { d with tag := some v },
   .reading "required" (readOptional (readList readText)) fun d v => { d with required := v },
   .reading "properties" (readMap readProperty) fun d v => { d with properties := v },
   .reading "additionalProperties" (readOptional readBool)
     fun d v => { d with additionalProperties := v }]

/-- Reads the schema of a record. -/
def readRecordSchema (node : Node) : Outcome RecordSchema := do
  let d ← readRecord "NamedObjectSchema" recordFields {} node
  let name ← demand "name" d.name
  let _ ← demand "type" d.tag
  return ⟨name, d.required, d.properties, d.additionalProperties⟩

/-! ## 4. Indexes -/

/-- An index as far as it is read. -/
structure IndexDraft where
  name : Option String := none
  hashKey : Option String := none
  rangeKey : Option String := none
  projectionType : Option String := none
  nonKeyAttributes : Option (List String) := none

/-- The field for the name of an index. -/
def indexName : Field IndexDraft := .reading "name" readText fun d v => { d with name := some v }

/-- The last fields of an index. -/
def projectionFields : List (Field IndexDraft) :=
  [.reading "projectionType" readText fun d v => { d with projectionType := some v },
   .reading "nonKeyAttributes" (readOptional (readList readText))
     fun d v => { d with nonKeyAttributes := v }]

/-- The fields of a global index. -/
def globalIndexFields : List (Field IndexDraft) :=
  [indexName,
   .reading "hashKey" readText fun d v => { d with hashKey := some v },
   .reading "rangeKey" (readOptional readText) fun d v => { d with rangeKey := v }]
    ++ projectionFields

/-- Reads a global index. -/
def readGlobalIndex (node : Node) : Outcome GlobalIndex := do
  let d ← readRecord "GlobalSecondaryIndex" globalIndexFields {} node
  let name ← demand "name" d.name
  let hashKey ← demand "hashKey" d.hashKey
  let projectionType ← demand "projectionType" d.projectionType
  return ⟨name, hashKey, d.rangeKey, projectionType, d.nonKeyAttributes⟩

/-- The fields of a local index. -/
def localIndexFields : List (Field IndexDraft) :=
  [indexName,
   .reading "rangeKey" readText fun d v => { d with rangeKey := some v }]
    ++ projectionFields

/-- Reads a local index. -/
def readLocalIndex (node : Node) : Outcome LocalIndex := do
  let d ← readRecord "LocalSecondaryIndex" localIndexFields {} node
  let name ← demand "name" d.name
  let rangeKey ← demand "rangeKey" d.rangeKey
  let projectionType ← demand "projectionType" d.projectionType
  return ⟨name, rangeKey, projectionType, d.nonKeyAttributes⟩

/-! ## 5. Items, mappers, configurations -/

/-- The settings of an item as far as they are read. -/
structure ItemDraft where
  outPath : Option String := none
  overwrite : Option Bool := none
  schema : Option RecordSchema := none
  defaultProviders : Dictionary String := .empty

/-- The fields of the settings of an item. -/
def itemFields : List (Field ItemDraft) :=
  [.reading "outPath" readText fun d v => { d with outPath := some v },
   .reading "overwrite" (readOptional readBool) fun d v => { d with overwrite := v },
   .reading "schema" readRecordSchema fun d v => { d with schema := some v },
   .reading "defaultProviders" (readMap readText) fun d v => { d with defaultProviders := v }]

/-- Reads the settings of an item. -/
def readItem (node : Node) : Outcome ItemSettings := do
  let d ← readRecord "ItemConfig" itemFields {} node
  let outPath ← demand "outPath" d.outPath
  let schema ← demand "schema" d.schema
  return ⟨outPath, d.overwrite, schema, d.defaultProviders⟩

/-- The settings of a mapper as far as they are read. -/
structure MapperDraft where
  outPath : Option String := none
  overwrite : Option Bool := none
  tableName : Option String := none
  hashKey : Option String := none
  rangeKey : Option String := none
  globalIndexes : List GlobalIndex := []
  localIndexes : List LocalIndex := []
  item : Option ItemSettings := none

/-- The fields of the settings of a mapper. -/
def mapperFields : List (Field MapperDraft) :=
  [.reading "outPath" readText fun d v => { d with outPath := some v },
   .reading "overwrite" (readOptional readBool) fun d v => { d with overwrite := v },
   .reading "tableName" readText fun d v => { d with tableName := some v },
   .reading "hashKey" readText fun d v => { d with hashKey := some v },
   .reading "rangeKey" (readOptional readText) fun d v => { d with rangeKey := v },
   .reading "globalSecondaryIndexes" (readList readGlobalIndex)
     fun d v => { d with globalIndexes := v },
   .reading "localSecondaryIndexes" (readList readLocalIndex)
     fun d v => { d with localIndexes := v },
   .reading "item" readItem fun d v => { d with item := some v }]

/-- Reads the settings of a mapper. -/
def readMapper (node : Node) : Outcome MapperSettings := do
  let d ← readRecord "MapperConfig" mapperFields {} node
  let outPath ← demand "outPath" d.outPath
  let tableName ← demand "tableName" d.tableName
  let hashKey ← demand "hashKey" d.hashKey
  let item ← demand "item" d.item
  return ⟨outPath, d.overwrite, tableName, hashKey, d.rangeKey, d.globalIndexes,
    d.localIndexes, item⟩

/-- The fields of a configuration. -/
def settingsFields : List (Field Settings) :=
  [.reading "mappers" (readMap readMapper) fun d v => { d with mappers := v }]

/-- Reads a configuration. -/
def ofNode (node : Node) : Outcome Settings := readRecord "Config" settingsFields .empty node

end TableMapper.Settings
