/-
TableMapper.Settings.Basic — what is configured: the mappers, the
tables and indexes they serve, and the records in them.
-/
import TableMapper.Settings.RecordSchema

namespace TableMapper

/-! ## 1. Records of a configuration -/

/-- An index with a hash key of its own. -/
structure GlobalIndex where
  name : String
  hashKey : String
  rangeKey : Option String
  projectionType : String
  nonKeyAttributes : Option (List String)
deriving DecidableEq, Repr

/-- An index under the hash key of the table. -/
structure LocalIndex where
  name : String
  rangeKey : String
  projectionType : String
  nonKeyAttributes : Option (List String)
deriving DecidableEq, Repr

/-- What is said of the records of a table: the file of their types,
their schema, and the providers of fields by name. -/
structure ItemSettings where
  outPath : String
  overwrite : Option Bool
  schema : RecordSchema
  defaultProviders : Dictionary String

/-- What is said of one mapper. -/
structure MapperSettings where
  outPath : String
  overwrite : Option Bool
  tableName : String
  hashKey : String
  rangeKey : Option String
  globalIndexes : List GlobalIndex
  localIndexes : List LocalIndex
  item : ItemSettings

/-- A configuration: mappers by class name. -/
structure Settings where
  mappers : Dictionary MapperSettings

namespace Settings

/-- The configuration without mappers. -/
def empty : Settings := ⟨.empty⟩

end Settings

/-! ## 2. Configurations as documents

Fields stand in the order of the records. What was left out is absent,
and so are indexes and providers if there are none. -/

/-- A field that is there if it has a value. -/
def Fields.optional (name : String) : Option Json → Fields Json
  | none => []
  | some value => [(name, value)]

/-- A list of documents as a field that is absent without any. -/
def Fields.nonempty (name : String) : List Json → Fields Json
  | [] => []
  | items => [(name, .array items)]

namespace GlobalIndex

/-- The index as a document. -/
def toJson (i : GlobalIndex) : Json :=
  .object ([("name", .string i.name), ("hashKey", .string i.hashKey)]
    ++ Fields.optional "rangeKey" (i.rangeKey.map .string)
    ++ [("projectionType", .string i.projectionType)]
    ++ Fields.optional "nonKeyAttributes" (i.nonKeyAttributes.map Json.strings))

end GlobalIndex

namespace LocalIndex

/-- The index as a document. -/
def toJson (i : LocalIndex) : Json :=
  .object ([("name", .string i.name), ("rangeKey", .string i.rangeKey),
      ("projectionType", .string i.projectionType)]
    ++ Fields.optional "nonKeyAttributes" (i.nonKeyAttributes.map Json.strings))

end LocalIndex

namespace ItemSettings

/-- The settings of the records as a document. -/
def toJson (s : ItemSettings) : Json :=
  .object ([("outPath", .string s.outPath)]
    ++ Fields.optional "overwrite" (s.overwrite.map .bool)
    ++ [("schema", s.schema.toJson)]
    ++ (match s.defaultProviders.entries with
      | [] => []
      | entries =>
        [("defaultProviders", .object (entries.map fun (field, p) => (field, .string p)))]))

end ItemSettings

namespace MapperSettings

/-- The settings of a mapper as a document. -/
def toJson (s : MapperSettings) : Json :=
  .object ([("outPath", .string s.outPath)]
    ++ Fields.optional "overwrite" (s.overwrite.map .bool)
    ++ [("tableName", .string s.tableName), ("hashKey", .string s.hashKey)]
    ++ Fields.optional "rangeKey" (s.rangeKey.map .string)
    ++ Fields.nonempty "globalSecondaryIndexes" (s.globalIndexes.map GlobalIndex.toJson)
    ++ Fields.nonempty "localSecondaryIndexes" (s.localIndexes.map LocalIndex.toJson)
    ++ [("item", s.item.toJson)])

end MapperSettings

namespace Settings

/-- The configuration as a document. -/
def toJson (s : Settings) : Json :=
  .object [("mappers", .object (s.mappers.entries.map fun (name, m) => (name, m.toJson)))]

end Settings

end TableMapper
