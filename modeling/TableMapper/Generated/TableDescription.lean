/-
TableMapper.Generated.TableDescription — the description of a table
with its keys and indexes, as the database asks for it.
-/
import TableMapper.Settings.Basic
import TableMapper.Text.Case
import TableMapper.TypeScript.Literal

namespace TableMapper

open TypeScript (Literal)

/-! ## 1. Descriptions -/

/-- The scalar types a key attribute may have. -/
inductive AttributeType where
  | text
  | number
deriving DecidableEq, Repr

/-- The letter of an attribute type. -/
def AttributeType.letter : AttributeType → String
  | .text => "S"
  | .number => "N"

/-- The keys of a table or of an index. -/
structure KeySchema where
  hash : String
  range : Option String
deriving DecidableEq, Repr

/-- The attribute names of the keys, in order. -/
def KeySchema.attributes (k : KeySchema) : List String := k.hash :: k.range.toList

/-- An index and what is copied into it. -/
structure SecondaryIndex where
  name : String
  keys : KeySchema
  projectionType : String
  nonKeyAttributes : Option (List String)
deriving DecidableEq, Repr

/-- A table. -/
structure TableDescription where
  tableName : String
  keys : KeySchema
  attributes : List (String × AttributeType)
  globalIndexes : List SecondaryIndex
  localIndexes : List SecondaryIndex
deriving DecidableEq, Repr

/-! ## 2. From the settings -/

/-- A text in capital letters. -/
def inCapitals (s : String) : String := String.ofList (Text.toCapitals s.toList)

/-- The index of the settings; the kind of projection is written in
capitals. -/
def GlobalIndex.describe (i : GlobalIndex) : SecondaryIndex :=
  ⟨i.name, ⟨i.hashKey, i.rangeKey⟩, inCapitals i.projectionType, i.nonKeyAttributes⟩

/-- The index of the settings under the hash key of its table. -/
def LocalIndex.describe (hashKey : String) (i : LocalIndex) : SecondaryIndex :=
  ⟨i.name, ⟨hashKey, some i.rangeKey⟩, inCapitals i.projectionType, i.nonKeyAttributes⟩

/-! ## 3. As a literal -/

namespace KeySchema

/-- One key with its role. -/
def entryLiteral (key role : String) : Literal :=
  .mapping [("AttributeName", .text key), ("KeyType", .text role)]

/-- The keys as a literal. -/
def toLiteral (k : KeySchema) : Literal :=
  .sequence (entryLiteral k.hash "HASH" :: k.range.toList.map (entryLiteral · "RANGE"))

end KeySchema

namespace SecondaryIndex

/-- What is copied into the index, as a literal. -/
def projectionLiteral (i : SecondaryIndex) : Literal :=
  .mapping (("ProjectionType", .text i.projectionType) ::
    (i.nonKeyAttributes.map fun names =>
      ("NonKeyAttributes", Literal.sequence (names.map .text))).toList)

/-- The index as a literal. -/
def toLiteral (i : SecondaryIndex) : Literal :=
  .mapping [("IndexName", .text i.name), ("KeySchema", i.keys.toLiteral),
    ("Projection", i.projectionLiteral)]

/-- A list of indexes as an entry, if there are any. -/
def entries (name : String) : List SecondaryIndex → List (String × Literal)
  | [] => []
  | indexes => [(name, .sequence (indexes.map toLiteral))]

end SecondaryIndex

namespace TableDescription

/-- An attribute and its type as a literal. -/
def attributeLiteral (a : String × AttributeType) : Literal :=
  .mapping [("AttributeName", .text a.1), ("AttributeType", .text a.2.letter)]

/-- The description as a literal. -/
def toLiteral (t : TableDescription) : Literal :=
  .mapping ([("TableName", .text t.tableName), ("KeySchema", t.keys.toLiteral),
      ("AttributeDefinitions", .sequence (t.attributes.map attributeLiteral))]
    ++ SecondaryIndex.entries "GlobalSecondaryIndexes" t.globalIndexes
    ++ SecondaryIndex.entries "LocalSecondaryIndexes" t.localIndexes)

end TableDescription

end TableMapper
