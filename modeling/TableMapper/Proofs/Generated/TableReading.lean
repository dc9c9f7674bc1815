/-
TableMapper.Proofs.Generated.TableReading — the description of a table
as the database reads it from the text in the mapper.

The reader knows the fields of a table, of an index and of a key, and
looks them up by name in the literal that the grammar reads from the
text.
-/
import TableMapper.Generated.Mapper
import TableMapper.Proofs.Except
import TableMapper.Proofs.TypeScript.LiteralGrammar

namespace TableMapper

open TypeScript (Literal)

/-! ## 1. What is read -/

/-- An attribute in a list of keys, with its role. -/
structure KeyElement where
  name : String
  role : String
deriving DecidableEq, Repr

/-- An attribute that is defined, with its type. -/
structure AttributeDefinition where
  name : String
  type : String
deriving DecidableEq, Repr

/-- An index that is asked for. -/
structure IndexRequest where
  name : String
  keys : List KeyElement
  projectionType : String
  nonKeyAttributes : Option (List String)
deriving DecidableEq, Repr

/-- A table that is asked for. -/
structure TableRequest where
  tableName : String
  keys : List KeyElement
  definitions : List AttributeDefinition
  globalIndexes : List IndexRequest
  localIndexes : List IndexRequest
deriving DecidableEq, Repr

/-- The lists of keys of a table and of its indexes. -/
def TableRequest.keyLists (t : TableRequest) : List (List KeyElement) :=
  t.keys :: (t.globalIndexes.map IndexRequest.keys ++ t.localIndexes.map IndexRequest.keys)

/-- The names of the attributes that are defined. -/
def TableRequest.defined (t : TableRequest) : List String :=
  t.definitions.map AttributeDefinition.name

/-! ## 2. The reader -/

namespace TypeScript.Literal

/-- The value of the first entry of that name. -/
def field? (name : String) : Literal → Option Literal
  | mapping entries => Fields.get? name entries
  | _ => none

/-- The content of a text. -/
def text? : Literal → Option String
  | text s => some s
  | _ => none

/-- The text in a field. -/
def textField? (name : String) (literal : Literal) : Option String :=
  (literal.field? name).bind text?

/-- What the items of a sequence are read as, if all of them are. -/
def list? {α : Type} (read : Literal → Option α) : Literal → Option (List α)
  | sequence items => items.mapM read
  | _ => none

end TypeScript.Literal

/-- Reads an entry of a list of keys. -/
def KeyElement.read? (literal : Literal) : Option KeyElement := do
  let name ← literal.textField? "AttributeName"
  let role ← literal.textField? "KeyType"
  return ⟨name, role⟩

/-- Reads the definition of an attribute. -/
def AttributeDefinition.read? (literal : Literal) : Option AttributeDefinition := do
  let name ← literal.textField? "AttributeName"
  let type ← literal.textField? "AttributeType"
  return ⟨name, type⟩

/-- Reads the list of keys of a table or an index. -/
def readKeys? (literal : Literal) : Option (List KeyElement) :=
  (literal.field? "KeySchema").bind (Literal.list? KeyElement.read?)

/-- Reads the names that are copied into an index, if it lists any. -/
def readNonKeys? (projection : Literal) : Option (Option (List String)) :=
  match projection.field? "NonKeyAttributes" with
  | none => some none
  | some names => (names.list? Literal.text?).map some

/-- Reads an index. -/
def IndexRequest.read? (literal : Literal) : Option IndexRequest := do
  let name ← literal.textField? "IndexName"
  let keys ← readKeys? literal
  let projection ← literal.field? "Projection"
  let projectionType ← projection.textField? "ProjectionType"
  let nonKeyAttributes ← readNonKeys? projection
  return ⟨name, keys, projectionType, nonKeyAttributes⟩

/-- Reads the indexes in a field, which may be absent. -/
def readIndexes? (name : String) (literal : Literal) : Option (List IndexRequest) :=
  match literal.field? name with
  | none => some []
  | some indexes => indexes.list? IndexRequest.read?

/-- Reads a table. -/
def TableRequest.ofLiteral? (literal : Literal) : Option TableRequest := do
  let tableName ← literal.textField? "TableName"
  let keys ← readKeys? literal
  let definitions ←
    (literal.field? "AttributeDefinitions").bind (Literal.list? AttributeDefinition.read?)
  let globalIndexes ← readIndexes? "GlobalSecondaryIndexes" literal
  let localIndexes ← readIndexes? "LocalSecondaryIndexes" literal
  return ⟨tableName, keys, definitions, globalIndexes, localIndexes⟩

/-- Reads the description of a table from its text. -/
def TableRequest.read? (source : String) : Option TableRequest :=
  (Literal.ofText? source).bind TableRequest.ofLiteral?

/-! ## 3. What is described -/

/-- The entries for the keys: the hash key, and behind it the range key
if there is one. -/
def KeySchema.elements (k : KeySchema) : List KeyElement :=
  ⟨k.hash, "HASH"⟩ :: k.range.toList.map fun range => ⟨range, "RANGE"⟩

/-- The definition of an attribute of a type. -/
def AttributeDefinition.ofType (a : String × AttributeType) : AttributeDefinition :=
  ⟨a.1, a.2.letter⟩

/-- What is asked for by an index. -/
def SecondaryIndex.request (i : SecondaryIndex) : IndexRequest :=
  ⟨i.name, i.keys.elements, i.projectionType, i.nonKeyAttributes⟩

/-- What is asked for by the description of a table. -/
def TableDescription.request (t : TableDescription) : TableRequest where
  tableName := t.tableName
  keys := t.keys.elements
  definitions := t.attributes.map AttributeDefinition.ofType
  globalIndexes := t.globalIndexes.map SecondaryIndex.request
  localIndexes := t.localIndexes.map SecondaryIndex.request

/-! ## 4. The description is read back -/

theorem mapM_map_eq_some {α β γ : Type} {write : α → β} {read : β → Option γ} {value : α → γ}
    (h : ∀ a, read (write a) = some (value a)) (items : List α) :
    (items.map write).mapM read = some (items.map value) := by
  induction items with
  | nil => rfl
  | cons a rest ih =>
    rw [List.map_cons, List.mapM_cons, h, ih]
    rfl

/-- A sequence of literals is read item by item. -/
theorem list?_sequence {α γ : Type} {write : α → Literal} {read : Literal → Option γ}
    {value : α → γ} (h : ∀ a, read (write a) = some (value a)) (items : List α) :
    Literal.list? read (.sequence (items.map write)) = some (items.map value) :=
  mapM_map_eq_some h items

theorem read?_attributeLiteral (a : String × AttributeType) :
    AttributeDefinition.read? (TableDescription.attributeLiteral a) =
      some (AttributeDefinition.ofType a) := rfl

theorem list?_keySchema : ∀ k : KeySchema,
    Literal.list? KeyElement.read? k.toLiteral = some k.elements
  | ⟨_, none⟩ => rfl
  | ⟨_, some _⟩ => rfl

/-- What is copied into an index is read back. -/
theorem readNonKeys?_projection (i : SecondaryIndex) :
    readNonKeys? i.projectionLiteral = some i.nonKeyAttributes := by
  obtain ⟨name, keys, projectionType, nonKeyAttributes⟩ := i
  cases nonKeyAttributes with
  | none => rfl
  | some names =>
    have hname : ∀ s : String, Literal.text? (.text s) = some (id s) := fun _ => rfl
    have hnames := list?_sequence hname names
    rw [List.map_id] at hnames
    exact congrArg (Option.map some) hnames

/-- An index is read back. -/
theorem read?_index (i : SecondaryIndex) :
    IndexRequest.read? i.toLiteral = some i.request := by
  have hkeys : readKeys? i.toLiteral = some i.keys.elements := list?_keySchema i.keys
  have hprojection : i.toLiteral.field? "Projection" = some i.projectionLiteral := rfl
  have htype : i.projectionLiteral.textField? "ProjectionType" = some i.projectionType := rfl
  have hname : i.toLiteral.textField? "IndexName" = some i.name := rfl
  rw [IndexRequest.read?, hname, hkeys, hprojection]
  simp only [Option.bind_eq_bind, Option.bind_some, htype, readNonKeys?_projection]
  rfl

theorem list?_indexes (indexes : List SecondaryIndex) :
    Literal.list? IndexRequest.read? (.sequence (indexes.map SecondaryIndex.toLiteral)) =
      some (indexes.map SecondaryIndex.request) :=
  list?_sequence read?_index indexes

theorem readIndexes?_global (t : TableDescription) :
    readIndexes? "GlobalSecondaryIndexes" t.toLiteral =
      some (t.globalIndexes.map SecondaryIndex.request) := by
  obtain ⟨tableName, keys, attributes, globalIndexes, localIndexes⟩ := t
  cases globalIndexes with
  | nil => cases localIndexes <;> rfl
  | cons i rest => exact list?_indexes (i :: rest)

theorem readIndexes?_local (t : TableDescription) :
    readIndexes? "LocalSecondaryIndexes" t.toLiteral =
      some (t.localIndexes.map SecondaryIndex.request) := by
  obtain ⟨tableName, keys, attributes, globalIndexes, localIndexes⟩ := t
  cases localIndexes with
  | nil => cases globalIndexes <;> rfl
  | cons i rest => cases globalIndexes <;> exact list?_indexes (i :: rest)

/-- The description of a table is read back from its literal. -/
theorem ofLiteral?_toLiteral (t : TableDescription) :
    TableRequest.ofLiteral? t.toLiteral = some t.request := by
  have hname : t.toLiteral.textField? "TableName" = some t.tableName := rfl
  have hkeys : readKeys? t.toLiteral = some t.keys.elements := list?_keySchema t.keys
  have hdefinitions : (t.toLiteral.field? "AttributeDefinitions").bind
      (Literal.list? AttributeDefinition.read?) =
        some (t.attributes.map AttributeDefinition.ofType) :=
    list?_sequence read?_attributeLiteral t.attributes
  rw [TableRequest.ofLiteral?, hname, hkeys, hdefinitions]
  simp only [Option.bind_eq_bind, Option.bind_some, readIndexes?_global, readIndexes?_local]
  rfl

/-- The description of a table is read back from its text, wherever it
is written. -/
theorem read?_render (t : TableDescription) (place : Literal.Placement) :
    TableRequest.read? (t.toLiteral.render place) = some t.request := by
  rw [TableRequest.read?, Literal.ofText?_render, Option.bind_some, ofLiteral?_toLiteral]

end TableMapper
