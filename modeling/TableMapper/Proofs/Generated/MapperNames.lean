/-
TableMapper.Proofs.Generated.MapperNames — the names that the file of a
mapper binds.

The file is a list of statements, of which each binds its names
(`Mapper.statements`). The names come from the providers, the schema,
the type of keys, the settings and the file itself, and nothing keeps
those of one source apart from those of another: what follows is exactly
when they are distinct.
-/
import Mathlib.Data.List.Nodup
import TableMapper.Proofs.Generated.ItemNames
import TableMapper.Proofs.Generated.KeyAttributes
import TableMapper.Proofs.Generated.MapperFailure
import TableMapper.Proofs.TypeScript.TypeText

namespace TableMapper

open TypeScript (Declarations Enumeration Style)

/-! ## 1. Statements -/

/-- A statement at the top level of a source file, or an empty line
between two. -/
inductive Statement where
  | emptyLine
  | importAll (name specifier : String)
  | importDefault (name specifier : String)
  | importName (name specifier : String)
  | importNames (names : List String) (specifier : String)
  | types (style : Style) (declared : Declarations)
  | typeAlias (name type : String)
  | interface (name : String) (body : List String)
  | constant (name value : String)
  | classWith (name : String) (members : List String)

namespace Statement

/-- The lines of a statement; one line may be of several. -/
def lines : Statement → List String
  | emptyLine => [""]
  | importAll name specifier => ["import * as " ++ name ++ " from '" ++ specifier ++ "';"]
  | importDefault name specifier => ["import " ++ name ++ " = require('" ++ specifier ++ "');"]
  | importName name specifier => ["import \x7b " ++ name ++ " \x7d from '" ++ specifier ++ "';"]
  | importNames names specifier =>
    ["import \x7b"] ++ names.dropLast.map ("  " ++ · ++ ",")
      ++ names.getLast?.toList.map ("  " ++ ·) ++ ["\x7d from '" ++ specifier ++ "';"]
  | types style declared => [Text.trimmed (declared.text style)]
  | typeAlias name type => ["export type " ++ name ++ " = " ++ type ++ ";"]
  | interface name body => ("export interface " ++ name) :: body
  | constant name value => ["const " ++ name ++ " = " ++ value ++ ";"]
  | classWith name members => ("export class " ++ name ++ " \x7b") :: members ++ ["\x7d"]

/-- The names that a statement binds. -/
def binds : Statement → List String
  | emptyLine => []
  | importAll name _ => [name]
  | importDefault name _ => [name]
  | importName name _ => [name]
  | importNames names _ => names
  | types _ declared => declared.names
  | typeAlias name _ => [name]
  | interface name _ => [name]
  | constant name _ => [name]
  | classWith name _ => [name]

end Statement

/-- The text of lines that are each ended. -/
def ended (lines : List String) : String := String.join (lines.map (· ++ "\n"))

theorem ended_append (lines more : List String) :
    ended (lines ++ more) = ended lines ++ ended more := by
  simp [ended]

/-- Lines that are joined, if there are any, have the text of the lines
one by one. -/
theorem ended_joined {lines : List String} (h : ∀ line ∈ lines, line ≠ "") :
    ended (if (Text.joinWith "\n" lines).isEmpty then [] else [Text.joinWith "\n" lines]) =
      ended lines := by
  cases lines with
  | nil => rfl
  | cons line rest =>
    have hlines := TypeScript.TypeExpr.joinWith_lines (List.cons_ne_nil line rest)
    have hjoined : Text.joinWith "\n" (line :: rest) ≠ "" := by
      cases rest with
      | nil => exact h line List.mem_cons_self
      | cons next rest => simp [Text.joinWith]
    rw [if_neg (by simpa using hjoined)]
    have hended : (ended (line :: rest)).toList = (line :: rest).flatMap TypeScript.endedLine := by
      rw [ended, String.toList_join, List.flatMap_map]
      simp only [String.toList_append]
      rfl
    apply String.toList_injective
    rw [hended, ← hlines]
    simp [ended]

namespace MapperFile

/-- The members of the class. -/
def members (f : MapperFile) : List String :=
  f.descriptions ++ f.initializers ++ f.putMethod ++ f.getMethod ++ f.deleteMethod ++ f.queryMethod
    ++ f.updateMethod

/-- The statements below the imports of providers, of which two are
given. -/
def statementsBelow (f : MapperFile) (keyTypes indexNames : Statement) : List Statement :=
  [.importNames [f.typeName, f.uninitializedName, f.generatedPartName] f.itemSpecifier,
    .emptyLine, keyTypes, .emptyLine, indexNames, .emptyLine,
    .interface "QueryOptions"
      ["  extends Omit<DocumentClient.QueryInput, 'TableName' | 'IndexName'> \x7b",
        "  IndexName?: IndexName;", "\x7d"],
    .emptyLine, .constant "ajv" "new Ajv(\x7b allErrors: true \x7d)", .emptyLine,
    .classWith f.name f.members]

/-- The statements that come before the imports of providers. -/
def statementsAbove : List Statement :=
  [.importName "DocumentClient" "aws-sdk/clients/dynamodb", .importAll "Ajv" "ajv"]

/-- The lines of a file are those of its statements, apart from the
imports of providers, which are joined. -/
theorem lines_eq (f : MapperFile) {keyTypes indexNames : Statement}
    (hkeys : keyTypes.lines = [f.keyType]) (hindexes : indexNames.lines = [f.indexNameType]) :
    f.preamble ++ f.classLines = statementsAbove.flatMap Statement.lines
      ++ (if f.providerImports.isEmpty then [] else [f.providerImports])
      ++ (f.statementsBelow keyTypes indexNames).flatMap Statement.lines := by
  simp only [statementsBelow, List.flatMap_cons, List.flatMap_nil, hkeys, hindexes]
  simp [preamble, classLines, statementsAbove, Statement.lines, itemImport, members]

theorem binds_statementsBelow (f : MapperFile) (keyTypes indexNames : Statement) :
    (f.statementsBelow keyTypes indexNames).flatMap Statement.binds =
      [f.typeName, f.uninitializedName, f.generatedPartName] ++ keyTypes.binds ++ indexNames.binds
        ++ ["QueryOptions", "ajv", f.name] := by
  simp [statementsBelow, Statement.binds]

end MapperFile

namespace Mapper

/-- The import of a provider. -/
def providerStatement (m : Mapper) (base : Location) (p : Provider) : Statement :=
  match p.form with
  | .defaultExport => .importDefault p.symbol (m.providerSpecifier base p)
  | .namedExport => .importName p.symbol (m.providerSpecifier base p)

/-- What the type of index names stands for. -/
def indexNameType (m : Mapper) : String :=
  if m.indexNames.isEmpty then "never" else Text.joinWith " | " (m.indexNames.map Text.quoted)

/-- The statements of the file of a mapper. -/
def statements (m : Mapper) (style : Style) (base : Location) (tableSchema : String)
    (keyType : Declarations) : List Statement :=
  MapperFile.statementsAbove ++ m.item.providers.values.map (m.providerStatement base)
    ++ (m.parts base tableSchema (Text.trimmed (keyType.text style))).statementsBelow
      (.types style keyType) (.typeAlias "IndexName" m.indexNameType)

theorem lines_providerStatement (m : Mapper) (base : Location) (p : Provider) :
    (m.providerStatement base p).lines = [m.providerImport base p] := by
  unfold providerStatement providerImport
  cases p.form <;> rfl

theorem binds_providerStatement (m : Mapper) (base : Location) (p : Provider) :
    (m.providerStatement base p).binds = [p.symbol] := by
  unfold providerStatement
  cases p.form <;> rfl

/-- The import of a provider is no empty line. -/
theorem providerImport_ne_empty (m : Mapper) (base : Location) (p : Provider) :
    m.providerImport base p ≠ "" := by
  unfold providerImport
  cases p.form <;> simp

/-- The text of a mapper's file is that of its statements. -/
theorem text_parts (m : Mapper) (style : Style) (base : Location) (tableSchema : String)
    (keyType : Declarations) :
    (m.parts base tableSchema (Text.trimmed (keyType.text style))).text =
      ended ((m.statements style base tableSchema keyType).flatMap Statement.lines) := by
  have himports : (m.item.providers.values.map (m.providerStatement base)).flatMap Statement.lines =
      m.item.providers.values.map (m.providerImport base) := by
    rw [List.flatMap_map, List.map_eq_flatMap]
    simp only [lines_providerStatement]
  let f := m.parts base tableSchema (Text.trimmed (keyType.text style))
  have hjoined : ended (if f.providerImports.isEmpty then [] else [f.providerImports]) =
      ended (m.item.providers.values.map (m.providerImport base)) :=
    ended_joined (by simp [providerImport_ne_empty])
  have hindexes : (Statement.typeAlias "IndexName" m.indexNameType).lines = [f.indexNameType] := by
    have hopening : "export type " ++ "IndexName" ++ " = " = "export type IndexName = " := by simp
    simp only [Statement.lines, hopening]
    rfl
  have hkeys : (Statement.types style keyType).lines = [f.keyType] := rfl
  show ended (f.preamble ++ f.classLines) = _
  rw [f.lines_eq hkeys hindexes, statements, List.flatMap_append, List.flatMap_append, himports,
    ended_append, ended_append, ended_append, ended_append, ← hjoined]

/-! ## 2. Names -/

/-- The names that every mapper's file binds, whatever the mapper. -/
def fixedNames : List String := ["DocumentClient", "Ajv", "IndexName", "QueryOptions", "ajv"]

/-- The names of types that are made from the name of the schema. -/
def typeNames (m : Mapper) : List String :=
  [m.item.typeName, m.item.uninitializedName, m.item.generatedPartName, m.keyTypeName]

/-- The symbols of providers, one for each field. -/
def symbols (m : Mapper) : List String := m.item.providers.values.map (·.symbol)

/-- The names that the file of a mapper binds, in their order. -/
def boundNames (m : Mapper) (keyType : Declarations) : List String :=
  ["DocumentClient", "Ajv"] ++ m.symbols
    ++ [m.item.typeName, m.item.uninitializedName, m.item.generatedPartName]
    ++ (m.keyTypeName :: keyType.enumerations.map Enumeration.name)
    ++ ["IndexName", "QueryOptions", "ajv", m.name]

/-- The names of one source are no names of another, and those of
providers come once each. -/
structure NamesApart (m : Mapper) (keyType : Declarations) : Prop where
  symbols : m.symbols.Nodup
  symbol : ∀ s ∈ m.symbols, s ∉ keyType.enumerations.map Enumeration.name ++
    m.name :: (m.typeNames ++ fixedNames)
  enumeration : ∀ e ∈ keyType.enumerations, e.name ∉ m.name :: (m.typeNames ++ fixedNames)
  className : m.name ∉ m.typeNames ++ fixedNames
  typeName : m.item.typeName ∉ fixedNames

theorem binds_statements (m : Mapper) (style : Style) (base : Location) (tableSchema : String)
    {keyType : Declarations} (hname : keyType.name = m.keyTypeName) :
    (m.statements style base tableSchema keyType).flatMap Statement.binds =
      m.boundNames keyType := by
  have hproviders : (m.item.providers.values.map (m.providerStatement base)).flatMap
      Statement.binds = m.symbols := by
    rw [symbols, List.flatMap_map, List.map_eq_flatMap]
    simp only [binds_providerStatement]
  rw [statements, List.flatMap_append, List.flatMap_append, hproviders,
    MapperFile.binds_statementsBelow]
  simp [MapperFile.statementsAbove, Statement.binds, Declarations.names, boundNames, parts, hname]

/-- The types are called differently from each other, and from what is
fixed unless the schema is called like that. -/
theorem typeNames_fixedNames_nodup_iff (m : Mapper) :
    (m.typeNames ++ fixedNames).Nodup ↔ m.item.typeName ∉ fixedNames := by
  have hu : m.item.uninitializedName ∉ fixedNames := by
    have hfixed : ∀ name ∈ fixedNames, ¬ "Uninitialized".toList <+: name.toList := by decide
    exact fun h => hfixed _ h ⟨m.item.typeName.toList, String.toList_append.symm⟩
  have hg : m.item.generatedPartName ∉ fixedNames := by
    have hfixed : ∀ name ∈ fixedNames, ¬ "GeneratedPartial".toList <+: name.toList := by decide
    exact fun h => hfixed _ h ⟨m.item.typeName.toList, String.toList_append.symm⟩
  have hk : m.keyTypeName ∉ fixedNames := by
    have hfixed : ∀ name ∈ fixedNames, ¬ "Key".toList <:+ name.toList := by decide
    exact fun h => hfixed _ h ⟨m.item.typeName.toList, String.toList_append.symm⟩
  have htypes : m.typeNames.Nodup := by
    -- their lengths differ
    have hkey : m.keyTypeName.length = m.item.typeName.length + 3 := String.length_append _ _
    refine List.Nodup.of_map String.length ?_
    simp only [typeNames, List.map_cons, List.map_nil, Item.length_uninitializedName,
      Item.length_generatedPartName, hkey, List.nodup_cons, List.mem_cons, List.not_mem_nil,
      or_false, not_or, not_false_eq_true, List.nodup_nil, and_true]
    omega
  rw [List.nodup_append]
  constructor
  · rintro ⟨-, -, hapart⟩ hfixed
    exact hapart _ List.mem_cons_self _ hfixed rfl
  · intro hfixed
    refine ⟨htypes, by decide, ?_⟩
    rintro name hname other hother rfl
    simp only [typeNames, List.mem_cons, List.not_mem_nil, or_false] at hname
    rcases hname with rfl | rfl | rfl | rfl
    · exact hfixed hother
    · exact hu hother
    · exact hg hother
    · exact hk hother

theorem boundNames_perm (m : Mapper) (keyType : Declarations) :
    (m.boundNames keyType).Perm (m.symbols ++
      (keyType.enumerations.map Enumeration.name ++ m.name :: (m.typeNames ++ fixedNames))) := by
  rw [List.perm_iff_count]
  intro name
  simp only [boundNames, typeNames, fixedNames, List.count_append, List.count_cons, List.count_nil]
  omega

/-- All names that the file binds are distinct exactly if those of one
source are no names of another, and those of providers come once each. -/
theorem boundNames_nodup_iff {m : Mapper} {keyType : Declarations}
    (henums : (keyType.enumerations.map Enumeration.name).Nodup) :
    (m.boundNames keyType).Nodup ↔ m.NamesApart keyType := by
  rw [(m.boundNames_perm keyType).nodup_iff, List.nodup_append, List.nodup_append, List.nodup_cons,
    typeNames_fixedNames_nodup_iff]
  constructor
  · rintro ⟨hsymbols, ⟨-, ⟨hclass, htype⟩, henumeration⟩, hsymbol⟩
    refine ⟨hsymbols, ?_, ?_, hclass, htype⟩
    · exact fun s hs hmem => hsymbol s hs s hmem rfl
    · exact fun e he hmem => henumeration e.name (List.mem_map_of_mem he) e.name hmem rfl
  · intro h
    refine ⟨h.symbols, ⟨henums, ⟨h.className, h.typeName⟩, ?_⟩, ?_⟩
    · rintro name hname other hother rfl
      obtain ⟨e, he, rfl⟩ := List.mem_map.mp hname
      exact h.enumeration e he hother
    · rintro name hname other hother rfl
      exact h.symbol name hname hother

/-- The file of a mapper is made of statements, and the names that they
bind are distinct exactly if every symbol of a provider is used for one
field only and the names of one source are no names of another. -/
theorem bound_names_distinct_iff {m : Mapper} {style : Style} {base : Location}
    {files : List SourceFile} (h : m.generate style base = .ok files) :
    ∃ itemFile mapperFile tableSchema keyType, files = [itemFile, mapperFile] ∧
      m.keyType = .ok keyType ∧
      mapperFile.body =
        ended ((m.statements style base tableSchema keyType).flatMap Statement.lines) ∧
      (m.statements style base tableSchema keyType).flatMap Statement.binds =
        m.boundNames keyType ∧
      ((m.boundNames keyType).Nodup ↔ m.NamesApart keyType) := by
  obtain ⟨tableSchema, -, h⟩ := bind_eq_ok_iff.mp h
  obtain ⟨itemFile, -, h⟩ := bind_eq_ok_iff.mp h
  obtain ⟨source, hsource, h⟩ := bind_eq_ok_iff.mp h
  obtain rfl := Except.ok.inj h
  obtain ⟨keyType, hkeyType, hsource⟩ := bind_eq_ok_iff.mp hsource
  obtain rfl := Except.ok.inj hsource
  obtain ⟨fields, hfields, -, hrecord⟩ := m.keyDocument_isRecord
  have hdeclared := mapError_eq_ok_iff.mp (mapError_eq_ok_iff.mp hkeyType)
  have hname := JsonSchema.name_of_declare hdeclared
  rw [hfields] at hdeclared
  exact ⟨itemFile, _, tableSchema, keyType, rfl, hkeyType, m.text_parts style base _ keyType,
    m.binds_statements style base tableSchema hname,
    boundNames_nodup_iff (hrecord.enumerations_nodup hdeclared)⟩

/-- The schema of records with two fields. -/
def record : RecordSchema where
  name := "Rec"
  required := none
  properties := .ofFields [("id", .ofType (.single .string)), ("ref", .ofType (.single .string))]
  additionalProperties := none

/-- A mapper for records of which both fields have one provider. -/
def records : Mapper where
  name := "M"
  item :=
    { schema := record
      outPath := "./Item.ts"
      overwrite := true
      providers := .ofFields
        [("id", ⟨.defaultExport, "uuid/v4", "uuid"⟩),
          ("ref", ⟨.defaultExport, "uuid/v4", "uuid"⟩)] }
  tableName := "T"
  keys := ⟨"id", none⟩
  globalIndexes := []
  localIndexes := []
  outPath := "./M.ts"
  overwrite := true

/-- The file of these records imports one name twice. -/
theorem records_names_not_distinct :
    ∃ files tableSchema keyType, records.generate {} (.ofString "/w") = .ok files ∧
      records.keyType = .ok keyType ∧ records.symbols = ["uuid", "uuid"] ∧
      ¬ ((records.statements {} (.ofString "/w") tableSchema keyType).flatMap
        Statement.binds).Nodup := by
  have hread : List.Forall₂ (JsonSchema.IsProperty ["properties"] [])
      (propertyDocuments record.properties.entries)
      [(⟨"id", none, false⟩, .union [.primitive .string]),
        (⟨"ref", none, false⟩, .union [.primitive .string])] :=
    .cons ⟨rfl, (ofJson_ofType _).1⟩ (.cons ⟨rfl, (ofJson_ofType _).1⟩ .nil)
  obtain ⟨whole, hwhole⟩ := JsonSchema.exists_declare
    (record.toFields_isRecord.ofRoot_eq (record.requiredNames_toFields []) hread)
    (show TypeScript.isIdentifier "Rec" = true by decide)
  obtain ⟨text, htext⟩ : ∃ text, records.tableSchemaText = .ok text := ⟨_, rfl⟩
  obtain ⟨files, hfiles⟩ := exists_generate htext hwhole {} (.ofString "/w")
  obtain ⟨itemFile, mapperFile, tableSchema, keyType, -, hkeyType, -, hbinds, hiff⟩ :=
    bound_names_distinct_iff hfiles
  refine ⟨files, tableSchema, keyType, hfiles, hkeyType, rfl, ?_⟩
  rw [hbinds, hiff]
  intro hapart
  exact absurd hapart.symbols (by decide)

end Mapper

end TableMapper
