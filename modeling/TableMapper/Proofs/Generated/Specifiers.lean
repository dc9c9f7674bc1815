/-
TableMapper.Proofs.Generated.Specifiers — the module specifiers in the
file of a mapper.

A specifier is put between single quotes as it is, while the other texts
of the file are written with escapes. So it is a literal for itself only
as long as it holds no quote, no backslash and no line end
(`specifiers_read_back_iff`), and nothing keeps the path of a module or
of a file from holding these.
-/
import TableMapper.Proofs.Generated.ItemVariants
import TableMapper.Proofs.Generated.MapperNames
import TableMapper.Proofs.TypeScript.SingleQuotes

namespace TableMapper

open TypeScript (Declarations Edition FirstLiteral IsWord Style)

/-! ## 1. Imports -/

namespace Statement

/-- The specifier of the module that a statement imports from. -/
def specifier? : Statement → Option String
  | importAll _ specifier => some specifier
  | importDefault _ specifier => some specifier
  | importName _ specifier => some specifier
  | importNames _ specifier => some specifier
  | _ => none

/-- The literal in the text of a statement has the value of the
specifier. -/
def ReadsBack (edition : Edition) (statement : Statement) (specifier : String) : Prop :=
  FirstLiteral edition (ended statement.lines).toList (TypeScript.units specifier.toList)

end Statement

theorem quote_notMem_of_isWord {name : String} (h : IsWord name) : '\'' ∉ name.toList := by
  intro hmem
  exact absurd (h.2 _ hmem) (by decide)

theorem quote_notMem_ended {lines : List String} (h : ∀ line ∈ lines, '\'' ∉ line.toList) :
    '\'' ∉ (ended lines).toList := by
  induction lines with
  | nil => exact List.not_mem_nil
  | cons line rest ih =>
    rw [List.forall_mem_cons] at h
    have hended : (ended (line :: rest)).toList = line.toList ++ '\n' :: (ended rest).toList := by
      simp [ended]
    rw [hended, List.mem_append, List.mem_cons]
    rintro (hline | hbreak | hrest)
    · exact h.1 hline
    · exact absurd hbreak (by decide)
    · exact ih h.2 hrest

/-- An import whose names are words has the specifier after the first
quote of its text, and no quote behind that but one. -/
theorem Statement.text_import {statement : Statement} {specifier : String}
    (h : statement.specifier? = some specifier) (hnames : ∀ name ∈ statement.binds, IsWord name) :
    ∃ before after, (ended statement.lines).toList =
        before ++ '\'' :: specifier.toList ++ '\'' :: after ∧ '\'' ∉ before ∧ '\'' ∉ after := by
  have hword : ∀ name ∈ statement.binds, '\'' ∉ name.toList :=
    fun name hmem => quote_notMem_of_isWord (hnames name hmem)
  cases statement with
  | importAll name _ =>
    cases h
    refine ⟨("import * as " ++ name ++ " from ").toList, [';', '\n'], ?_, ?_, by decide⟩
    · simp [lines, ended]
    · simpa using hword name List.mem_cons_self
  | importDefault name _ =>
    cases h
    refine ⟨("import " ++ name ++ " = require(").toList, [')', ';', '\n'], ?_, ?_, by decide⟩
    · simp [lines, ended]
    · simpa using hword name List.mem_cons_self
  | importName name _ =>
    cases h
    refine ⟨("import \x7b " ++ name ++ " \x7d from ").toList, [';', '\n'], ?_, ?_, by decide⟩
    · simp [lines, ended]
    · simpa using hword name List.mem_cons_self
  | importNames names _ =>
    cases h
    let front := ["import \x7b"] ++ names.dropLast.map ("  " ++ · ++ ",")
      ++ names.getLast?.toList.map ("  " ++ ·)
    have hfront : '\'' ∉ (ended front).toList := by
      refine quote_notMem_ended fun line hline => ?_
      simp only [front, List.mem_append, List.mem_singleton, List.mem_map] at hline
      rcases hline with (rfl | ⟨name, hname, rfl⟩) | ⟨name, hname, rfl⟩
      · decide
      · simpa using hword name (List.dropLast_subset _ hname)
      · simpa using hword name (List.mem_of_getLast? (Option.mem_toList.mp hname))
    refine ⟨(ended front ++ "\x7d from ").toList, [';', '\n'], ?_, ?_, by decide⟩
    · simp only [lines, ended_append]
      simp [ended, front]
    · simpa using hfront
  | _ => cases h

/-- An import is read back exactly if all characters of its specifier
may stand bare. -/
theorem Statement.readsBack_iff {edition : Edition} {statement : Statement} {specifier : String}
    (h : statement.specifier? = some specifier) (hnames : ∀ name ∈ statement.binds, IsWord name) :
    statement.ReadsBack edition specifier ↔
      ∀ c ∈ specifier.toList, edition.allows c = true := by
  obtain ⟨before, after, htext, hbefore, hafter⟩ := text_import h hnames
  rw [ReadsBack, htext]
  exact TypeScript.firstLiteral_iff hbefore hafter

/-! ## 2. The file of a mapper -/

namespace Mapper

/-- The specifiers in the file of a mapper, in their order: those of the
libraries, those of the providers and that of the item types. -/
def specifiers (m : Mapper) (base : Location) : List String :=
  ["aws-sdk/clients/dynamodb", "ajv"] ++ m.item.providers.values.map (m.providerSpecifier base)
    ++ [m.itemSpecifier base]

theorem specifier?_providerStatement (m : Mapper) (base : Location) (p : Provider) :
    (m.providerStatement base p).specifier? = some (m.providerSpecifier base p) := by
  unfold providerStatement
  cases p.form <;> rfl

theorem specifiers_statements (m : Mapper) (style : Style) (base : Location) (tableSchema : String)
    (keyType : Declarations) :
    (m.statements style base tableSchema keyType).filterMap Statement.specifier? =
      m.specifiers base := by
  have hproviders : (m.item.providers.values.map (m.providerStatement base)).filterMap
      Statement.specifier? = m.item.providers.values.map (m.providerSpecifier base) := by
    rw [List.filterMap_map]
    exact List.filterMap_eq_map_iff_forall_eq_some.mpr
      fun p _ => m.specifier?_providerStatement base p
  rw [statements, List.filterMap_append, List.filterMap_append, hproviders]
  rfl

/-- The names in the imports of a mapper's file are words. -/
theorem isWord_of_import {m : Mapper} {style : Style} {base : Location} {tableSchema : String}
    {keyType : Declarations} (hsymbols : ∀ p ∈ m.item.providers.values, IsWord p.symbol)
    (htype : TypeScript.isIdentifier m.item.typeName = true) {statement : Statement}
    (hmem : statement ∈ m.statements style base tableSchema keyType) {specifier : String}
    (h : statement.specifier? = some specifier) : ∀ name ∈ statement.binds, IsWord name := by
  obtain ⟨hu, hg⟩ := Item.isIdentifier_variants htype
  rcases List.mem_append.mp hmem with hmem | hbelow
  · rcases List.mem_append.mp hmem with habove | hproviders
    · simp only [MapperFile.statementsAbove, List.mem_cons, List.not_mem_nil, or_false] at habove
      rcases habove with rfl | rfl
      · exact List.forall_mem_singleton.mpr (TypeScript.isWord_of_isIdentifier (by decide))
      · exact List.forall_mem_singleton.mpr (TypeScript.isWord_of_isIdentifier (by decide))
    · obtain ⟨p, hp, rfl⟩ := List.mem_map.mp hproviders
      rw [binds_providerStatement]
      exact List.forall_mem_singleton.mpr (hsymbols p hp)
  · -- below the providers, only the item types are imported
    rcases List.mem_cons.mp hbelow with rfl | hbelow
    · show ∀ name ∈ [m.item.typeName, m.item.uninitializedName, m.item.generatedPartName], _
      simp only [List.forall_mem_cons, List.not_mem_nil, false_implies, implies_true, and_true]
      exact ⟨TypeScript.isWord_of_isIdentifier htype, TypeScript.isWord_of_isIdentifier hu,
        TypeScript.isWord_of_isIdentifier hg⟩
    · simp only [List.mem_cons, List.not_mem_nil, or_false] at hbelow
      rcases hbelow with rfl | rfl | rfl | rfl | rfl | rfl | rfl | rfl | rfl | rfl
      all_goals cases h

/-- The file of a mapper is made of statements, whose imports are from
the libraries, from the modules of the providers and from that of the
item types. Each specifier is read back from its literal exactly if all
its characters may stand bare between single quotes. -/
theorem specifiers_read_back_iff {name : String} {s : MapperSettings} {m : Mapper} {style : Style}
    {base : Location} {files : List SourceFile} (hm : ofSettings name s = .ok m)
    (h : m.generate style base = .ok files) (edition : Edition) :
    ∃ itemFile mapperFile tableSchema keyType, files = [itemFile, mapperFile] ∧
      mapperFile.body =
        ended ((m.statements style base tableSchema keyType).flatMap Statement.lines) ∧
      (m.statements style base tableSchema keyType).filterMap Statement.specifier? =
        m.specifiers base ∧
      ∀ statement ∈ m.statements style base tableSchema keyType, ∀ specifier,
        statement.specifier? = some specifier →
          (statement.ReadsBack edition specifier ↔
            ∀ c ∈ specifier.toList, edition.allows c = true) := by
  obtain ⟨tableSchema, -, h⟩ := bind_eq_ok_iff.mp h
  obtain ⟨itemFile, hitem, h⟩ := bind_eq_ok_iff.mp h
  obtain ⟨source, hsource, h⟩ := bind_eq_ok_iff.mp h
  obtain rfl := Except.ok.inj h
  obtain ⟨keyType, -, hsource⟩ := bind_eq_ok_iff.mp hsource
  obtain rfl := Except.ok.inj hsource
  obtain ⟨t, ht, -⟩ := bind_eq_ok_iff.mp (mapError_eq_ok_iff.mp hitem)
  have htype := (JsonSchema.declare_eq_ok_iff.mp (Item.types_eq_ok ht).1).1
  have hsymbols : ∀ p ∈ m.item.providers.values, IsWord p.symbol := by
    intro p hp
    obtain ⟨entry, hentry, rfl⟩ := List.mem_map.mp hp
    exact Provider.isWord_of_isSymbol (isSymbol_of_ofSettings hm entry hentry)
  exact ⟨itemFile, _, tableSchema, keyType, rfl, m.text_parts style base _ keyType,
    m.specifiers_statements style base _ keyType, fun statement hmem specifier hspecifier =>
      Statement.readsBack_iff hspecifier (isWord_of_import hsymbols htype hmem hspecifier)⟩

/-- Records whose key comes from a file with a quote in its name. -/
def quotedFile : MapperSettings where
  outPath := "./M.ts"
  overwrite := none
  tableName := "T"
  hashKey := "id"
  rangeKey := none
  globalIndexes := []
  localIndexes := []
  item :=
    { outPath := "./Item.ts"
      overwrite := none
      schema :=
        { name := "Rec"
          required := none
          properties := .ofFields [("id", .ofType (.single .string))]
          additionalProperties := none }
      defaultProviders := .ofFields [("id", "uuid=it's")] }

/-- The file is generated, and its name is not read back from the
import. -/
theorem quotedFile_not_read_back :
    ∃ m files tableSchema keyType, ofSettings "M" quotedFile = .ok m ∧
      m.generate {} (.ofString "/w") = .ok files ∧
      Statement.importDefault "uuid" "./it's" ∈
        m.statements {} (.ofString "/w") tableSchema keyType ∧
      ¬ (Statement.importDefault "uuid" "./it's").ReadsBack .since2019 "./it's" := by
  obtain ⟨m, hm⟩ : ∃ m, ofSettings "M" quotedFile = .ok m := ⟨_, rfl⟩
  have hread : List.Forall₂ (JsonSchema.IsProperty ["properties"] [])
      (propertyDocuments quotedFile.item.schema.properties.entries)
      [(⟨"id", none, false⟩, .union [.primitive .string])] :=
    .cons ⟨rfl, (ofJson_ofType _).1⟩ .nil
  obtain ⟨whole, hwhole⟩ := JsonSchema.exists_declare
    (quotedFile.item.schema.toFields_isRecord.ofRoot_eq
      (quotedFile.item.schema.requiredNames_toFields []) hread)
    (show TypeScript.isIdentifier "Rec" = true by decide)
  obtain ⟨text, htext⟩ : ∃ text, m.tableSchemaText = .ok text := by
    cases hm
    exact ⟨_, rfl⟩
  have hdeclared : JsonSchema.declare m.item.document m.item.typeName = .ok whole := by
    cases hm
    exact hwhole
  obtain ⟨files, hfiles⟩ := exists_generate htext hdeclared {} (.ofString "/w")
  obtain ⟨itemFile, mapperFile, tableSchema, keyType, -, -, -, hiff⟩ :=
    specifiers_read_back_iff hm hfiles .since2019
  have hmem : Statement.importDefault "uuid" "./it's" ∈
      m.statements {} (.ofString "/w") tableSchema keyType := by
    have hresolved : ImportPath.resolve (.ofString "/w") "./M.ts" "it's" = "./it's" := by decide
    have hproviders : m.item.providers.values = [⟨.defaultExport, "it's", "uuid"⟩] ∧
        m.outPath = "./M.ts" := by
      cases hm
      exact ⟨rfl, rfl⟩
    have hlocal : Provider.isFilePath "it's" = true := by decide
    simp [statements, hproviders, providerStatement, providerSpecifier, Provider.isLocal, hlocal,
      hresolved]
  refine ⟨m, files, tableSchema, keyType, hm, hfiles, hmem, fun hreads => ?_⟩
  exact absurd ((hiff _ hmem "./it's" rfl).mp hreads '\'' (by decide)) (by decide)

end Mapper

end TableMapper
