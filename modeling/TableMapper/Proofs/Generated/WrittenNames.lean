/-
TableMapper.Proofs.Generated.WrittenNames — how the names in the files of
mappers are spelled.

The names come by four ways. That of the item type is checked when the
type is compiled, those of the other types are made from it, and the
symbols of providers are checked when these are read. The name of the
class is the name of the settings, and is written as it is: no name is
refused (`Mapper.generate_renamed`), so the names are identifiers exactly
if those of the settings are (`Settings.names_spelled_iff`).
-/
import TableMapper.Proofs.Generated.ItemVariants
import TableMapper.Proofs.Generated.MapperNames
import TableMapper.Proofs.Generated.RunEffects
import TableMapper.Proofs.Generated.Staging
import TableMapper.Proofs.Provider.WrittenForms

namespace TableMapper

open TypeScript (Enumeration Style)

/-! ## 1. Names -/

/-- The name begins as an identifier does and goes on as one. Symbols of
providers may have two letters that type names may not have. -/
def Spelled (name : String) : Prop := Provider.SpellsSymbol name.toList

theorem spelled_of_isIdentifier {name : String} (h : TypeScript.isIdentifier name = true) :
    Spelled name := by
  have hstart : ∀ c, TypeScript.isIdentifierStart c = true → Provider.isSymbolStart c = true := by
    intro c hc
    rw [TypeScript.isIdentifierStart, Bool.or_eq_true, Bool.or_eq_true] at hc
    rw [Provider.isSymbolStart, Provider.isLetter, Bool.or_eq_true, Bool.or_eq_true,
      Bool.or_eq_true, Bool.or_eq_true]
    exact hc.imp_left (Or.imp_left fun halpha => .inl (.inl halpha))
  have hpart : ∀ c, TypeScript.isIdentifierPart c = true → Provider.isSymbolPart c = true := by
    intro c hc
    rw [TypeScript.isIdentifierPart, Bool.or_eq_true] at hc
    rw [Provider.isSymbolPart, Bool.or_eq_true]
    exact hc.imp_left (hstart c)
  rw [Spelled, ← Provider.isSymbol_iff]
  unfold TypeScript.isIdentifier at h
  cases hname : name.toList with
  | nil =>
    rw [hname] at h
    cases h
  | cons c cs =>
    rw [hname, TypeScript.isIdentifierChars, Bool.and_eq_true, List.all_eq_true] at h
    rw [Provider.isSymbol, Bool.and_eq_true, List.all_eq_true]
    exact ⟨hstart c h.1, fun d hd => hpart d (h.2 d hd)⟩

namespace Mapper

/-- The names that the file of a mapper is given: that of the class,
those of the types and the symbols of the providers. -/
def givenNames (m : Mapper) : List String := m.name :: (m.typeNames ++ m.symbols)

/-- Beside the names that it is given, the file binds those of the
enumerations in the type of keys, and what is fixed. -/
theorem boundNames_perm_givenNames (m : Mapper) (keyType : TypeScript.Declarations) :
    (m.boundNames keyType).Perm
      (m.givenNames ++ (keyType.enumerations.map Enumeration.name ++ fixedNames)) := by
  rw [List.perm_iff_count]
  intro name
  rw [(m.boundNames_perm keyType).count_eq]
  simp only [givenNames, List.count_append, List.count_cons]
  omega

theorem spelled_fixedNames : ∀ name ∈ fixedNames, Spelled name := by
  have hfixed : ∀ name ∈ fixedNames, TypeScript.isIdentifier name = true := by decide
  exact fun name hname => spelled_of_isIdentifier (hfixed name hname)

/-! ## 2. The file of a mapper -/

/-- The mapper under another name. -/
def renamed (m : Mapper) (name : String) : Mapper := { m with name := name }

theorem defineAttributes_renamed (m : Mapper) (name : String) (d : Dictionary AttributeType)
    (keys : List String) : (m.renamed name).defineAttributes d keys = m.defineAttributes d keys := by
  induction keys generalizing d with
  | nil => rfl
  | cons key rest ih =>
    have htype : (m.renamed name).attributeType key = m.attributeType key := rfl
    simp only [defineAttributes, ih, htype]

theorem tableSchemaText_renamed (m : Mapper) (name : String) :
    (m.renamed name).tableSchemaText = m.tableSchemaText := by
  have hkeys : (m.renamed name).tableKeys = m.tableKeys := rfl
  rw [tableSchemaText, tableSchemaText, describeTable, describeTable, hkeys, defineAttributes_renamed]
  rfl

/-- The name of a mapper is in no check: under another name the mapper
is generated as well. -/
theorem generate_renamed {m : Mapper} {style : Style} {base : Location} {files : List SourceFile}
    (h : m.generate style base = .ok files) (name : String) :
    ∃ others, (m.renamed name).generate style base = .ok others := by
  obtain ⟨tableSchema, htable, h⟩ := bind_eq_ok_iff.mp h
  obtain ⟨itemFile, hitem, h⟩ := bind_eq_ok_iff.mp h
  obtain ⟨keyType, hkeyType, -⟩ := bind_eq_ok_iff.mp h
  rw [← tableSchemaText_renamed m name] at htable
  exact ⟨_, bind_eq_ok_iff.mpr ⟨tableSchema, htable,
    bind_eq_ok_iff.mpr ⟨itemFile, hitem, bind_eq_ok_iff.mpr ⟨keyType, hkeyType, rfl⟩⟩⟩⟩

/-- How the names in the file of a mapper are written. -/
structure WritesNames (m : Mapper) (style : Style) (base : Location) (f : SourceFile) : Prop where
  /-- The file is made of statements, which bind the names that it is
  given, those of the enumerations in the type of keys, and what is
  fixed. -/
  binds : ∃ tableSchema keyType, m.keyType = .ok keyType ∧
    f.body = ended ((m.statements style base tableSchema keyType).flatMap Statement.lines) ∧
    ((m.statements style base tableSchema keyType).flatMap Statement.binds).Perm
      (m.givenNames ++ (keyType.enumerations.map Enumeration.name ++ fixedNames))
  /-- Of the given names, all but that of the class are identifiers, and
  so is what is fixed. -/
  checked : ∀ name ∈ m.typeNames ++ m.symbols ++ fixedNames, Spelled name
  /-- No name of a class is refused. -/
  unchecked : ∀ name, ∃ others, (m.renamed name).generate style base = .ok others

variable {style : Style} {base : Location}

/-- The types are called by identifiers if the type of items can be
compiled. -/
theorem spelled_typeNames {m : Mapper} {itemFile : SourceFile}
    (h : m.item.typeFile style = .ok itemFile) : ∀ name ∈ m.typeNames, Spelled name := by
  obtain ⟨types, htypes, -⟩ := bind_eq_ok_iff.mp h
  have htype := (JsonSchema.declare_eq_ok_iff.mp (Item.types_eq_ok htypes).1).1
  obtain ⟨huninitialized, hgenerated⟩ := Item.isIdentifier_variants htype
  have hkey := isIdentifier_keyTypeName htype
  intro name hname
  simp only [typeNames, List.mem_cons, List.not_mem_nil, or_false] at hname
  rcases hname with rfl | rfl | rfl | rfl
  · exact spelled_of_isIdentifier htype
  · exact spelled_of_isIdentifier huninitialized
  · exact spelled_of_isIdentifier hgenerated
  · exact spelled_of_isIdentifier hkey

/-- The symbols of the providers that are configured are identifiers. -/
theorem spelled_symbols {name : String} {s : MapperSettings} {m : Mapper}
    (h : ofSettings name s = .ok m) : ∀ symbol ∈ m.symbols, Spelled symbol := by
  intro symbol hsymbol
  obtain ⟨p, hp, rfl⟩ := List.mem_map.mp hsymbol
  obtain ⟨entry, hentry, rfl⟩ := List.mem_map.mp hp
  exact Provider.isSymbol_iff.mp (isSymbol_of_ofSettings h entry hentry)

/-- Wherever a configured mapper is generated, its names are written so. -/
theorem writesNames_of_generate {name : String} {s : MapperSettings} {m : Mapper}
    {files : List SourceFile} (hm : ofSettings name s = .ok m)
    (h : m.generate style base = .ok files) :
    ∃ itemFile mapperFile, files = [itemFile, mapperFile] ∧
      m.WritesNames style base mapperFile := by
  have hrenamed := generate_renamed h
  obtain ⟨tableSchema, -, h⟩ := bind_eq_ok_iff.mp h
  obtain ⟨itemFile, hitem, h⟩ := bind_eq_ok_iff.mp h
  obtain ⟨source, hsource, h⟩ := bind_eq_ok_iff.mp h
  obtain rfl := Except.ok.inj h
  obtain ⟨keyType, hkeyType, hsource⟩ := bind_eq_ok_iff.mp hsource
  obtain rfl := Except.ok.inj hsource
  have hdeclared := mapError_eq_ok_iff.mp (mapError_eq_ok_iff.mp hkeyType)
  have hname := JsonSchema.name_of_declare hdeclared
  have htypes := spelled_typeNames (mapError_eq_ok_iff.mp hitem)
  refine ⟨itemFile, _, rfl, ⟨⟨tableSchema, keyType, hkeyType, m.text_parts style base _ keyType, ?_⟩,
    ?_, hrenamed⟩⟩
  · rw [m.binds_statements style base tableSchema hname]
    exact m.boundNames_perm_givenNames keyType
  · rw [List.forall_mem_append, List.forall_mem_append]
    exact ⟨⟨htypes, spelled_symbols hm⟩, spelled_fixedNames⟩

/-- The given names are identifiers exactly if that of the class is
one. -/
theorem WritesNames.spelled_iff {m : Mapper} {f : SourceFile} (h : m.WritesNames style base f) :
    (∀ name ∈ m.givenNames, Spelled name) ↔ Spelled m.name := by
  rw [givenNames, List.forall_mem_cons]
  exact and_iff_left (List.forall_mem_append.mp h.checked).1

end Mapper

/-! ## 3. Runs -/

namespace Settings

variable {style : Style} {base : Location}

/-- Mappers that are constructed have the names of the settings, and are
each configured by some. -/
theorem mappersOf_spec {entries : Fields MapperSettings} {mappers : List Mapper}
    (h : mappersOf entries = .ok mappers) :
    mappers.map Mapper.name = Fields.names entries ∧
      ∀ m ∈ mappers, ∃ name s, Mapper.ofSettings name s = .ok m := by
  induction entries generalizing mappers with
  | nil =>
    obtain rfl := Except.ok.inj h
    exact ⟨rfl, fun m hm => absurd hm List.not_mem_nil⟩
  | cons entry rest ih =>
    obtain ⟨name, s⟩ := entry
    rw [mappersOf] at h
    split at h
    · cases h
    next m hm =>
    obtain ⟨others, hothers, h⟩ := bind_eq_ok_iff.mp h
    obtain rfl := Except.ok.inj h
    obtain ⟨hnames, hconfigured⟩ := ih hothers
    have hname : m.name = name := name_of_construct (show construct (name, s) = .ok m from hm)
    refine ⟨?_, List.forall_mem_cons.mpr ⟨⟨name, s, hm⟩, hconfigured⟩⟩
    rw [List.map_cons, hnames, hname]
    rfl

/-- Mappers whose files are staged are all generated. -/
theorem files_of_stageMappers {mappers : List Mapper} {staging staged : Staging}
    (h : stageMappers style base staging mappers = .ok staged) :
    (∀ m ∈ mappers, ∃ own, m.generate style base = .ok own) ∧
      staged.files = staging.files ++ mappers.flatMap (filesOf (·.generate style base)) := by
  induction mappers generalizing staging with
  | nil =>
    obtain rfl := Except.ok.inj h
    simp
  | cons m rest ih =>
    rw [stageMappers] at h
    split at h
    · cases h
    next own hown =>
    obtain ⟨hall, hfiles⟩ := ih h
    have hfirst : filesOf (·.generate style base) m = own := by simp only [filesOf, hown]
    refine ⟨List.forall_mem_cons.mpr ⟨⟨own, hown⟩, hall⟩, ?_⟩
    rw [hfiles, Staging.stage, List.flatMap_cons, hfirst, List.append_assoc]

/-- The files of a run are those of the mappers, one for the item types
and one for the class of each. The names that the file of a mapper is
given are identifiers, but for that of the class, of which any is
accepted: so all of them are identifiers exactly if the names in the
settings are. -/
theorem names_spelled_iff {s : Settings} {files : List SourceFile}
    (h : s.generateFiles style base = .ok files) :
    ∃ mappers, mappersOf s.mappers.entries = .ok mappers ∧
      mappers.map Mapper.name = s.mappers.names ∧
      files = mappers.flatMap (filesOf (·.generate style base)) ∧
      (∀ m ∈ mappers, ∃ itemFile mapperFile,
        m.generate style base = .ok [itemFile, mapperFile] ∧
          m.WritesNames style base mapperFile) ∧
      ((∀ m ∈ mappers, ∀ name ∈ m.givenNames, Spelled name) ↔
        ∀ name ∈ s.mappers.names, Spelled name) := by
  obtain ⟨mappers, hmappers, h⟩ := bind_eq_ok_iff.mp h
  obtain ⟨staged, hstaged, h⟩ := bind_eq_ok_iff.mp h
  obtain rfl := Except.ok.inj h
  obtain ⟨hall, hfiles⟩ := files_of_stageMappers hstaged
  obtain ⟨hnames, hconfigured⟩ := mappersOf_spec hmappers
  have hwrites : ∀ m ∈ mappers, ∃ itemFile mapperFile,
      m.generate style base = .ok [itemFile, mapperFile] ∧ m.WritesNames style base mapperFile := by
    intro m hm
    obtain ⟨own, hown⟩ := hall m hm
    obtain ⟨name, settings, hm⟩ := hconfigured m hm
    obtain ⟨itemFile, mapperFile, rfl, hwrites⟩ := Mapper.writesNames_of_generate hm hown
    exact ⟨itemFile, mapperFile, hown, hwrites⟩
  refine ⟨mappers, hmappers, hnames, hfiles, hwrites, ?_⟩
  rw [Dictionary.names, ← hnames, List.forall_mem_map]
  refine forall₂_congr fun m hm => ?_
  obtain ⟨itemFile, mapperFile, -, hm⟩ := hwrites m hm
  exact hm.spelled_iff

/-- The notes, with a hyphen in the name of their class. -/
def hyphenated : Settings where
  mappers := .ofFields (notes.mappers.entries.map fun entry => ("note-mapper", entry.2))

/-- The files of these notes are generated, with a class whose name is
no identifier. -/
theorem hyphenated_not_spelled :
    ∃ (m : Mapper) (itemFile mapperFile : SourceFile),
      hyphenated.generateFiles {} (.ofString "/w") = .ok [itemFile, mapperFile] ∧
      m.WritesNames {} (.ofString "/w") mapperFile ∧ "note-mapper" ∈ m.givenNames ∧
      ¬ Spelled "note-mapper" := by
  obtain ⟨m, hm⟩ : ∃ m, mappersOf notes.mappers.entries = .ok [m] := ⟨_, rfl⟩
  obtain ⟨files, hfiles⟩ := exists_generateFiles_notes
  obtain ⟨own, hown⟩ : ∃ own, m.generate {} (.ofString "/w") = .ok own := by
    obtain ⟨mappers, hmappers, hfiles⟩ := bind_eq_ok_iff.mp hfiles
    obtain rfl := Except.ok.inj (hm.symm.trans hmappers)
    obtain ⟨staged, hstaged, -⟩ := bind_eq_ok_iff.mp hfiles
    exact (files_of_stageMappers hstaged).1 m List.mem_cons_self
  obtain ⟨others, hothers⟩ := Mapper.generate_renamed hown "note-mapper"
  have hrenamed : mappersOf hyphenated.mappers.entries = .ok [m.renamed "note-mapper"] := by
    cases hm
    rfl
  have hhyphenated : hyphenated.generateFiles {} (.ofString "/w") = .ok others := by
    refine bind_eq_ok_iff.mpr ⟨_, hrenamed, ?_⟩
    simp [stageMappers, hothers, Staging.stage]
  obtain ⟨mappers, hmappers, -, -, hwrites, -⟩ := names_spelled_iff hhyphenated
  obtain rfl := Except.ok.inj (hrenamed.symm.trans hmappers)
  obtain ⟨itemFile, mapperFile, hpair, hwrites⟩ := hwrites _ List.mem_cons_self
  obtain rfl := Except.ok.inj (hothers.symm.trans hpair)
  refine ⟨_, itemFile, mapperFile, hhyphenated, hwrites, List.mem_cons_self, ?_⟩
  rw [Spelled, ← Provider.isSymbol_iff]
  decide

end Settings

end TableMapper
