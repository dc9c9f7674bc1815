/-
TableMapper.Proofs.Generated.MapperFailure — exactly when and how a
mapper fails.

The keys are looked at before any type is compiled, so a faulty key is
the error whatever else is wrong (`defineAttributes_eq_error`). Then
four documents are compiled: that of the whole item and three that are
made from it, which require other names and have no property that the
item has not. What a property is read as does not depend on what is
required, so the other three can be read if the item can
(`exists_read_of_subset`), and their names are identifiers if that of
the item is one.
-/
import TableMapper.Proofs.Generated.ItemNames
import TableMapper.Proofs.Generated.KeyAttributes

namespace TableMapper

open JsonSchema (Schema TypeName)
open TypeScript (Style)

/-! ## 1. Names of the derived types -/

namespace TypeScript

/-- What goes on as an identifier does may stand behind one. -/
theorem isIdentifier_append {s t : String} (hs : isIdentifier s = true)
    (ht : ∀ c ∈ t.toList, isIdentifierPart c = true) : isIdentifier (s ++ t) = true := by
  unfold isIdentifier at hs ⊢
  rw [String.toList_append]
  cases hcs : s.toList with
  | nil =>
    rw [hcs] at hs
    cases hs
  | cons c cs =>
    rw [hcs, isIdentifierChars, Bool.and_eq_true, List.all_eq_true] at hs
    rw [List.cons_append, isIdentifierChars, Bool.and_eq_true, List.all_eq_true]
    exact ⟨hs.1, List.forall_mem_append.mpr ⟨hs.2, ht⟩⟩

end TypeScript

/-- The names of the variants of an item are identifiers if that of the
item is one. -/
theorem Item.isIdentifier_variants {i : Item} (h : TypeScript.isIdentifier i.typeName = true) :
    TypeScript.isIdentifier i.uninitializedName = true ∧
      TypeScript.isIdentifier i.generatedPartName = true := by
  have hparts := TypeScript.isIdentifierPart_of_mem h
  exact ⟨TypeScript.isIdentifier_append (by decide) hparts,
    TypeScript.isIdentifier_append (by decide) hparts⟩

/-- The name of the key type is an identifier if that of the item is
one. -/
theorem Mapper.isIdentifier_keyTypeName {m : Mapper}
    (h : TypeScript.isIdentifier m.item.typeName = true) :
    TypeScript.isIdentifier m.keyTypeName = true :=
  TypeScript.isIdentifier_append h (TypeScript.isIdentifierPart_of_mem
    (show TypeScript.isIdentifier "Key" = true by decide))

/-! ## 2. Derived types -/

namespace JsonSchema

/-- Some of the properties that are read can be read by themselves,
whatever is required of them. -/
theorem exists_read_of_subset {place : Pointer} {required : List String} (others : List String)
    {documents : Fields Json} {read : List (PropertyHead × Schema)}
    (hread : List.Forall₂ (IsProperty place required) documents read) :
    ∀ {fewer : Fields Json}, fewer ⊆ documents →
      ∃ again, List.Forall₂ (IsProperty place others) fewer again
  | [], _ => ⟨[], .nil⟩
  | field :: fewer, hsub => by
    obtain ⟨again, hagain⟩ :=
      exists_read_of_subset others hread (List.subset_of_cons_subset hsub)
    obtain ⟨p, -, hp⟩ := exists_right_of_mem hread field (hsub List.mem_cons_self)
    exact ⟨(⟨field.1, descriptionOf field.2, others.contains field.1⟩, p.2) :: again,
      .cons ⟨rfl, hp.2⟩ hagain⟩

end JsonSchema

/-- A record of properties that are read elsewhere is declared under
every identifier. -/
theorem IsRecord.exists_declare {fields : Fields Json} {properties : Fields PropertySchema}
    {further : Option Bool} (hrecord : IsRecord fields properties further)
    {required : List String} (hrequired : JsonSchema.requiredNames [] fields = .ok required)
    {others : List String} {documents : Fields Json} {read : List (PropertyHead × Schema)}
    (hread : List.Forall₂ (JsonSchema.IsProperty ["properties"] others) documents read)
    (hsub : propertyDocuments properties ⊆ documents) {name : String}
    (hname : TypeScript.isIdentifier name = true) :
    ∃ d, JsonSchema.declare (.object fields) name = .ok d := by
  obtain ⟨again, hagain⟩ := JsonSchema.exists_read_of_subset required hread hsub
  exact JsonSchema.exists_declare (hrecord.ofRoot_eq hrequired hagain) hname

namespace Item

/-- Both variants of an item are declared if the item is, for any
providers. -/
theorem exists_declare_variants {i : Item} {d : TypeScript.Declarations}
    (h : JsonSchema.declare i.document i.typeName = .ok d) :
    (∃ u, JsonSchema.declare i.uninitializedDocument i.uninitializedName = .ok u) ∧
      ∃ g, JsonSchema.declare i.generatedPartDocument i.generatedPartName = .ok g := by
  have hrecord := i.schema.toFields_isRecord
  obtain ⟨hname, -⟩ := JsonSchema.declare_eq_ok_iff.mp h
  obtain ⟨hu, hg⟩ := isIdentifier_variants hname
  obtain ⟨required, read, -, hread, -⟩ := hrecord.declare h
  constructor
  · exact (hrecord.requiring _).exists_declare (JsonSchema.requiredNames_insert _ _ _) hread
      (List.Subset.refl _) hu
  · obtain ⟨fields, hfields, hpart⟩ := i.generatedPartDocument_isRecord
    have hrequired : JsonSchema.requiredNames [] fields = .ok i.generatedKeys :=
      JsonSchema.requiredNames_of_get? (Json.object.inj hfields ▸ rfl)
    rw [hfields]
    exact hpart.exists_declare hrequired hread (i.propertyDocuments_propertiesWhere_subset _) hg

/-- The types of an item are declared if the whole item is. -/
theorem exists_types {i : Item} {whole : TypeScript.Declarations}
    (h : JsonSchema.declare i.document i.typeName = .ok whole) : ∃ t, i.types = .ok t := by
  obtain ⟨⟨u, hu⟩, g, hg⟩ := exists_declare_variants h
  by_cases hp : i.providers.isEmpty = true
  · refine ⟨⟨whole, aliasOf i.uninitializedName (.name i.typeName),
      aliasOf i.generatedPartName (.object [] none)⟩,
      bind_eq_ok_iff.mpr ⟨whole, mapError_eq_ok_iff.mpr h, ?_⟩⟩
    rw [if_pos hp]
    rfl
  · refine ⟨⟨whole, u, g⟩, bind_eq_ok_iff.mpr ⟨whole, mapError_eq_ok_iff.mpr h, ?_⟩⟩
    rw [if_neg hp]
    exact bind_eq_ok_iff.mpr ⟨u, mapError_eq_ok_iff.mpr hu,
      bind_eq_ok_iff.mpr ⟨g, mapError_eq_ok_iff.mpr hg, rfl⟩⟩

end Item

namespace Mapper

/-- The type of the keys is declared if the item is, for any indexes. -/
theorem exists_declare_key {m : Mapper} {d : TypeScript.Declarations}
    (h : JsonSchema.declare m.item.document m.item.typeName = .ok d) :
    ∃ k, JsonSchema.declare m.keyDocument m.keyTypeName = .ok k := by
  obtain ⟨hname, -⟩ := JsonSchema.declare_eq_ok_iff.mp h
  obtain ⟨required, read, -, hread, -⟩ := m.item.schema.toFields_isRecord.declare h
  obtain ⟨fields, hfields, hrequired, hkey⟩ := m.keyDocument_isRecord
  rw [hfields]
  exact hkey.exists_declare hrequired hread (m.item.propertyDocuments_propertiesWhere_subset _)
    (isIdentifier_keyTypeName hname)

/-- The three derived types are declared if the item is, for any
providers and any indexes. -/
theorem exists_declare_derived {m : Mapper} {d : TypeScript.Declarations}
    (h : JsonSchema.declare m.item.document m.item.typeName = .ok d) :
    (∃ u, JsonSchema.declare m.item.uninitializedDocument m.item.uninitializedName = .ok u) ∧
      (∃ g, JsonSchema.declare m.item.generatedPartDocument m.item.generatedPartName = .ok g) ∧
      ∃ k, JsonSchema.declare m.keyDocument m.keyTypeName = .ok k := by
  obtain ⟨hu, hg⟩ := Item.exists_declare_variants h
  exact ⟨hu, hg, exists_declare_key h⟩

/-! ## 3. Keys -/

/-- The keys in the order in which they are looked at: those of the
table, those of each global index, and the range keys of the local
indexes. -/
def orderedKeys (m : Mapper) : List String :=
  m.keys.hash :: m.keys.range.toList
    ++ m.globalIndexes.flatMap (fun i => i.hashKey :: i.rangeKey.toList)
    ++ m.localIndexes.map (·.rangeKey)

theorem tableKeys_eq (m : Mapper) : m.tableKeys = m.orderedKeys := rfl

/-- The types that a key may have. -/
def keyTypes : List TypeName := [.string, .number, .integer]

/-- The key names a property that has one type, and a key may have
it. -/
def KeyFits (m : Mapper) (key : String) : Prop :=
  ∃ p, m.item.schema.property? key = some p ∧ ∃ name ∈ keyTypes, p.type = .single name

/-- What is wrong with a key: it names no property, or one of several
types, or one of a type that a key may not have. -/
inductive KeyFault (m : Mapper) (key : String) : MapperError → Prop where
  | noProperty (h : m.item.schema.property? key = none) :
    KeyFault m key (.item (.noProperty key m.item.typeName))
  | union {p : PropertySchema} {names : List TypeName}
    (h : m.item.schema.property? key = some p) (htype : p.type = .union names) :
    KeyFault m key (.unionKey key)
  | unfit {p : PropertySchema} {name : TypeName} (h : m.item.schema.property? key = some p)
    (htype : p.type = .single name) (hname : name ∉ keyTypes) :
    KeyFault m key (.unfitKey key (.single name))

/-- A key at fault does not fit. -/
theorem KeyFault.not_fits {m : Mapper} {key : String} {e : MapperError} (h : m.KeyFault key e) :
    ¬ m.KeyFits key := by
  rintro ⟨p, hp, name, hname, htype⟩
  cases h with
  | noProperty h => exact absurd (h.symm.trans hp) (by simp)
  | union h hunion =>
    obtain rfl := Option.some.inj (h.symm.trans hp)
    exact absurd (hunion.symm.trans htype) (by simp)
  | unfit h hother hnone =>
    obtain rfl := Option.some.inj (h.symm.trans hp)
    rw [SchemaType.single.inj (hother.symm.trans htype)] at hnone
    exact hnone hname

/-- A key fits or is at fault. -/
theorem fits_or_fault (m : Mapper) (key : String) : m.KeyFits key ∨ ∃ e, m.KeyFault key e := by
  cases hp : m.item.schema.property? key with
  | none => exact .inr ⟨_, .noProperty hp⟩
  | some p =>
    cases htype : p.type with
    | union names => exact .inr ⟨_, .union hp htype⟩
    | single name =>
      by_cases hname : name ∈ keyTypes
      · exact .inl ⟨p, hp, name, hname, htype⟩
      · exact .inr ⟨_, .unfit hp htype hname⟩

theorem exists_attributeType {m : Mapper} {key : String} (h : m.KeyFits key) :
    ∃ type, m.attributeType key = .ok type := by
  obtain ⟨p, hp, name, hname, htype⟩ := h
  unfold attributeType Item.fieldType
  rw [hp]
  simp only [htype]
  cases name with
  | string | number | integer => exact ⟨_, rfl⟩
  | boolean | object | array | null | any => exact absurd hname (by decide)

theorem attributeType_of_fault {m : Mapper} {key : String} {e : MapperError}
    (h : m.KeyFault key e) : m.attributeType key = .error e := by
  unfold attributeType Item.fieldType
  cases h with
  | noProperty h => rw [h]
  | union h htype =>
    rw [h]
    simp only [htype]
  | @unfit p name h htype hname =>
    rw [h]
    simp only [htype]
    cases name with
    | string | number | integer => exact absurd (by decide) hname
    | boolean | object | array | null | any => rfl

/-- The attributes of fitting keys are defined. -/
theorem exists_defineAttributes {m : Mapper} {keys : List String}
    (h : ∀ key ∈ keys, m.KeyFits key) (d : Dictionary AttributeType) :
    ∃ result, m.defineAttributes d keys = .ok result := by
  induction keys generalizing d with
  | nil => exact ⟨d, rfl⟩
  | cons key keys ih =>
    obtain ⟨hkey, hkeys⟩ := List.forall_mem_cons.mp h
    rw [defineAttributes]
    split
    · exact ih hkeys d
    · obtain ⟨type, htype⟩ := exists_attributeType hkey
      obtain ⟨result, hresult⟩ := ih hkeys (d.insert key type)
      exact ⟨result, bind_eq_ok_iff.mpr ⟨type, htype, hresult⟩⟩

/-- Behind fitting keys, the first key at fault is the error. -/
theorem defineAttributes_eq_error {m : Mapper} {keys : List String} {key : String}
    {e : MapperError} (h : FirstFault m.KeyFits m.KeyFault keys key e)
    {d : Dictionary AttributeType} (hd : ∀ name ∈ d.names, m.KeyFits name) :
    m.defineAttributes d keys = .error e := by
  induction h generalizing d with
  | here hfault =>
    -- the key is new, because those that are defined fit
    have hnew := fun hkey => hfault.not_fits (hd _ (Dictionary.contains_iff_mem_names.mp hkey))
    rw [defineAttributes, if_neg hnew]
    exact bind_eq_error_iff.mpr (.inl (attributeType_of_fault hfault))
  | later hother _ ih =>
    rw [defineAttributes]
    split
    · exact ih hd
    · next hnew =>
      obtain ⟨type, htype⟩ := exists_attributeType hother
      refine bind_eq_error_iff.mpr (.inr ⟨type, htype, ih fun name hname => ?_⟩)
      rw [Dictionary.names_insert_of_notMem (mt Dictionary.contains_iff_mem_names.mpr hnew)]
        at hname
      rcases List.mem_append.mp hname with hname | hname
      · exact hd name hname
      · rw [List.mem_singleton.mp hname]
        exact hother

/-- The keys of the table and its indexes fit, and the table is
described; or the first of them that is at fault is the error. -/
theorem tableSchemaText_spec (m : Mapper) :
    ((∀ key ∈ m.orderedKeys, m.KeyFits key) ∧ ∃ text, m.tableSchemaText = .ok text) ∨
      (¬ ∀ key ∈ m.orderedKeys, m.KeyFits key) ∧
        ∃ key e, FirstFault m.KeyFits m.KeyFault m.orderedKeys key e ∧
          m.tableSchemaText = .error e := by
  rw [← tableKeys_eq]
  rcases FirstFault.all_or_exists m.fits_or_fault m.tableKeys with hall | ⟨key, e, hfirst⟩
  · obtain ⟨result, hresult⟩ := exists_defineAttributes hall .empty
    have hdescribe : m.describeTable = .ok _ := bind_eq_ok_iff.mpr ⟨result, hresult, rfl⟩
    exact .inl ⟨hall, _, bind_eq_ok_iff.mpr ⟨_, hdescribe, rfl⟩⟩
  · have herror := defineAttributes_eq_error hfirst (d := .empty)
      fun name hname => absurd hname List.not_mem_nil
    have hdescribe : m.describeTable = .error e := bind_eq_error_iff.mpr (.inl herror)
    obtain ⟨hmem, hfault⟩ := hfirst.mem
    exact .inr ⟨fun hall => hfault.not_fits (hall key hmem), key, e, hfirst,
      bind_eq_error_iff.mpr (.inl hdescribe)⟩

/-! ## 4. Files -/

/-- Behind the description of the table, the files are generated if the
whole item is declared. -/
theorem exists_generate {m : Mapper} {text : String} (htext : m.tableSchemaText = .ok text)
    {whole : TypeScript.Declarations}
    (h : JsonSchema.declare m.item.document m.item.typeName = .ok whole) (style : Style)
    (base : Location) : ∃ files, m.generate style base = .ok files := by
  obtain ⟨t, ht⟩ := Item.exists_types h
  obtain ⟨k, hk⟩ := exists_declare_key h
  have hfile : m.item.typeFile style = .ok _ := bind_eq_ok_iff.mpr ⟨t, ht, rfl⟩
  have hkey : m.keyType = .ok k := mapError_eq_ok_iff.mpr (mapError_eq_ok_iff.mpr hk)
  have hkeyText : m.keyTypeText style = .ok _ := bind_eq_ok_iff.mpr ⟨k, hkey, rfl⟩
  exact ⟨_, bind_eq_ok_iff.mpr ⟨text, htext, bind_eq_ok_iff.mpr
    ⟨_, mapError_eq_ok_iff.mpr hfile, bind_eq_ok_iff.mpr ⟨_, hkeyText, rfl⟩⟩⟩⟩

/-- Behind the description of the table, an item that is not declared
is the error. -/
theorem generate_eq_error {m : Mapper} {text : String} (htext : m.tableSchemaText = .ok text)
    {e : JsonSchema.SchemaError}
    (h : JsonSchema.declare m.item.document m.item.typeName = .error e) (style : Style)
    (base : Location) :
    m.generate style base = .error (.item (.badSchema m.item.typeName e)) := by
  have htypes : m.item.types = .error (.badSchema m.item.typeName e) :=
    bind_eq_error_iff.mpr (.inl (mapError_eq_error_iff.mpr ⟨e, h, rfl⟩))
  have hfile : m.item.typeFile style = .error (.badSchema m.item.typeName e) :=
    bind_eq_error_iff.mpr (.inl htypes)
  exact bind_eq_error_iff.mpr (.inr ⟨text, htext,
    bind_eq_error_iff.mpr (.inl (mapError_eq_error_iff.mpr ⟨_, hfile, rfl⟩))⟩)

/-- When and how a mapper fails. Its files are generated exactly if
every key of the table and its indexes names a property of the single
type string, number or integer, and the item is declared. If a key does
not, the first such key is the error, whatever else is wrong; otherwise
it is what keeps the item from being declared. The types that are
derived from the item are always declared if the item is. -/
theorem generate_outcome (m : Mapper) (style : Style) (base : Location) :
    ((∃ files, m.generate style base = .ok files) ↔
      (∀ key ∈ m.orderedKeys, m.KeyFits key) ∧
        ∃ whole, JsonSchema.declare m.item.document m.item.typeName = .ok whole) ∧
    ((¬ ∀ key ∈ m.orderedKeys, m.KeyFits key) →
      ∃ key e, FirstFault m.KeyFits m.KeyFault m.orderedKeys key e ∧
        m.generate style base = .error e) ∧
    ((∀ key ∈ m.orderedKeys, m.KeyFits key) →
      ∀ e, JsonSchema.declare m.item.document m.item.typeName = .error e →
        m.generate style base = .error (.item (.badSchema m.item.typeName e))) ∧
    ∀ whole, JsonSchema.declare m.item.document m.item.typeName = .ok whole →
      (∃ u, JsonSchema.declare m.item.uninitializedDocument m.item.uninitializedName = .ok u) ∧
        (∃ g, JsonSchema.declare m.item.generatedPartDocument m.item.generatedPartName = .ok g) ∧
        ∃ k, JsonSchema.declare m.keyDocument m.keyTypeName = .ok k := by
  rcases m.tableSchemaText_spec with ⟨hall, text, htext⟩ | ⟨hnot, key, e, hfirst, herror⟩
  · refine ⟨?_, fun hnot => absurd hall hnot, fun _ e h => generate_eq_error htext h style base,
      fun whole h => exists_declare_derived h⟩
    constructor
    · rintro ⟨files, hfiles⟩
      rcases exists_ok_or_error (JsonSchema.declare m.item.document m.item.typeName) with
        hok | ⟨e, he⟩
      · exact ⟨hall, hok⟩
      · exact absurd (hfiles.symm.trans (generate_eq_error htext he style base)) (by simp)
    · rintro ⟨-, whole, hwhole⟩
      exact exists_generate htext hwhole style base
  · have hgenerate : m.generate style base = .error e := bind_eq_error_iff.mpr (.inl herror)
    refine ⟨?_, fun _ => ⟨key, e, hfirst, hgenerate⟩, fun hall => absurd hall hnot,
      fun whole h => exists_declare_derived h⟩
    constructor
    · rintro ⟨files, hfiles⟩
      exact absurd (hfiles.symm.trans hgenerate) (by simp)
    · rintro ⟨hall, -⟩
      exact absurd hall hnot

/-- Records with a name that is no identifier, of a table whose range
key has two types. -/
def misfits : Mapper where
  name := "Misfits"
  item :=
    { schema :=
        { name := "not a name"
          required := none
          properties := .ofFields [("id", .ofType (.single .string)),
            ("at", .ofType (.union [.string, .number]))]
          additionalProperties := none }
      outPath := "./Misfit.ts"
      overwrite := true
      providers := .empty }
  tableName := "Misfits"
  keys := ⟨"id", some "at"⟩
  globalIndexes := [⟨"ByKind", "kind", none, "all", none⟩]
  localIndexes := []
  outPath := "./Misfits.ts"
  overwrite := true

/-- Of the three faults of these, the range key is the first. -/
theorem misfits_generate (base : Location) :
    misfits.generate {} base = .error (.unionKey "at") := by
  have hid : misfits.KeyFits "id" := ⟨_, rfl, .string, by decide, rfl⟩
  have hat : misfits.KeyFault "at" (.unionKey "at") := .union rfl rfl
  have hkeys : misfits.orderedKeys = ["id", "at", "kind"] := rfl
  obtain ⟨key, e, hfirst, herror⟩ := (generate_outcome misfits {} base).2.1 fun hall =>
    hat.not_fits (hall "at" (by decide))
  rw [hkeys] at hfirst
  rcases FirstFault.cons_iff.mp hfirst with ⟨rfl, hfault⟩ | ⟨-, hfirst⟩
  · exact absurd hid hfault.not_fits
  rcases FirstFault.cons_iff.mp hfirst with ⟨rfl, hfault⟩ | ⟨hfits, -⟩
  · have hsame := (attributeType_of_fault hfault).symm.trans (attributeType_of_fault hat)
    rw [herror, Except.error.inj hsame]
  · exact absurd hfits hat.not_fits

end Mapper

end TableMapper
