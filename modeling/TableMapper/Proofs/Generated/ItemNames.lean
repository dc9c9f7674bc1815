/-
TableMapper.Proofs.Generated.ItemNames — the names that the file of an
item declares.

The three types of an item are compiled one by one. Each run keeps the
names of its enumerations distinct, and none knows of the others: the
uninitialized item has the enumerations of the whole item once more,
and an enumeration may be called as one of the types. What follows is
exactly when the file still declares every name once.
-/
import TableMapper.Proofs.Generated.RecordDocuments
import TableMapper.Proofs.TypeScript.Statements

namespace TableMapper

open JsonSchema (Schema)
open TypeScript (Declarations Declares Style Enumeration)

/-! ## 1. Names of one type -/

namespace JsonSchema

/-- Fewer documents declare nothing new. -/
theorem propertyDeclares_of_subset {place : Pointer} {required others : List String}
    {documents fewer : Fields Json} {read again : List (PropertyHead × Schema)}
    (hread : List.Forall₂ (IsProperty place required) documents read)
    (hagain : List.Forall₂ (IsProperty place others) fewer again) (hsub : fewer ⊆ documents)
    (h : Schema.propertyDeclares read = false) : Schema.propertyDeclares again = false := by
  rw [propertyDeclares_eq_false_iff] at h ⊢
  intro q hq
  obtain ⟨field, hfield, hq⟩ := exists_left_of_mem hagain q hq
  obtain ⟨p, hp, hfield⟩ := exists_right_of_mem hread field (hsub hfield)
  rw [← (hfield.schema_eq hq).2]
  exact h p hp

end JsonSchema

/-- The enumerations of a record have distinct names. -/
theorem IsRecord.enumerations_nodup {fields : Fields Json} {properties : Fields PropertySchema}
    {further : Option Bool} (hrecord : IsRecord fields properties further) {name : String}
    {d : Declarations} (h : JsonSchema.declare (.object fields) name = .ok d) :
    (d.enumerations.map Enumeration.name).Nodup := by
  obtain ⟨required, read, -, -, -, -, -, henums⟩ := hrecord.declare h
  rw [henums]
  exact JsonSchema.membersOf_run_related JsonSchema.names_nodup_relation read [] List.nodup_nil

/-! ## 2. Names of the three types -/

namespace Item

/-- The names that are declared for the three types, in the order of
the file. -/
def Types.names (t : Types) : List String :=
  t.whole.names ++ t.uninitialized.names ++ t.generatedPart.names

theorem length_uninitializedName (i : Item) :
    i.uninitializedName.length = 13 + i.typeName.length :=
  String.length_append "Uninitialized" i.typeName

theorem length_generatedPartName (i : Item) :
    i.generatedPartName.length = 16 + i.typeName.length :=
  String.length_append "GeneratedPartial" i.typeName

/-- The types have different names, for their lengths differ. -/
theorem typeNames_nodup (i : Item) :
    [i.typeName, i.uninitializedName, i.generatedPartName].Nodup := by
  have hlengths : ∀ {s t : String}, s.length ≠ t.length → s ≠ t := fun h heq => h (heq ▸ rfl)
  have hu := i.length_uninitializedName
  have hg := i.length_generatedPartName
  simp only [List.nodup_cons, List.mem_cons, List.not_mem_nil, or_false, not_or,
    not_false_eq_true, List.nodup_nil, and_true]
  exact ⟨⟨hlengths (by omega), hlengths (by omega)⟩, hlengths (by omega)⟩

/-- What the three types are, without providers and with them. -/
theorem types_eq_ok {i : Item} {t : Types} (h : i.types = .ok t) :
    JsonSchema.declare i.document i.typeName = .ok t.whole ∧
      if i.providers.isEmpty then
        t.uninitialized = aliasOf i.uninitializedName (.name i.typeName) ∧
          t.generatedPart = aliasOf i.generatedPartName (.object [] none)
      else
        JsonSchema.declare i.uninitializedDocument i.uninitializedName = .ok t.uninitialized ∧
          JsonSchema.declare i.generatedPartDocument i.generatedPartName
            = .ok t.generatedPart := by
  obtain ⟨whole, hwhole, h⟩ := bind_eq_ok_iff.mp h
  have hwhole := mapError_eq_ok_iff.mp hwhole
  by_cases hp : i.providers.isEmpty = true
  · rw [if_pos hp] at h
    obtain rfl := Except.ok.inj h
    rw [if_pos hp]
    exact ⟨hwhole, rfl, rfl⟩
  · rw [if_neg hp] at h
    obtain ⟨uninitialized, huninitialized, h⟩ := bind_eq_ok_iff.mp h
    obtain ⟨generatedPart, hgeneratedPart, h⟩ := bind_eq_ok_iff.mp h
    obtain rfl := Except.ok.inj h
    rw [if_neg hp]
    exact ⟨hwhole, mapError_eq_ok_iff.mp huninitialized, mapError_eq_ok_iff.mp hgeneratedPart⟩

/-- The generated part is a record of some of the properties. -/
theorem generatedPartDocument_isRecord (i : Item) :
    ∃ fields, i.generatedPartDocument = .object fields ∧
      IsRecord fields (i.propertiesWhere i.isGenerated) (some false) :=
  ⟨_, rfl, rfl, rfl, rfl⟩

theorem propertyDocuments_propertiesWhere_subset (i : Item) (test : String → Bool) :
    propertyDocuments (i.propertiesWhere test)
      ⊆ propertyDocuments i.schema.properties.entries :=
  List.map_subset _ (List.filter_sublist.subset)

/-- With providers, the uninitialized item has the enumerations of the
whole item, and the generated part has none if the whole item has
none. -/
theorem enumerations_of_variants {i : Item} {whole uninitialized generatedPart : Declarations}
    (hwhole : JsonSchema.declare i.document i.typeName = .ok whole)
    (huninitialized :
      JsonSchema.declare i.uninitializedDocument i.uninitializedName = .ok uninitialized)
    (hgeneratedPart :
      JsonSchema.declare i.generatedPartDocument i.generatedPartName = .ok generatedPart) :
    uninitialized.enumerations = whole.enumerations ∧
      (whole.enumerations = [] → generatedPart.enumerations = []) := by
  have hrecord := i.schema.toFields_isRecord
  obtain ⟨required, read, -, hread, -, -, -, hw⟩ := hrecord.declare hwhole
  obtain ⟨required', again, -, hagain, -, -, -, hu⟩ := (hrecord.requiring _).declare huninitialized
  obtain ⟨fields, hfields, hpart⟩ := i.generatedPartDocument_isRecord
  rw [hfields] at hgeneratedPart
  obtain ⟨required'', part, -, hpartRead, -, -, -, hg⟩ := hpart.declare hgeneratedPart
  constructor
  · rw [hu, hw]
    exact (JsonSchema.membersOf_run_congr
      (JsonSchema.schemas_eq_of_isProperty hread hagain) []).symm
  · rw [hw, hg, JsonSchema.membersOf_run_eq_nil_iff, JsonSchema.membersOf_run_eq_nil_iff]
    exact JsonSchema.propertyDeclares_of_subset hread hpartRead
      (i.propertyDocuments_propertiesWhere_subset i.isGenerated)

/-- The whole item has no enumerations if and only if its schema
declares none. -/
theorem enumerations_eq_nil_iff {i : Item} {whole : Declarations}
    (h : JsonSchema.declare i.document i.typeName = .ok whole) :
    whole.enumerations = [] ↔
      ∀ s, JsonSchema.ofRoot i.schema.toFields = .ok s → s.declares = false := by
  obtain ⟨required, read, -, -, hroot, -, -, henums⟩ := i.schema.toFields_isRecord.declare h
  rw [henums, JsonSchema.membersOf_run_eq_nil_iff, hroot]
  have hfurther :
      Schema.furtherDeclares (furtherOfRecord i.schema.additionalProperties) = false := by
    rw [← JsonSchema.furtherOf_run_eq_nil_iff]
    exact furtherOf_furtherOfRecord _ []
  constructor
  · intro hnone s hs
    obtain rfl := Except.ok.inj hs
    rw [Schema.declares, hnone, hfurther]
    rfl
  · intro hnone
    have := hnone _ rfl
    rw [Schema.declares, Bool.or_eq_false_iff] at this
    exact this.1

/-! ## 3. Names of the file -/

/-- The types of an item are written one behind the other, with an empty
line between two. -/
theorem joinWith_typeTexts (i : Item) (style : Style) (t : Types) :
    Text.joinWith "\n\n" ((i.typeTexts style t).map Text.trimmed) =
      "\n\n".intercalate [Text.trimmed (t.whole.text style),
        Text.trimmed (t.uninitialized.text (i.variantStyle style)),
        Text.trimmed (t.generatedPart.text (i.variantStyle style))] := by
  rw [Text.joinWith_eq_intercalate]
  rfl

/-- With providers, the three types are all declared from documents and
written in one style. -/
theorem typeFile_of_providers {i : Item} {style : Style} {f : SourceFile}
    (hp : i.providers.isEmpty = false) (hf : i.typeFile style = .ok f) :
    ∃ t, i.types = .ok t ∧
      JsonSchema.declare i.document i.typeName = .ok t.whole ∧
      JsonSchema.declare i.uninitializedDocument i.uninitializedName = .ok t.uninitialized ∧
      JsonSchema.declare i.generatedPartDocument i.generatedPartName = .ok t.generatedPart ∧
      f.body = "\n\n".intercalate [Text.trimmed (t.whole.text style),
        Text.trimmed (t.uninitialized.text style), Text.trimmed (t.generatedPart.text style)] := by
  obtain ⟨t, ht, hf⟩ := bind_eq_ok_iff.mp hf
  obtain rfl := Except.ok.inj hf
  obtain ⟨hwhole, hvariants⟩ := types_eq_ok ht
  rw [hp, if_neg Bool.false_ne_true] at hvariants
  have hbody := i.joinWith_typeTexts style t
  rw [variantStyle, hp, if_neg Bool.false_ne_true] at hbody
  exact ⟨t, ht, hwhole, hvariants.1, hvariants.2, hbody⟩

/-- The statements of the file, in order. -/
def statements (i : Item) (style : Style) (t : Types) : List String :=
  t.whole.statements style ++ t.uninitialized.statements (i.variantStyle style) ++
    t.generatedPart.statements (i.variantStyle style)

/-- The statements of the file declare the names. -/
theorem declares_statements (i : Item) (style : Style) (t : Types) :
    List.Forall₂ Declares (i.statements style t) t.names :=
  List.rel_append (List.rel_append (t.whole.declares_statements _)
    (t.uninitialized.declares_statements _)) (t.generatedPart.declares_statements _)

/-- Without providers, the names are those of the whole item and two
more. -/
theorem names_of_aliases {i : Item} {t : Types}
    (hwhole : JsonSchema.declare i.document i.typeName = .ok t.whole)
    (hu : t.uninitialized = aliasOf i.uninitializedName (.name i.typeName))
    (hg : t.generatedPart = aliasOf i.generatedPartName (.object [] none)) :
    t.names.Nodup ↔ ∀ e ∈ t.whole.enumerations,
      e.name ∉ [i.typeName, i.uninitializedName, i.generatedPartName] := by
  have hname := (i.schema.toFields_isRecord.declare hwhole)
  obtain ⟨-, -, -, -, -, hname, -, -⟩ := hname
  have henums := i.schema.toFields_isRecord.enumerations_nodup hwhole
  have hperm : t.names.Perm ([i.typeName, i.uninitializedName, i.generatedPartName] ++
      t.whole.enumerations.map Enumeration.name) := by
    rw [Types.names, hu, hg, Declarations.names, hname]
    show (i.typeName :: (t.whole.enumerations.map Enumeration.name ++ [i.uninitializedName] ++
      [i.generatedPartName])).Perm _
    rw [List.append_assoc]
    exact List.Perm.cons _ List.perm_append_comm
  rw [hperm.nodup_iff, List.nodup_append]
  constructor
  · rintro ⟨-, -, hapart⟩ e he hmem
    exact hapart _ hmem _ (List.mem_map.mpr ⟨e, he, rfl⟩) rfl
  · intro hapart
    refine ⟨i.typeNames_nodup, henums, ?_⟩
    intro name hname other hother
    obtain ⟨e, he, rfl⟩ := List.mem_map.mp hother
    intro hsame
    exact hapart e he (hsame ▸ hname)

/-- With providers, the names are distinct only without any
enumeration: those of the whole item come twice. -/
theorem names_of_variants {i : Item} {t : Types}
    (hwhole : JsonSchema.declare i.document i.typeName = .ok t.whole)
    (hu : JsonSchema.declare i.uninitializedDocument i.uninitializedName = .ok t.uninitialized)
    (hg : JsonSchema.declare i.generatedPartDocument i.generatedPartName = .ok t.generatedPart) :
    t.names.Nodup ↔ t.whole.enumerations = [] := by
  obtain ⟨hsame, hnone⟩ := enumerations_of_variants hwhole hu hg
  constructor
  · intro hnodup
    rw [Types.names, Declarations.names, Declarations.names, hsame, List.nodup_append] at hnodup
    have hapart := (List.nodup_append.mp hnodup.1).2.2
    match hw : t.whole.enumerations with
    | [] => rfl
    | e :: rest =>
      have he : e.name ∈ t.whole.enumerations.map Enumeration.name := by simp [hw]
      exact absurd rfl (hapart _ (List.mem_cons_of_mem _ he) _ (List.mem_cons_of_mem _ he))
  · intro hw
    obtain ⟨-, -, -, -, -, hwname, -, -⟩ := i.schema.toFields_isRecord.declare hwhole
    obtain ⟨-, -, -, -, -, huname, -, -⟩ := (i.schema.toFields_isRecord.requiring _).declare hu
    obtain ⟨fields, hfields, hpart⟩ := i.generatedPartDocument_isRecord
    rw [hfields] at hg
    obtain ⟨-, -, -, -, -, hgname, -, -⟩ := hpart.declare hg
    rw [Types.names, Declarations.names, Declarations.names, Declarations.names, hsame, hnone hw,
      hw, hwname, huname, hgname]
    exact i.typeNames_nodup

/-- The file of an item is made up of statements, each of which declares
a name. It declares every name once exactly if no enumeration is called
as one of the three types and, where there are providers, no enumeration
is named in the schema at all. -/
theorem typeFile_names_nodup_iff {i : Item} {style : Style} {f : SourceFile}
    (h : i.typeFile style = .ok f) :
    ∃ t, i.types = .ok t ∧
      f.body = "\n\n".intercalate
        [t.whole.preamble style ++ "\n\n".intercalate (t.whole.statements style),
          t.uninitialized.preamble (i.variantStyle style) ++
            "\n\n".intercalate (t.uninitialized.statements (i.variantStyle style)),
          t.generatedPart.preamble (i.variantStyle style) ++
            "\n\n".intercalate (t.generatedPart.statements (i.variantStyle style))] ∧
      List.Forall₂ Declares (i.statements style t) t.names ∧
      (t.names.Nodup ↔
        if i.providers.isEmpty then
          ∀ e ∈ t.whole.enumerations,
            e.name ∉ [i.typeName, i.uninitializedName, i.generatedPartName]
        else ∀ s, JsonSchema.ofRoot i.schema.toFields = .ok s → s.declares = false) := by
  obtain ⟨t, ht, h⟩ := bind_eq_ok_iff.mp h
  obtain rfl := Except.ok.inj h
  refine ⟨t, ht, ?_, i.declares_statements style t, ?_⟩
  · rw [← Declarations.trimmed_text, ← Declarations.trimmed_text, ← Declarations.trimmed_text]
    exact i.joinWith_typeTexts style t
  obtain ⟨hwhole, hvariants⟩ := types_eq_ok ht
  by_cases hp : i.providers.isEmpty = true
  · rw [if_pos hp] at hvariants ⊢
    exact names_of_aliases hwhole hvariants.1 hvariants.2
  · rw [if_neg hp] at hvariants ⊢
    rw [names_of_variants hwhole hvariants.1 hvariants.2]
    exact enumerations_eq_nil_iff hwhole

/-- Tickets with a named enumeration for their status, and a provider
for another field. -/
def ticket : Item where
  schema :=
    { name := "Ticket"
      required := none
      properties := .ofFields [("status", ⟨.single .string, .ofFields
        [("enum", Json.strings ["open"]), ("tsEnumNames", Json.strings ["Open"])]⟩)]
      additionalProperties := none }
  outPath := "src/Ticket.ts"
  overwrite := true
  providers := .ofFields [("id", ⟨.namedExport, "uuid", "v4"⟩)]

/-- The file of tickets declares the enumeration of their status
twice. -/
theorem ticket_names_not_nodup :
    ∃ f t, ticket.typeFile {} = .ok f ∧ ticket.types = .ok t ∧
      List.Forall₂ Declares (ticket.statements {} t) t.names ∧ ¬ t.names.Nodup := by
  have hrecord := ticket.schema.toFields_isRecord
  have hstatus : ∀ place, JsonSchema.ofJson place (.object
      [("type", .string "string"), ("enum", Json.strings ["open"]),
        ("tsEnumNames", Json.strings ["Open"])]) = .ok (.enumeration [("Open", .string "open")]) := by
    intro place
    rw [JsonSchema.ofJson_object, JsonSchema.ofKeywords]
    rfl
  have hread : List.Forall₂ (JsonSchema.IsProperty ["properties"] [])
      (propertyDocuments ticket.schema.properties.entries)
      [(⟨"status", none, false⟩, .enumeration [("Open", .string "open")])] :=
    .cons ⟨rfl, hstatus _⟩ .nil
  obtain ⟨fields, hfields, hpart⟩ := ticket.generatedPartDocument_isRecord
  have hrequired : JsonSchema.requiredNames [] fields = .ok ["id"] :=
    JsonSchema.requiredNames_of_get? (Json.object.inj hfields ▸ rfl)
  have hnone : JsonSchema.requiredNames []
      (Fields.insert "required" (Json.strings []) ticket.schema.toFields) = .ok [] :=
    JsonSchema.requiredNames_of_get? (by rw [Fields.get?_insert, if_pos rfl])
  have hroot := hrecord.ofRoot_eq rfl hread
  obtain ⟨whole, hwhole⟩ :=
    JsonSchema.exists_declare hroot (show TypeScript.isIdentifier "Ticket" = true by decide)
  obtain ⟨uninitialized, hu⟩ := JsonSchema.exists_declare
    ((hrecord.requiring []).ofRoot_eq hnone hread)
    (show TypeScript.isIdentifier "UninitializedTicket" = true by decide)
  obtain ⟨generatedPart, hg⟩ := JsonSchema.exists_declare (hpart.ofRoot_eq hrequired .nil)
    (show TypeScript.isIdentifier "GeneratedPartialTicket" = true by decide)
  have htypes : ticket.types = .ok ⟨whole, uninitialized, generatedPart⟩ := by
    refine bind_eq_ok_iff.mpr ⟨whole, mapError_eq_ok_iff.mpr hwhole, ?_⟩
    refine bind_eq_ok_iff.mpr ⟨uninitialized, mapError_eq_ok_iff.mpr hu, ?_⟩
    exact bind_eq_ok_iff.mpr ⟨generatedPart, mapError_eq_ok_iff.mpr (hfields ▸ hg), rfl⟩
  have hfile : ticket.typeFile {} = .ok _ := bind_eq_ok_iff.mpr ⟨_, htypes, rfl⟩
  obtain ⟨t, ht, -, hdeclares, hiff⟩ := typeFile_names_nodup_iff hfile
  refine ⟨_, t, hfile, ht, hdeclares, ?_⟩
  intro hnodup
  exact absurd (hiff.mp hnodup _ hroot) (by decide)

end Item

end TableMapper
