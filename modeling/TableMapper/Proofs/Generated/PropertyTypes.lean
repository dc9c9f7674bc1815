/-
TableMapper.Proofs.Generated.PropertyTypes — the type of a property in
the three types of an item.

The three types are declared one by one, and the generated part meets
fewer enumerations than the others, so it may number them otherwise. A
property stands for one type in all of them, each with its own
declarations. The names of the enumerations have one meaning throughout
exactly if the generated part has the numbers of the whole item
(`typeFile_property_types`).
-/
import TableMapper.Proofs.Generated.ItemVariants
import TableMapper.Proofs.JsonSchema.Renumbering

namespace TableMapper

open JsonSchema (IsProperty Schema Site SiteInRoot declareSites nameAmong namedMembers namedType
  SameMembers)
open TypeScript (Declarations Denoted ReadMember Style TypeExpr asRead)

/-! ## 1. Types of members -/

/-- What the type of a member stands for among the enumerations that are
declared with it. -/
def TypeScript.Declarations.memberType? (d : Declarations) (name : String) : Option Denoted :=
  match d.body with
  | .interface members _ =>
    (members.find? (·.1.name == name)).map fun member => member.2.denoted d.enumerations
  | .alias _ => none

/-- The member of the name stands for the type: as it is typed, and as it
is read from the text of the declaration. -/
structure TypeScript.Declarations.StandsFor (d : Declarations) (members : List ReadMember)
    (name : String) (type : Denoted) : Prop where
  typed : d.memberType? name = some type
  read : ∃ member ∈ members, member.name = name ∧
    ∃ e : TypeExpr, member.type = e.text 1 ∧ e.denoted d.enumerations = type

/-- A member that is typed is read as the text of its type. -/
theorem TypeScript.Declarations.ReadsAs.standsFor {style : Style} {d : Declarations} {text : String}
    {members : List ReadMember} {signature : Option String}
    (h : d.ReadsAs style text members signature) {name : String} {type : Denoted}
    (htype : d.memberType? name = some type) : d.StandsFor members name type := by
  obtain ⟨typed, further, hbody, -, -, rfl, -⟩ := h
  refine ⟨htype, ?_⟩
  rw [memberType?, hbody] at htype
  obtain ⟨member, hfind, rfl⟩ := Option.map_eq_some_iff.mp htype
  have hname : member.1.name = name := by simpa using List.find?_some hfind
  exact ⟨asRead 1 member, List.mem_map_of_mem (List.mem_of_find?_eq_some hfind), hname, member.2,
    rfl, rfl⟩

/-- A declaration of the properties that were read from documents: an
interface whose members are typed with the names that their sites have
in the end. -/
structure DeclaresRecord (d : Declarations) (properties : Fields PropertySchema)
    (required : List String) (read : List (PropertyHead × Schema)) : Prop where
  isRead : List.Forall₂ (IsProperty ["properties"] required) (propertyDocuments properties) read
  distinct : (Fields.names properties).Nodup
  enumerations : d.enumerations = declareSites [] (Schema.propertySites read)
  body : ∃ rest, d.body =
    .interface (namedMembers (nameAmong (declareSites [] (Schema.propertySites read))) read) rest

/-- What is declared for a record is a declaration of its properties,
whose sites are those of the document. -/
theorem IsRecord.declaresRecord {fields : Fields Json} {properties : Fields PropertySchema}
    {further : Option Bool} (hrecord : IsRecord fields properties further)
    (hdistinct : (Fields.names properties).Nodup) {name : String} {d : Declarations}
    (h : JsonSchema.declare (.object fields) name = .ok d) :
    ∃ required read, DeclaresRecord d properties required read ∧
      ∀ site, site ∈ Schema.propertySites read ↔ SiteInRoot site name (.object fields) := by
  obtain ⟨required, read, -, hread, hroot, -, hbody, henums⟩ := hrecord.declare h
  have hsites := JsonSchema.membersOf_run_sites read []
  have hnamed := JsonSchema.membersOf_run_named
    (JsonSchema.declareSites_names_nodup (Schema.propertySites read)) read []
    (by rw [hsites])
  refine ⟨required, read, ⟨hread, hdistinct, henums.trans hsites, _, hnamed ▸ hbody⟩, ?_⟩
  intro site
  have hfurther : Schema.furtherSites (furtherOfRecord further) = [] := by
    match further with
    | none => rfl
    | some true => rfl
    | some false => rfl
  rw [← JsonSchema.ofRoot_sites hroot name site, Schema.sites, hfurther, List.append_nil]

namespace DeclaresRecord

variable {d other : Declarations} {properties fewer : Fields PropertySchema}
  {required names : List String} {read again : List (PropertyHead × Schema)}

/-- A property is found among those that were read. -/
theorem find?_eq (h : DeclaresRecord d properties required read) {field : String × Json}
    (hmem : field ∈ propertyDocuments properties) :
    ∃ p ∈ read, IsProperty ["properties"] required field p ∧
      read.find? (·.1.name == field.1) = some p := by
  obtain ⟨p, hp, hproperty⟩ := JsonSchema.exists_right_of_mem h.isRead field hmem
  have hname : p.1.name = field.1 := by rw [hproperty.1]
  refine ⟨p, hp, hproperty, ?_⟩
  cases hfind : read.find? (·.1.name == field.1) with
  | none => exact absurd (beq_iff_eq.mpr hname) (List.find?_eq_none.mp hfind p hp)
  | some found =>
    have hdistinct := h.distinct
    rw [← names_propertyDocuments, ← (JsonSchema.heads_of_isProperty h.isRead).1, List.map_map]
      at hdistinct
    have hfound : found.1.name = field.1 := by simpa using List.find?_some hfind
    rw [List.inj_on_of_nodup_map hdistinct (List.mem_of_find?_eq_some hfind) hp
      (hfound.trans hname.symm)]

/-- What the member for a property stands for. -/
theorem memberType?_eq (h : DeclaresRecord d properties required read) {name : String}
    {p : PropertyHead × Schema} (hfind : read.find? (·.1.name == name) = some p) :
    d.memberType? name = some
      ((namedType (nameAmong (declareSites [] (Schema.propertySites read))) p.1.name p.2).denoted
        (declareSites [] (Schema.propertySites read))) := by
  obtain ⟨rest, hbody⟩ := h.body
  rw [Declarations.memberType?, hbody, h.enumerations]
  simp only [JsonSchema.namedMembers_eq_map, List.find?_map, Function.comp_def, hfind,
    Option.map_some]

/-- With fewer properties there are fewer sites. -/
theorem sites_subset (h : DeclaresRecord d properties required read)
    (h' : DeclaresRecord other fewer names again) (hsub : fewer ⊆ properties) :
    Schema.propertySites again ⊆ Schema.propertySites read := by
  intro site hsite
  obtain ⟨q, hq, hsite⟩ := JsonSchema.mem_propertySites_iff.mp hsite
  obtain ⟨field, hfield, hproperty⟩ := JsonSchema.exists_left_of_mem h'.isRead q hq
  obtain ⟨p, hp, hproperty'⟩ :=
    JsonSchema.exists_right_of_mem h.isRead field (List.map_subset _ hsub hfield)
  obtain ⟨hname, hschema⟩ := hproperty.schema_eq hproperty'
  rw [hname, hschema] at hsite
  exact JsonSchema.mem_propertySites_iff.mpr ⟨p, hp, hsite⟩

/-- A property stands for the same in two declarations that have it. -/
theorem exists_memberType (h : DeclaresRecord d properties required read)
    (h' : DeclaresRecord other fewer names again) (hsub : fewer ⊆ properties) {name : String}
    (hname : name ∈ Fields.names fewer) :
    ∃ type, d.memberType? name = some type ∧ other.memberType? name = some type := by
  rw [← names_propertyDocuments] at hname
  obtain ⟨field, hfield, rfl⟩ := List.mem_map.mp hname
  obtain ⟨p, hp, hproperty, hfind⟩ := h.find?_eq (List.map_subset _ hsub hfield)
  obtain ⟨q, hq, hproperty', hfind'⟩ := h'.find?_eq hfield
  obtain ⟨hhead, hschema⟩ := hproperty.schema_eq hproperty'
  refine ⟨_, h.memberType?_eq hfind, ?_⟩
  rw [h'.memberType?_eq hfind', ← hhead, ← hschema]
  refine congrArg some (JsonSchema.namedType_renamed p.2 p.1.name fun site hsite => ?_).denoted.symm
  refine ⟨JsonSchema.mem_propertySites_iff.mpr ⟨p, hp, hsite⟩, ?_⟩
  rw [hhead, hschema] at hsite
  exact JsonSchema.mem_propertySites_iff.mpr ⟨q, hq, hsite⟩

end DeclaresRecord

/-! ## 2. The three types of an item -/

namespace Item

/-- In all three types, enumerations of one name have the same
members. -/
def Types.EnumerationsAgree (t : Types) : Prop :=
  ∀ d ∈ [t.whole, t.uninitialized, t.generatedPart],
    ∀ other ∈ [t.whole, t.uninitialized, t.generatedPart],
      SameMembers d.enumerations other.enumerations

/-- The uninitialized item has the enumerations of the whole item, so
that only those of the generated part may mean something else. -/
theorem Types.enumerationsAgree_iff {t : Types} {sites others : List Site}
    (hwhole : t.whole.enumerations = declareSites [] sites)
    (huninitialized : t.uninitialized.enumerations = t.whole.enumerations)
    (hpart : t.generatedPart.enumerations = declareSites [] others) :
    t.EnumerationsAgree ↔ SameMembers t.whole.enumerations t.generatedPart.enumerations := by
  constructor
  · intro h
    exact h _ List.mem_cons_self _ (by simp)
  · intro h
    have hself : ∀ {sites}, SameMembers (declareSites [] sites) (declareSites [] sites) :=
      fun {sites} => JsonSchema.sameMembers_self sites
    simp only [EnumerationsAgree, List.forall_mem_cons, List.not_mem_nil, false_implies,
      implies_true, and_true, huninitialized]
    rw [hwhole, hpart] at h ⊢
    exact ⟨⟨hself, hself, h⟩, ⟨hself, hself, h⟩, h.symm, h.symm, hself⟩

/-- With providers, each property stands for one type in the item, the
uninitialized item and, if it is generated, the generated part, as they
are read from the text of the file, each with the enumerations that are
declared with it. A name of an enumeration has one meaning in all three
exactly if the generated part calls its sites as the whole item does. -/
theorem typeFile_property_types {i : Item} {style : Style} {f : SourceFile}
    (hp : i.providers.isEmpty = false) (hf : i.typeFile style = .ok f) :
    ∃ (t : Types) (wholeText uninitializedText partText : String)
      (whole uninitialized part : List ReadMember) (signature : Option String),
      i.types = .ok t ∧
      f.body = "\n\n".intercalate [wholeText, uninitializedText, partText] ∧
      t.whole.ReadsAs style wholeText whole signature ∧
      t.uninitialized.ReadsAs style uninitializedText uninitialized signature ∧
      t.generatedPart.ReadsAs style partText part none ∧
      (∀ name ∈ i.schema.properties.names, ∃ type,
        t.whole.StandsFor whole name type ∧ t.uninitialized.StandsFor uninitialized name type ∧
        (i.isGenerated name = true → t.generatedPart.StandsFor part name type)) ∧
      (t.EnumerationsAgree ↔
        ∀ site, SiteInRoot site i.generatedPartName i.generatedPartDocument →
          nameAmong t.whole.enumerations site = nameAmong t.generatedPart.enumerations site) := by
  obtain ⟨t, ht, hwhole, hu, hg, hbody⟩ := typeFile_of_providers hp hf
  obtain ⟨henums, -⟩ := enumerations_of_variants hwhole hu hg
  obtain ⟨_, _, _, hwholeBody, huBody, -⟩ := uninitialized_body hwhole hu
  obtain ⟨_, hgBody, -⟩ := generatedPart_body hg
  have hwholeReads := Declarations.readsAs_trimmed_text hwholeBody style
  have huReads := Declarations.readsAs_trimmed_text huBody style
  have hgReads := Declarations.readsAs_trimmed_text hgBody style
  have hdistinct : (Fields.names i.schema.properties.entries).Nodup := i.schema.properties.distinct
  have hfewer : (Fields.names (i.propertiesWhere i.isGenerated)).Nodup := by
    rw [Mapper.names_propertiesWhere]
    exact i.schema.properties.distinct.filter _
  have hrecord := i.schema.toFields_isRecord
  obtain ⟨fields, hfields, hpartRecord⟩ := i.generatedPartDocument_isRecord
  rw [hfields] at hg ⊢
  obtain ⟨_, read, hread, -⟩ := hrecord.declaresRecord hdistinct hwhole
  obtain ⟨_, again, hagain, -⟩ := (hrecord.requiring _).declaresRecord hdistinct hu
  obtain ⟨_, part, hpart, hsites⟩ := hpartRecord.declaresRecord hfewer hg
  have hsub : i.propertiesWhere i.isGenerated ⊆ i.schema.properties.entries :=
    List.filter_sublist.subset
  refine ⟨t, _, _, _, _, _, _, _, ht, hbody, hwholeReads, huReads, hgReads,
    fun name hname => ?_, ?_⟩
  · obtain ⟨type, htype, hvariant⟩ := hread.exists_memberType hagain (List.Subset.refl _) hname
    refine ⟨type, hwholeReads.standsFor htype, huReads.standsFor hvariant,
      fun hgenerated => hgReads.standsFor ?_⟩
    have hkept : name ∈ Fields.names (i.propertiesWhere i.isGenerated) := by
      rw [Mapper.names_propertiesWhere]
      exact List.mem_filter.mpr ⟨hname, hgenerated⟩
    obtain ⟨other, hother, hsame⟩ := hread.exists_memberType hpart hsub hkept
    rw [hsame, ← hother, htype]
  · rw [Types.enumerationsAgree_iff hread.enumerations henums hpart.enumerations,
      hread.enumerations, hpart.enumerations,
      JsonSchema.sameMembers_iff (hread.sites_subset hpart hsub)]
    simp only [hsites]

/-- Deals with two named enumerations, whose properties have one name in
Pascal case, and a provider for the second. -/
def deal : Item where
  schema :=
    { name := "Deal"
      required := none
      properties := .ofFields
        [("status", ⟨.single .string, .ofFields
          [("enum", Json.strings ["open"]), ("tsEnumNames", Json.strings ["Open"])]⟩),
        ("Status", ⟨.single .string, .ofFields
          [("enum", Json.strings ["won"]), ("tsEnumNames", Json.strings ["Won"])]⟩)]
      additionalProperties := none }
  outPath := "src/Deal.ts"
  overwrite := true
  providers := .ofFields [("Status", ⟨.namedExport, "uuid", "v4"⟩)]

/-- The second property has one type throughout, but what is `Status` in
the generated part is not what is `Status` in the whole item. -/
theorem deal_property_types : ∃ f t wholeText partText whole part signature type,
    deal.typeFile {} = .ok f ∧ deal.types = .ok t ∧
    t.whole.ReadsAs {} wholeText whole signature ∧ t.generatedPart.ReadsAs {} partText part none ∧
    t.whole.StandsFor whole "Status" type ∧ t.generatedPart.StandsFor part "Status" type ∧
    ¬t.EnumerationsAgree := by
  have hproperty : ∀ place value member, TypeScript.isIdentifier member = true →
      JsonSchema.ofJson place (.object [("type", .string "string"), ("enum", Json.strings [value]),
        ("tsEnumNames", Json.strings [member])]) =
          .ok (.enumeration [(member, .string value)]) := by
    intro place value member hmember
    rw [JsonSchema.ofJson_object, JsonSchema.ofKeywords]
    simp [Fields.get?, Json.strings, JsonSchema.enumerationMembers, JsonSchema.strings?, hmember,
      Option.filter, Except.map]
  have hread : List.Forall₂ (IsProperty ["properties"] [])
      (propertyDocuments deal.schema.properties.entries)
      [(⟨"status", none, false⟩, .enumeration [("Open", .string "open")]),
        (⟨"Status", none, false⟩, .enumeration [("Won", .string "won")])] :=
    .cons ⟨rfl, hproperty _ _ _ (by decide)⟩ (.cons ⟨rfl, hproperty _ _ _ (by decide)⟩ .nil)
  have hpartRead : List.Forall₂ (IsProperty ["properties"] ["Status"])
      (propertyDocuments (deal.propertiesWhere deal.isGenerated))
      [(⟨"Status", none, true⟩, .enumeration [("Won", .string "won")])] :=
    .cons ⟨rfl, hproperty _ _ _ (by decide)⟩ .nil
  have hrecord := deal.schema.toFields_isRecord
  obtain ⟨fields, hfields, hpart⟩ := deal.generatedPartDocument_isRecord
  have hrequired : JsonSchema.requiredNames [] fields = .ok ["Status"] :=
    JsonSchema.requiredNames_of_get? (Json.object.inj hfields ▸ rfl)
  have hroot := hrecord.ofRoot_eq (deal.schema.requiredNames_toFields []) hread
  have hpartRoot := hpart.ofRoot_eq hrequired hpartRead
  obtain ⟨_, hdeclared⟩ :=
    JsonSchema.exists_declare hroot (show TypeScript.isIdentifier "Deal" = true by decide)
  obtain ⟨t, ht⟩ := exists_types hdeclared
  have hfile : deal.typeFile {} = .ok _ := bind_eq_ok_iff.mpr ⟨t, ht, rfl⟩
  obtain ⟨t, _, _, _, whole, _, part, _, ht, -, hwholeReads, -, hpartReads, hmembers, hagree⟩ :=
    typeFile_property_types rfl hfile
  obtain ⟨type, htype, -, hpartType⟩ := hmembers "Status" (by decide)
  refine ⟨_, t, _, _, whole, part, _, type, hfile, ht, hwholeReads, hpartReads, htype,
    hpartType rfl, fun h => ?_⟩
  -- the second site has another name in each of the two runs
  obtain ⟨hwhole, -, hgenerated⟩ := types_eq_ok ht
  rw [hfields] at hgenerated
  have hsite : SiteInRoot ⟨"Status", [("Won", .string "won")]⟩ deal.generatedPartName
      deal.generatedPartDocument := by
    rw [hfields, ← JsonSchema.ofRoot_sites hpartRoot]
    exact List.mem_cons_self
  have hsame := hagree.mp h _ hsite
  rw [JsonSchema.enumerations_of_ofRoot hwhole hroot,
    JsonSchema.enumerations_of_ofRoot hgenerated hpartRoot] at hsame
  exact absurd hsame (by decide +kernel)

end Item

end TableMapper
