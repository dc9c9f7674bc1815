/-
TableMapper.Proofs.JsonSchema.PartsRead — the parts of a document that
is read are read themselves.

A document is read as a whole or not at all: the branches of its
keyword, its items, its properties and its further members are all read
with it. So whatever is checked at a site holds at every site of a
document that is read; here, that members have identifiers for names.
-/
import TableMapper.Proofs.JsonSchema.SitesOfDocuments

namespace TableMapper.JsonSchema

/-! ## 1. Parts -/

/-- The document is read, whatever the place that it is at. -/
def IsRead (document : Json) : Prop := ∃ place s, ofJson place document = .ok s

theorem isRead_of_ofBranches {place : Pointer} {index : Nat} {branches : List Json}
    {schemas : List Schema} (h : ofBranches place index branches = .ok schemas) :
    ∀ sub ∈ branches, IsRead sub := by
  intro sub hsub
  obtain ⟨s, -, place, hs⟩ := exists_right_of_mem (forall₂_of_ofBranches h) sub hsub
  exact ⟨place, s, hs⟩

theorem isRead_of_ofKeywords {place : Pointer} {fields : Fields Json} {s : Schema}
    (h : ofKeywords place fields = .ok s) : IsRead (.object fields) :=
  ⟨place, s, (ofJson_object _ _).trans h⟩

section Parts

variable {place : Pointer} {fields : Fields Json} {s : Schema}

/-- The items are read if the array is. -/
theorem isRead_of_ofArray (h : ofArray place fields = .ok s) {items : Json}
    (hget : Fields.get? "items" fields = some items) :
    match items with
    | .array list => ∀ sub ∈ list, IsRead sub
    | items => IsRead items := by
  obtain ⟨hnone, -⟩ | ⟨list, schemas, hlist, hschemas, -⟩ |
    ⟨document, element, hdocument, harray, helement, -⟩ := ofArray_eq_ok h
  · cases hget.symm.trans hnone
  · cases hget.symm.trans hlist
    exact isRead_of_ofBranches hschemas
  · cases hget.symm.trans hdocument
    split
    · exact absurd rfl (harray _)
    · exact ⟨_, element, helement⟩

/-- The properties are read if the object is. -/
theorem isRead_of_property (h : ofObject place fields = .ok s) {properties : Fields Json}
    (hget : Fields.get? "properties" fields = some (.object properties)) :
    ∀ property ∈ properties, IsRead property.2 := by
  obtain ⟨required, read, further, -, hread, -, rfl⟩ := ofObject_eq_ok_iff.mp h
  rw [readProperties, hget] at hread
  intro property hproperty
  obtain ⟨p, -, -, hs⟩ := exists_right_of_mem (ofProperties_eq_ok_iff.mp hread) property hproperty
  exact ⟨_, p.2, hs⟩

/-- The schema of further members is read if the object is. -/
theorem isRead_of_further (h : ofObject place fields = .ok s) {sub : Json}
    (hget : Fields.get? "additionalProperties" fields = some sub) : IsRead sub := by
  obtain ⟨required, read, further, -, -, hfurther, rfl⟩ := ofObject_eq_ok_iff.mp h
  obtain ⟨hnone, -⟩ | ⟨hclosed, -⟩ | ⟨document, read, hdocument, -, hs, -⟩ :=
    readFurther_eq_ok hfurther
  · cases hget.symm.trans hnone
  · cases hget.symm.trans hclosed
    exact ⟨[], _, by rw [ofJson]⟩
  · cases hget.symm.trans hdocument
    exact ⟨_, read, hs⟩

/-- Branches are read if what they are branches of is. -/
theorem isRead_of_branch {keyword : Keyword} {branches : List Json}
    (h : readBy place fields keyword (.array branches) = .ok s)
    (hkeyword : keyword ∈ [Keyword.anyOf, .oneOf, .allOf]) : ∀ sub ∈ branches, IsRead sub := by
  cases keyword with
  | anyOf =>
    obtain ⟨schemas, hschemas, -⟩ := map_eq_ok_iff.mp h
    exact isRead_of_ofBranches hschemas
  | oneOf =>
    obtain ⟨schemas, hschemas, -⟩ := map_eq_ok_iff.mp h
    exact isRead_of_ofBranches hschemas
  | allOf =>
    obtain ⟨schemas, hschemas, -⟩ := map_eq_ok_iff.mp h
    exact isRead_of_ofBranches hschemas
  | _ => exact absurd hkeyword (by decide)

/-- Fields are read as the kinds that they are read as. -/
theorem exists_ofKind {keyword : Keyword} {value : Json} {kind : TypeName}
    (h : readBy place fields keyword value = .ok s) (hread : ReadAs kind keyword value)
    (hkind : kind = .array ∨ kind = .object) :
    ∃ s, ofKind (ofArray place fields) (ofObject place fields) kind = .ok s := by
  cases keyword with
  | type =>
    obtain ⟨names, hnames, h⟩ := bind_eq_ok_iff.mp h
    obtain ⟨schemas, hschemas, -⟩ := bind_eq_ok_iff.mp h
    obtain ⟨kinds, hkinds, hall⟩ := exists_kinds hschemas
    obtain ⟨others, hothers, hmem⟩ := hread
    rw [hothers.unique (listsNames_of_typeNames hnames)] at hmem
    obtain ⟨s, -, hs⟩ :=
      exists_right_of_mem hall kind ((mem_alternatives_iff hkinds hkind).mpr hmem)
    exact ⟨s, hs⟩
  | properties =>
    cases hread
    exact ⟨s, h⟩
  | items =>
    cases hread
    exact ⟨s, h⟩
  | _ => exact hread.elim

end Parts

/-! ## 2. Sites -/

/-- The names of members are checked to be identifiers. -/
theorem isIdentifier_of_enumerationMembers {place : Pointer} {values : List Json} {names : Json}
    {members : List (String × Json)} (h : enumerationMembers place values names = .ok members) :
    ∀ member ∈ members, TypeScript.isIdentifier member.1 = true := by
  unfold enumerationMembers at h
  simp only at h
  split at h
  · cases h
  · next identifiers hidentifiers =>
    split at h
    · cases h
      intro member hmember
      split at hidentifiers
      · next items =>
        have hall := (Option.filter_eq_some_iff.mp hidentifiers).2
        exact List.all_eq_true.mp hall _ (List.of_mem_zip hmember).1
      · cases hidentifiers
    · cases h

mutual

/-- The members of a site have identifiers for names, in a document that
is read. -/
theorem SiteIn.isIdentifier {site : Site} : ∀ {hint : String} {document : Json},
    SiteIn site hint document → IsRead document →
      ∀ member ∈ site.members, TypeScript.isIdentifier member.1 = true
  | _, _, .here hdecision hnames hsite, ⟨place, s, h⟩ => by
    rw [ofJson_object, ofKeywords_eq, hdecision] at h
    simp only [readBy, hnames] at h
    obtain ⟨members, hmembers, -⟩ := map_eq_ok_iff.mp h
    have hidentifiers := isIdentifier_of_enumerationMembers hmembers
    obtain ⟨identifiers, hlist, -, rfl⟩ := members_of_enumerationMembers hmembers
    rw [hsite, map_string_injective (Json.array.inj hlist)]
    exact hidentifiers
  | _, _, .branch hkeyword hdecision hmem hsite, ⟨place, s, h⟩ => by
    rw [ofJson_object, ofKeywords_eq, hdecision] at h
    exact hsite.isIdentifier (isRead_of_branch h hkeyword _ hmem)
  | _, _, .part hdecision hread hpart, ⟨place, s, h⟩ => by
    rw [ofJson_object, ofKeywords_eq, hdecision] at h
    obtain ⟨s, hs⟩ := exists_ofKind h hread hpart.kind_eq
    exact hpart.isIdentifier hs

theorem SiteInPart.isIdentifier {site : Site} : ∀ {kind : TypeName} {hint : String}
    {fields : Fields Json} {place : Pointer} {s : Schema}, SiteInPart site kind hint fields →
      ofKind (ofArray place fields) (ofObject place fields) kind = .ok s →
        ∀ member ∈ site.members, TypeScript.isIdentifier member.1 = true
  | _, _, _, _, _, .element hget hsite, h => by
    have := isRead_of_ofArray h hget
    split at this
    · cases hsite
    · exact hsite.isIdentifier this
  | _, _, _, _, _, .item hget hmem hsite, h => hsite.isIdentifier (isRead_of_ofArray h hget _ hmem)
  | _, _, _, _, _, .property hget hmem hsite, h =>
    hsite.isIdentifier (isRead_of_property h hget _ hmem)
  | _, _, _, _, _, .further hget hsite, h => hsite.isIdentifier (isRead_of_further h hget)

end

end TableMapper.JsonSchema
