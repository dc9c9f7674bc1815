/-
TableMapper.Proofs.JsonSchema.SitesOfDocuments — where a document names
an enumeration.

`SiteIn` follows the keywords of a document: a site is where `enum`
decides and `tsEnumNames` is there, and its hint is the name of the
nearest property around it. The schema that is read from a document has
these sites and no others (`hasSites_of_ofJson`), by an induction on the
document.
-/
import TableMapper.Proofs.JsonSchema.Expressed
import TableMapper.Proofs.JsonSchema.Sites

namespace TableMapper.JsonSchema

/-! ## 1. Sites of a document -/

/-- The kinds of type that fields are read as by the keyword that
decides: those that `type` lists, or else what the parts tell. -/
def ReadAs (kind : TypeName) : Keyword → Json → Prop
  | .type, type => ∃ names, ListsNames type names ∧ kind.text ∈ names
  | .properties, _ => kind = .object
  | .items, _ => kind = .array
  | _, _ => False

mutual

/-- A document that is typed under a hint has the site. -/
inductive SiteIn (site : Site) : String → Json → Prop where
  | here {hint : String} {fields : Fields Json} {values : List Json} {names : List String} :
      decision? fields = some (.enum, .array values) →
      Fields.get? "tsEnumNames" fields = some (.array (names.map .string)) →
      site = ⟨hint, names.zip values⟩ → SiteIn site hint (.object fields)
  | branch {hint : String} {fields : Fields Json} {keyword : Keyword} {branches : List Json}
      {sub : Json} : keyword ∈ [Keyword.anyOf, .oneOf, .allOf] →
      decision? fields = some (keyword, .array branches) → sub ∈ branches →
      SiteIn site hint sub → SiteIn site hint (.object fields)
  | part {hint : String} {fields : Fields Json} {keyword : Keyword} {value : Json}
      {kind : TypeName} : decision? fields = some (keyword, value) → ReadAs kind keyword value →
      SiteInPart site kind hint fields → SiteIn site hint (.object fields)

/-- Fields that are read as a kind of type have the site in a part. -/
inductive SiteInPart (site : Site) : TypeName → String → Fields Json → Prop where
  | element {hint : String} {fields : Fields Json} {items : Json} :
      Fields.get? "items" fields = some items → SiteIn site hint items →
      SiteInPart site .array hint fields
  | item {hint : String} {fields : Fields Json} {items : List Json} {sub : Json} :
      Fields.get? "items" fields = some (.array items) → sub ∈ items → SiteIn site hint sub →
      SiteInPart site .array hint fields
  | property {hint name : String} {fields properties : Fields Json} {sub : Json} :
      Fields.get? "properties" fields = some (.object properties) → (name, sub) ∈ properties →
      SiteIn site name sub → SiteInPart site .object hint fields
  | further {hint : String} {fields : Fields Json} {sub : Json} :
      Fields.get? "additionalProperties" fields = some sub → SiteIn site "additional" sub →
      SiteInPart site .object hint fields

end

/-- A whole document that is declared under a name has the site: an
object document in its parts, whatever other keywords it has. -/
def SiteInRoot (site : Site) (name : String) (document : Json) : Prop :=
  match document with
  | .object fields =>
    if isObjectDocument fields then SiteInPart site .object name fields
    else SiteIn site name document
  | _ => False

/-- The schema has the sites of the document. -/
def HasSites (document : Json) (s : Schema) : Prop :=
  ∀ hint site, site ∈ s.sites hint ↔ SiteIn site hint document

/-- The schema has the sites of the fields, read as a kind of type. -/
def HasSitesOfPart (kind : TypeName) (fields : Fields Json) (s : Schema) : Prop :=
  ∀ hint site, site ∈ s.sites hint ↔ SiteInPart site kind hint fields

/-- Only arrays and objects have parts. -/
theorem SiteInPart.kind_eq {site : Site} {kind : TypeName} {hint : String} {fields : Fields Json}
    (h : SiteInPart site kind hint fields) : kind = .array ∨ kind = .object := by
  cases h with
  | element _ _ => exact .inl rfl
  | item _ _ _ => exact .inl rfl
  | property _ _ _ => exact .inr rfl
  | further _ _ => exact .inr rfl

/-! ## 2. Lists of schemas -/

theorem mem_sitesOf_iff {hint : String} {site : Site} {schemas : List Schema} :
    site ∈ Schema.sitesOf hint schemas ↔ ∃ s ∈ schemas, site ∈ s.sites hint := by
  induction schemas with
  | nil => simp [Schema.sitesOf]
  | cons s rest ih => simp [Schema.sitesOf, ih]

theorem mem_propertySites_iff {site : Site} {properties : List (PropertyHead × Schema)} :
    site ∈ Schema.propertySites properties ↔ ∃ p ∈ properties, site ∈ p.2.sites p.1.name := by
  induction properties with
  | nil => simp [Schema.propertySites]
  | cons p rest ih => simp [Schema.propertySites, ih]

/-- What holds of some item of a list holds of some item of one that
corresponds to it. -/
theorem exists_mem_congr {α β : Type} {p : α → Prop} {q : β → Prop} {xs : List α} {ys : List β}
    (h : List.Forall₂ (fun x y => p x ↔ q y) xs ys) : (∃ x ∈ xs, p x) ↔ ∃ y ∈ ys, q y := by
  induction h with
  | nil => simp
  | cons hfirst _ ih => simp [hfirst, ih]

section Lists

variable {fields : Fields Json}

/-- What holds of a schema that was read from branches holds of a
branch. -/
theorem exists_branch_iff {p : Schema → Prop} {q : Json → Prop}
    (hchildren : ∀ sub, Child fields sub → ∀ place s, ofJson place sub = .ok s → (p s ↔ q sub))
    {keyword : String} {branches : List Json} {schemas : List Schema} {place : Pointer}
    {index : Nat} (hkeyword : keyword ∈ ["anyOf", "oneOf", "allOf", "items"])
    (hget : Fields.get? keyword fields = some (.array branches))
    (h : ofBranches place index branches = .ok schemas) :
    (∃ s ∈ schemas, p s) ↔ ∃ sub ∈ branches, q sub := by
  have hall : List.Forall₂ (fun sub s => q sub ↔ p s) branches schemas :=
    forall₂_imp_of_mem (forall₂_of_ofBranches h) fun sub hmem s ⟨place, hs⟩ =>
      (hchildren sub (.branch hkeyword hget hmem) place s hs).symm
  exact (exists_mem_congr hall).symm

/-- What holds of a property that was read holds of one that there
is. -/
theorem exists_property_iff {p : String → Schema → Prop} {q : String → Json → Prop}
    (hchildren : ∀ name sub, Child fields sub → ∀ place s, ofJson place sub = .ok s →
      (p name s ↔ q name sub))
    {place : Pointer} {required : List String} {read : List (PropertyHead × Schema)}
    (h : readProperties place required fields = .ok read) :
    (∃ property ∈ read, p property.1.name property.2) ↔
      ∃ properties, Fields.get? "properties" fields = some (.object properties) ∧
        ∃ property ∈ properties, q property.1 property.2 := by
  unfold readProperties at h
  split at h
  · next hget =>
    cases h
    simp [hget]
  · next properties hget =>
    have hread := ofProperties_eq_ok_iff.mp h
    have hall : List.Forall₂ (fun property r => q property.1 property.2 ↔ p r.1.name r.2)
        properties read := by
      refine forall₂_imp_of_mem hread fun property hmem r ⟨hhead, hs⟩ => ?_
      rw [hhead]
      exact (hchildren _ _ (.property hget hmem) _ _ hs).symm
    rw [← exists_mem_congr hall, hget]
    simp
  · cases h

end Lists

/-! ## 3. Sites of parts -/

/-- Whatever schema is read from the document has its sites. -/
def SitesRead (document : Json) : Prop :=
  ∀ place s, ofJson place document = .ok s → HasSites document s

section Parts

variable {fields : Fields Json} (hchildren : ∀ sub, Child fields sub → SitesRead sub)

include hchildren

/-- The branches under a keyword have the sites of their documents. -/
theorem mem_sitesOf_branches {keyword : String} {branches : List Json} {schemas : List Schema}
    {place : Pointer} {index : Nat} (hkeyword : keyword ∈ ["anyOf", "oneOf", "allOf", "items"])
    (hget : Fields.get? keyword fields = some (.array branches))
    (h : ofBranches place index branches = .ok schemas) (hint : String) (site : Site) :
    site ∈ Schema.sitesOf hint schemas ↔ ∃ sub ∈ branches, SiteIn site hint sub := by
  rw [mem_sitesOf_iff]
  exact exists_branch_iff (fun sub hsub place s hs => hchildren sub hsub place s hs hint site)
    hkeyword hget h

theorem ofArray_hasSites {place : Pointer} {s : Schema} (h : ofArray place fields = .ok s) :
    HasSitesOfPart .array fields s := by
  intro hint site
  obtain ⟨hget, rfl⟩ | ⟨items, schemas, hget, hschemas, rfl⟩ |
    ⟨document, element, hget, hlist, helement, rfl⟩ := ofArray_eq_ok h
  · constructor
    · intro hsite
      cases hsite
    · rintro (⟨hget', -⟩ | ⟨hget', -, -⟩)
      · cases hget.symm.trans hget'
      · cases hget.symm.trans hget'
  · rw [Schema.sites, mem_sitesOf_branches hchildren (by simp) hget hschemas]
    constructor
    · rintro ⟨sub, hmem, hsite⟩
      exact .item hget hmem hsite
    · rintro (⟨hget', hsite⟩ | ⟨hget', hmem, hsite⟩)
      · cases hget.symm.trans hget'
        cases hsite
      · cases hget.symm.trans hget'
        exact ⟨_, hmem, hsite⟩
  · rw [Schema.sites, hchildren _ (.under (by simp) hget) _ element helement hint site]
    constructor
    · exact .element hget
    · rintro (⟨hget', hsite⟩ | ⟨hget', hmem, hsite⟩)
      · cases hget.symm.trans hget'
        exact hsite
      · cases hget.symm.trans hget'
        exact absurd rfl (hlist _)

/-- The schema of further members has the sites of its document. -/
theorem mem_furtherSites {place : Pointer} {further : Option Schema}
    (h : readFurther place fields = .ok further) (site : Site) :
    site ∈ Schema.furtherSites further ↔
      ∃ sub, Fields.get? "additionalProperties" fields = some sub ∧
        SiteIn site "additional" sub := by
  obtain ⟨hget, rfl⟩ | ⟨hget, rfl⟩ | ⟨document, s, hget, -, hs, rfl⟩ := readFurther_eq_ok h
  · simp [Schema.furtherSites, Schema.sites, hget]
  · have hnone : ¬SiteIn site "additional" (.bool false) := fun hsite => by cases hsite
    simp [Schema.furtherSites, hget, hnone]
  · rw [Schema.furtherSites, hchildren _ (.under (by simp) hget) _ s hs "additional" site, hget]
    simp

/-- The schemas of properties have the sites of their documents. -/
theorem mem_propertySites {place : Pointer} {required : List String}
    {read : List (PropertyHead × Schema)} (h : readProperties place required fields = .ok read)
    (site : Site) :
    site ∈ Schema.propertySites read ↔
      ∃ properties, Fields.get? "properties" fields = some (.object properties) ∧
        ∃ property ∈ properties, SiteIn site property.1 property.2 := by
  rw [mem_propertySites_iff]
  exact exists_property_iff
    (fun name sub hsub place s hs => hchildren sub hsub place s hs name site) h

theorem ofObject_hasSites {place : Pointer} {s : Schema} (h : ofObject place fields = .ok s) :
    HasSitesOfPart .object fields s := by
  obtain ⟨required, read, further, -, hread, hfurther, rfl⟩ := ofObject_eq_ok_iff.mp h
  intro hint site
  rw [Schema.sites, List.mem_append, mem_propertySites hchildren hread,
    mem_furtherSites hchildren hfurther]
  constructor
  · rintro (⟨properties, hget, property, hmem, hsite⟩ | ⟨sub, hget, hsite⟩)
    · exact .property hget hmem hsite
    · exact .further hget hsite
  · rintro (_ | _ | ⟨hget, hmem, hsite⟩ | ⟨hget, hsite⟩)
    · exact .inl ⟨_, hget, _, hmem, hsite⟩
    · exact .inr ⟨_, hget, hsite⟩

end Parts

/-! ## 4. Sites by keyword -/

theorem ListsNames.unique {type : Json} {names others : List String} (h : ListsNames type names)
    (h' : ListsNames type others) : names = others := by
  rcases h with ⟨name, rfl, rfl⟩ | ⟨-, rfl⟩
  · rcases h' with ⟨other, heq, rfl⟩ | ⟨-, heq⟩
    · cases heq
      rfl
    · cases heq
  · rcases h' with ⟨other, heq, rfl⟩ | ⟨-, heq⟩
    · cases heq
    · exact map_string_injective (Json.array.inj heq)

/-- A kind with parts is listed by its own name only. -/
theorem mem_alternatives_iff {names : List String} {kinds : List TypeName}
    (hkinds : names.map TypeName.ofText? = kinds.map some) {kind : TypeName}
    (hkind : kind = .array ∨ kind = .object) :
    kind ∈ (kinds.map TypeName.alternative).eraseDups ↔ kind.text ∈ names := by
  have hmem : kind ∈ kinds ↔ kind.text ∈ names := by
    have hsome : kind ∈ kinds ↔ some kind ∈ kinds.map some := by simp
    rw [hsome, ← hkinds, List.mem_map]
    constructor
    · rintro ⟨name, hname, heq⟩
      have htext : kind.text = name := by simpa using List.find?_some heq
      rw [htext]
      exact hname
    · intro hname
      refine ⟨_, hname, ?_⟩
      rcases hkind with rfl | rfl <;> rfl
  rw [List.mem_eraseDups, List.mem_map, ← hmem]
  constructor
  · rintro ⟨other, hother, heq⟩
    have hsame : other = kind := by
      rcases hkind with rfl | rfl <;> cases other <;> first | rfl | cases heq
    exact hsame ▸ hother
  · intro hmem
    refine ⟨kind, hmem, ?_⟩
    rcases hkind with rfl | rfl <;> rfl

/-- What holds of an alternative that was read holds of a kind with parts
that is listed. -/
theorem exists_alternative_iff {fields : Fields Json} {p : Schema → Prop} {q : TypeName → Prop}
    {place inner : Pointer} {names : List String} {schemas : List Schema}
    (hkinds : ∀ kind s, ofKind (ofArray inner fields) (ofObject inner fields) kind = .ok s →
      (p s ↔ q kind))
    (hparts : ∀ kind, q kind → kind = .array ∨ kind = .object)
    (h : alternatives place (ofArray inner fields) (ofObject inner fields) [] names =
      .ok schemas) :
    (∃ s ∈ schemas, p s) ↔ ∃ kind, kind.text ∈ names ∧ q kind := by
  obtain ⟨kinds, hlist, hall⟩ := exists_kinds h
  have hsome : (∃ kind ∈ (kinds.map TypeName.alternative).eraseDups, q kind) ↔
      ∃ s ∈ schemas, p s :=
    exists_mem_congr (hall.imp fun _ _ h => (hkinds _ _ h).symm)
  rw [← hsome]
  constructor
  · rintro ⟨kind, hmem, hq⟩
    exact ⟨kind, (mem_alternatives_iff hlist (hparts kind hq)).mp hmem, hq⟩
  · rintro ⟨kind, hmem, hq⟩
    exact ⟨kind, (mem_alternatives_iff hlist (hparts kind hq)).mpr hmem, hq⟩

section Keywords

variable {fields : Fields Json}

theorem hasSites_of_not_siteIn {document : Json} {s : Schema} (hs : ∀ hint, s.sites hint = [])
    (hnot : ∀ hint site, ¬SiteIn site hint document) : HasSites document s := by
  intro hint site
  simp [hs, hnot]

/-- What decides by itself has no site. -/
theorem not_siteIn_of_decision {keyword : Keyword} {value : Json}
    (hdecision : decision? fields = some (keyword, value))
    (hkeyword : keyword = .tsType ∨ keyword = .const) (hint : String) (site : Site) :
    ¬SiteIn site hint (.object fields) := by
  intro hsite
  rcases hkeyword with rfl | rfl
  all_goals
    cases hsite with
    | here henum _ _ => cases hdecision.symm.trans henum
    | branch hmem hbranches _ _ =>
      cases hdecision.symm.trans hbranches
      exact absurd hmem (by decide)
    | part hpart hread _ =>
      cases hdecision.symm.trans hpart
      exact hread

/-- What admits everything has no site. -/
theorem not_siteIn_of_none (hdecision : decision? fields = none) (hint : String) (site : Site) :
    ¬SiteIn site hint (.object fields) := by
  intro hsite
  cases hsite with
  | here henum _ _ => cases hdecision.symm.trans henum
  | branch _ hbranches _ _ => cases hdecision.symm.trans hbranches
  | part hpart _ _ => cases hdecision.symm.trans hpart

/-- A named enumeration is a site. -/
theorem enumeration_hasSites {values : List Json} {names : Json} {place : Pointer} {s : Schema}
    (hdecision : decision? fields = some (.enum, .array values))
    (hnames : Fields.get? "tsEnumNames" fields = some names)
    (h : (enumerationMembers place values names).map Schema.enumeration = .ok s) :
    HasSites (.object fields) s := by
  obtain ⟨members, hmembers, rfl⟩ := map_eq_ok_iff.mp h
  obtain ⟨identifiers, rfl, -, rfl⟩ := members_of_enumerationMembers hmembers
  intro hint site
  rw [Schema.sites, List.mem_singleton]
  constructor
  · exact .here hdecision hnames
  · intro hsite
    cases hsite with
    | @here _ _ _ others henum hothers hsite =>
      cases hdecision.symm.trans henum
      have hsame : identifiers.map Json.string = others.map Json.string := by
        simpa using hnames.symm.trans hothers
      rw [hsite, map_string_injective hsame]
    | branch hmem hbranches _ _ =>
      cases hdecision.symm.trans hbranches
      exact absurd hmem (by decide)
    | part hpart hread _ =>
      cases hdecision.symm.trans hpart
      exact hread.elim

/-- A choice of values without names is no site. -/
theorem choice_hasSites {values : List Json}
    (hdecision : decision? fields = some (.enum, .array values))
    (hnames : Fields.get? "tsEnumNames" fields = none) :
    HasSites (.object fields) (choiceOf values) := by
  have hnone : ∀ hint, (choiceOf values).sites hint = [] := by
    intro hint
    cases values <;> rfl
  refine hasSites_of_not_siteIn hnone fun hint site hsite => ?_
  cases hsite with
  | here _ hothers _ => cases hnames.symm.trans hothers
  | branch hmem hbranches _ _ =>
    cases hdecision.symm.trans hbranches
    exact absurd hmem (by decide)
  | part hpart hread _ =>
    cases hdecision.symm.trans hpart
    exact hread.elim

theorem sites_unionOf (hint : String) (schemas : List Schema) :
    (unionOf schemas).sites hint = Schema.sitesOf hint schemas := by
  cases schemas <;> rfl

theorem sites_intersectionOf (hint : String) (schemas : List Schema) :
    (intersectionOf schemas).sites hint = Schema.sitesOf hint schemas := by
  cases schemas <;> rfl

/-- What fields are read as by one keyword has the sites of that
kind. -/
theorem part_hasSites {keyword : Keyword} {value : Json} {kind : TypeName} {s : Schema}
    (hdecision : decision? fields = some (keyword, value))
    (hkeyword : keyword = .properties ∨ keyword = .items)
    (hread : ∀ other, ReadAs other keyword value ↔ other = kind)
    (h : HasSitesOfPart kind fields s) : HasSites (.object fields) s := by
  intro hint site
  rw [h]
  constructor
  · exact .part hdecision ((hread kind).mpr rfl)
  · intro hsite
    cases hsite with
    | here henum _ _ =>
      cases hdecision.symm.trans henum
      cases hkeyword <;> contradiction
    | branch hmem hbranches _ _ =>
      cases hdecision.symm.trans hbranches
      rcases hkeyword with rfl | rfl <;> exact absurd hmem (by decide)
    | part hpart hother hsite =>
      cases hdecision.symm.trans hpart
      rw [(hread _).mp hother] at hsite
      exact hsite

variable (hchildren : ∀ sub, Child fields sub → SitesRead sub)

include hchildren

/-- The branches of a union or an intersection are where its sites
are. -/
theorem branches_hasSites {keyword : Keyword} {branches : List Json} {place : Pointer}
    {schemas : List Schema} {s : Schema} (hkeyword : keyword ∈ [Keyword.anyOf, .oneOf, .allOf])
    (hdecision : decision? fields = some (keyword, .array branches))
    (h : ofBranches place 0 branches = .ok schemas)
    (hs : ∀ hint, s.sites hint = Schema.sitesOf hint schemas) : HasSites (.object fields) s := by
  have htext : keyword.text ∈ ["anyOf", "oneOf", "allOf", "items"] := by
    revert hkeyword
    cases keyword <;> decide
  intro hint site
  rw [hs, mem_sitesOf_branches hchildren htext (get?_of_decision? hdecision) h]
  constructor
  · rintro ⟨sub, hmem, hsite⟩
    exact .branch hkeyword hdecision hmem hsite
  · intro hsite
    cases hsite with
    | here henum _ _ =>
      cases hdecision.symm.trans henum
      exact absurd hkeyword (by decide)
    | branch _ hbranches hmem hsite =>
      cases hdecision.symm.trans hbranches
      exact ⟨_, hmem, hsite⟩
    | part hpart hread _ =>
      cases hdecision.symm.trans hpart
      revert hkeyword hread
      cases keyword <;> simp [ReadAs]

/-- Only arrays and objects have parts with sites. -/
theorem kind_hasSites {place : Pointer} {kind : TypeName} {s : Schema}
    (h : ofKind (ofArray place fields) (ofObject place fields) kind = .ok s) :
    HasSitesOfPart kind fields s := by
  cases kind with
  | array => exact ofArray_hasSites hchildren h
  | object => exact ofObject_hasSites hchildren h
  | _ =>
    cases h
    intro hint site
    constructor
    · intro hsite
      cases hsite
    · intro hsite
      cases hsite

/-- The kinds that are listed have the sites. -/
theorem types_hasSites {type : Json} {place inner : Pointer} {names : List String}
    {schemas : List Schema} (hdecision : decision? fields = some (.type, type))
    (hnames : typeNames place type = .ok names)
    (h : alternatives place (ofArray inner fields) (ofObject inner fields) [] names =
      .ok schemas) :
    HasSites (.object fields) (unionOf schemas) := by
  have hlists := listsNames_of_typeNames hnames
  intro hint site
  rw [sites_unionOf, mem_sitesOf_iff, exists_alternative_iff
    (fun kind s hs => kind_hasSites hchildren hs hint site) (fun kind => SiteInPart.kind_eq) h]
  constructor
  · rintro ⟨kind, hmem, hsite⟩
    exact .part hdecision ⟨names, hlists, hmem⟩ hsite
  · intro hsite
    cases hsite with
    | here henum _ _ => cases hdecision.symm.trans henum
    | branch hmem hbranches _ _ =>
      cases hdecision.symm.trans hbranches
      exact absurd hmem (by decide)
    | part hpart hread hsite =>
      cases hdecision.symm.trans hpart
      obtain ⟨others, hothers, hmem⟩ := hread
      rw [hothers.unique hlists] at hmem
      exact ⟨_, hmem, hsite⟩

/-- What a keyword decides has the sites of the document. -/
theorem readBy_hasSites {keyword : Keyword} {value : Json} {place : Pointer} {s : Schema}
    (hdecision : decision? fields = some (keyword, value))
    (h : readBy place fields keyword value = .ok s) : HasSites (.object fields) s := by
  unfold readBy at h
  split at h
  · cases h
    exact hasSites_of_not_siteIn (fun _ => rfl) (not_siteIn_of_decision hdecision (.inl rfl))
  · cases h
  · split at h
    · next names hnames => exact enumeration_hasSites hdecision hnames h
    · next hnames =>
      cases h
      exact choice_hasSites hdecision hnames
  · cases h
  · cases h
    exact hasSites_of_not_siteIn (fun _ => rfl) (not_siteIn_of_decision hdecision (.inr rfl))
  · obtain ⟨schemas, hschemas, rfl⟩ := map_eq_ok_iff.mp h
    exact branches_hasSites hchildren (by decide) hdecision hschemas fun _ => sites_unionOf _ _
  · cases h
  · obtain ⟨schemas, hschemas, rfl⟩ := map_eq_ok_iff.mp h
    exact branches_hasSites hchildren (by decide) hdecision hschemas fun _ => sites_unionOf _ _
  · cases h
  · obtain ⟨schemas, hschemas, rfl⟩ := map_eq_ok_iff.mp h
    exact branches_hasSites hchildren (by decide) hdecision hschemas
      fun _ => sites_intersectionOf _ _
  · cases h
  · obtain ⟨names, hnames, h⟩ := bind_eq_ok_iff.mp h
    obtain ⟨schemas, hschemas, h⟩ := bind_eq_ok_iff.mp h
    cases h
    exact types_hasSites hchildren hdecision hnames hschemas
  · exact part_hasSites hdecision (.inl rfl) (fun _ => Iff.rfl) (ofObject_hasSites hchildren h)
  · exact part_hasSites hdecision (.inr rfl) (fun _ => Iff.rfl) (ofArray_hasSites hchildren h)

theorem ofKeywords_hasSites {place : Pointer} {s : Schema}
    (h : ofKeywords place fields = .ok s) : HasSites (.object fields) s := by
  rw [ofKeywords_eq] at h
  split at h
  · next hdecision =>
    cases h
    exact hasSites_of_not_siteIn (fun _ => rfl) (not_siteIn_of_none hdecision)
  · next hdecision => exact readBy_hasSites hchildren hdecision h

end Keywords

/-! ## 5. Sites of whole documents -/

/-- The schema of a document has its sites. -/
theorem hasSites_of_ofJson (document : Json) : SitesRead document := by
  intro place s h
  rcases ofJson_eq_ok h with ⟨hdocument, hs⟩ | ⟨hdocument, hs⟩ | ⟨fields, hdocument, h⟩
  · rw [hdocument, hs]
    exact hasSites_of_not_siteIn (fun _ => rfl) fun _ _ hsite => by cases hsite
  · rw [hdocument, hs]
    exact hasSites_of_not_siteIn (fun _ => rfl) fun _ _ hsite => by cases hsite
  · rw [hdocument]
    exact ofKeywords_hasSites (fun sub hsub => hasSites_of_ofJson sub) h
termination_by sizeOf document
decreasing_by
  rw [hdocument]
  exact hsub.sizeOf_lt

/-- The schema of a whole document has its sites. -/
theorem ofRoot_sites {fields : Fields Json} {s : Schema} (h : ofRoot fields = .ok s)
    (name : String) (site : Site) :
    site ∈ s.sites name ↔ SiteInRoot site name (.object fields) := by
  have hchildren : ∀ sub, Child fields sub → SitesRead sub := fun sub _ => hasSites_of_ofJson sub
  unfold ofRoot at h
  rw [SiteInRoot]
  split at h
  · next hobject =>
    rw [if_pos hobject]
    exact ofObject_hasSites hchildren h name site
  · next hobject =>
    rw [if_neg hobject]
    exact ofKeywords_hasSites hchildren h name site

end TableMapper.JsonSchema
