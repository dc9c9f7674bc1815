/-
TableMapper.Proofs.JsonSchema.DeclaredEnumerations — the enumerations
that are declared with a type.

A run of typing visits the sites of a document one after the other.
What it has found at one of them is never taken back, so everything
that can be said of a site is said of the enumerations in the end:
`DeclaredOnce` collects it. The names are distinct among themselves;
the name of the type itself is not among those that are looked at, and
what the name of an enumeration is spelled like is not looked at
either. Both come out well for some documents only, and it is the sites
of a document (`SiteInRoot`) that tell for which.
-/
import TableMapper.Proofs.Json.Compact
import TableMapper.Proofs.JsonSchema.Meaning
import TableMapper.Proofs.JsonSchema.PartsRead
import TableMapper.Proofs.Number.Reading
import TableMapper.Proofs.Text.PascalCase

namespace TableMapper

/-- Documents of one text are one document. -/
theorem Json.compact_injective {v w : Json} (h : v.compact = w.compact) : v = w := by
  have hv := Json.ofText?_compact v
  rw [h, Json.ofText?_compact w] at hv
  exact (Option.some.inj hv).symm

namespace JsonSchema

open TypeScript (TypeExpr Enumeration Declarations)

/-! ## 1. Runs over sites -/

/-- What every declaration keeps is kept over all sites. -/
theorem declareSites_related {R : List Enumeration → List Enumeration → Prop}
    (h : RunRelation R) (sites : List Site) (known : List Enumeration) :
    R known (declareSites known sites) := by
  induction sites generalizing known with
  | nil => exact h.refl known
  | cons site rest ih => exact h.trans (h.step site.base site.members known) (ih _)

/-- What is known after some sites is known after all of them. -/
theorem declareSites_prefix (known : List Enumeration) (before after : List Site) :
    declareSites known before <+: declareSites known (before ++ after) := by
  rw [declareSites_append]
  exact declareSites_related prefix_relation after _

theorem declareSites_names_nodup (sites : List Site) :
    ((declareSites [] sites).map Enumeration.name).Nodup :=
  declareSites_related names_nodup_relation sites [] List.nodup_nil

/-- Every enumeration of a run was chosen at some site of it. -/
theorem exists_split_of_mem {sites : List Site} {known : List Enumeration} {e : Enumeration}
    (h : e ∈ declareSites known sites) : e ∈ known ∨ ∃ before site after,
      sites = before ++ site :: after ∧ e = site.choose (declareSites known before) := by
  induction sites generalizing known with
  | nil => exact .inl h
  | cons first rest ih =>
    rcases ih h with hstep | ⟨before, site, after, rfl, hchosen⟩
    · rw [Site.declare, declareEnumeration_run] at hstep
      simp only at hstep
      split at hstep
      · exact .inl hstep
      · rcases List.mem_append.mp hstep with hknown | hnew
        · exact .inl hknown
        · exact .inr ⟨[], first, rest, rfl, List.mem_singleton.mp hnew⟩
    · exact .inr ⟨first :: before, site, after, rfl, hchosen⟩

section Split

variable {sites before after : List Site} {site : Site} (h : sites = before ++ site :: after)

include h

theorem declare_prefix_of_split :
    site.declare (declareSites [] before) <+: declareSites [] sites := by
  have hkept := declareSites_prefix [] (before ++ [site]) after
  rwa [declareSites_append, List.append_assoc, List.singleton_append, ← h] at hkept

/-- The choice at a site is the one that would be made in the end. -/
theorem choose_eq_of_split :
    site.choose (declareSites [] before) = site.choose (declareSites [] sites) :=
  nameEnumeration_eq (declareSites_names_nodup sites) (declare_prefix_of_split h)

end Split

/-- Every enumeration in the end is the choice of a site. -/
theorem exists_choose_of_mem {sites : List Site} {e : Enumeration}
    (h : e ∈ declareSites [] sites) :
    ∃ site ∈ sites, e = site.choose (declareSites [] sites) := by
  rcases exists_split_of_mem h with hnil | ⟨before, site, after, hsplit, hchosen⟩
  · exact absurd hnil List.not_mem_nil
  · refine ⟨site, ?_, hchosen.trans (choose_eq_of_split hsplit)⟩
    rw [hsplit]
    exact List.mem_append_right _ List.mem_cons_self

/-- What is chosen at a site is one of its candidates. -/
theorem exists_candidate (known : List Enumeration) (site : Site) :
    ∃ index, site.choose known = ⟨candidateName site.base index, site.members⟩ := by
  obtain ⟨index, h, -⟩ := (settles_nameEnumeration known site.base site.members).exists_first
  exact ⟨index, h⟩

/-- A site has an enumeration with its members, under the name that it
has in the end. -/
theorem exists_declared {sites : List Site} {site : Site} (h : site ∈ sites) :
    ∃ e ∈ declareSites [] sites, e.name = nameAmong (declareSites [] sites) site ∧
      e.writtenMembers = site.writtenMembers := by
  obtain ⟨before, after, hsplit⟩ := List.append_of_mem h
  obtain ⟨e, he, hname, hwritten⟩ :=
    exists_declareEnumeration site.base site.members (declareSites [] before)
  rw [declareEnumeration_run] at hname
  refine ⟨e, (declare_prefix_of_split hsplit).subset he, ?_, hwritten⟩
  rw [nameAmong, ← choose_eq_of_split hsplit]
  exact (TypeExpr.name.inj hname).symm

/-- What a run over sites comes to: `nameOf` is what each site is
called, and `final` what is declared. -/
structure DeclaredOnce (sites : List Site) (nameOf : Site → String)
    (final : List Enumeration) : Prop where
  /-- The candidates at each site come to an end, at its name. -/
  settles : ∀ before site after, sites = before ++ site :: after →
    ∃ e, Settles (declareSites [] before) site.base site.members 0 e ∧ e.name = nameOf site
  /-- Whatever was declared at some point stands unchanged in the end. -/
  kept : ∀ before after, sites = before ++ after → declareSites [] before <+: final
  distinct : (final.map Enumeration.name).Nodup
  /-- One enumeration has the name of a site, and it has the members. -/
  declared : ∀ site ∈ sites, ∃ e ∈ final, e.name = nameOf site ∧
    e.writtenMembers = site.writtenMembers ∧ ∀ other ∈ final, other.name = nameOf site → other = e
  /-- Sites with one base share a name where they have the same
  members, and only there. -/
  shared : ∀ site ∈ sites, ∀ other ∈ sites, site.base = other.base →
    (nameOf site = nameOf other ↔ site.writtenMembers = other.writtenMembers)

/-- The name depends on how the members are written, and on nothing else
of them. -/
theorem nameAmong_congr {final : List Enumeration} {site other : Site}
    (hbase : site.base = other.base) (hwritten : site.writtenMembers = other.writtenMembers) :
    nameAmong final site = nameAmong final other := by
  have hchosen := settles_nameEnumeration final site.base site.members
  have hother : Settles final site.base other.members 0 ⟨nameAmong final site, other.members⟩ :=
    hchosen.congr fun _ => hwritten
  rw [hbase] at hother
  have hsame := hother.unique (settles_nameEnumeration final other.base other.members)
  have hname := congrArg Enumeration.name hsame
  exact hname

theorem declareSites_declaredOnce (sites : List Site) :
    DeclaredOnce sites (nameAmong (declareSites [] sites)) (declareSites [] sites) where
  settles before site after h := by
    refine ⟨_, settles_nameEnumeration _ site.base site.members, ?_⟩
    exact congrArg Enumeration.name (choose_eq_of_split h)
  kept before after h := by
    rw [h]
    exact declareSites_prefix [] before after
  distinct := declareSites_names_nodup sites
  declared site h := by
    obtain ⟨e, he, hname, hwritten⟩ := exists_declared h
    refine ⟨e, he, hname, hwritten, fun other hother hsame => ?_⟩
    exact List.inj_on_of_nodup_map (declareSites_names_nodup sites) hother he
      (hsame.trans hname.symm)
  shared site h other hother hbase := by
    refine ⟨fun hname => ?_, nameAmong_congr hbase⟩
    obtain ⟨e, he, hename, hwritten⟩ := exists_declared h
    obtain ⟨x, hx, hxname, hxwritten⟩ := exists_declared hother
    have hsame : e = x := List.inj_on_of_nodup_map (declareSites_names_nodup sites) he hx
      (hename.trans (hname.trans hxname.symm))
    rw [← hwritten, ← hxwritten, hsame]

/-- The first candidate of a site is a name in the end, be it the name
of the site or one that was there before. -/
theorem exists_name_eq_base {sites : List Site} {site : Site} (h : site ∈ sites) :
    ∃ e ∈ declareSites [] sites, e.name = site.base := by
  cases hfits : nameFits (declareSites [] sites) ⟨candidateName site.base 0, site.members⟩ with
  | true =>
    obtain ⟨e, he, hname, -⟩ := exists_declared h
    have hchosen := (Settles.fits hfits).unique
      (settles_nameEnumeration (declareSites [] sites) site.base site.members)
    exact ⟨e, he, hname.trans (congrArg Enumeration.name hchosen).symm⟩
  | false =>
    obtain ⟨e, he, hname, -⟩ := exists_of_nameFits_eq_false hfits
    exact ⟨e, he, hname⟩

/-! ## 2. Names that are declared -/

section Declared

variable {document : Json} {name : String} {d : Declarations}

/-- A declaration is a run over the sites of the schema that is read. -/
theorem exists_schema (h : declare document name = .ok d) : ∃ fields s,
    document = .object fields ∧ ofRoot fields = .ok s ∧ d.name = name ∧
      (typeOf name s).run [] = (d.body.type, d.enumerations) ∧
        d.enumerations = declareSites [] (s.sites name) := by
  obtain ⟨-, fields, s, rfl, hread, rfl⟩ := declare_eq_ok_iff.mp h
  refine ⟨fields, s, rfl, hread, rfl, ?_, typeOf_run_sites s name []⟩
  rw [bodyOf_type]
  rfl

/-- The enumerations of a declaration are those of the schema that is
read. -/
theorem enumerations_of_ofRoot {fields : Fields Json} {s : Schema}
    (h : declare (.object fields) name = .ok d) (hread : ofRoot fields = .ok s) :
    d.enumerations = declareSites [] (s.sites name) := by
  obtain ⟨_, _, hfields, hschema, -, -, henums⟩ := exists_schema h
  cases hfields
  obtain rfl := Except.ok.inj (hread.symm.trans hschema)
  exact henums

theorem mem_sites_iff {fields : Fields Json} {s : Schema} (hdocument : document = .object fields)
    (hread : ofRoot fields = .ok s) (site : Site) :
    site ∈ s.sites name ↔ SiteInRoot site name document := by
  rw [hdocument]
  exact ofRoot_sites hread name site

/-- The enumerations of a declaration are the choices of the sites of
the document. -/
theorem exists_siteInRoot (h : declare document name = .ok d) {e : Enumeration}
    (he : e ∈ d.enumerations) :
    ∃ site, SiteInRoot site name document ∧ e = site.choose d.enumerations := by
  obtain ⟨fields, s, hdocument, hread, -, -, hsites⟩ := exists_schema h
  rw [hsites] at he ⊢
  obtain ⟨site, hsite, hchosen⟩ := exists_choose_of_mem he
  exact ⟨site, (mem_sites_iff hdocument hread site).mp hsite, hchosen⟩

/-- A site of the document has an enumeration with its members. -/
theorem exists_enumeration (h : declare document name = .ok d) {site : Site}
    (hsite : SiteInRoot site name document) : ∃ e ∈ d.enumerations,
      e.name = nameAmong d.enumerations site ∧ e.writtenMembers = site.writtenMembers := by
  obtain ⟨fields, s, hdocument, hread, -, -, hsites⟩ := exists_schema h
  rw [hsites]
  exact exists_declared ((mem_sites_iff hdocument hread site).mpr hsite)

theorem enumeration_names_nodup (h : declare document name = .ok d) :
    (d.enumerations.map Enumeration.name).Nodup := by
  obtain ⟨fields, s, -, -, -, -, hsites⟩ := exists_schema h
  rw [hsites]
  exact declareSites_names_nodup (s.sites name)

/-- The type has the name of an enumeration if and only if a site is
called that. -/
theorem mem_enumeration_names_iff (h : declare document name = .ok d) :
    name ∈ d.enumerations.map Enumeration.name ↔
      ∃ site, SiteInRoot site name document ∧ nameAmong d.enumerations site = name := by
  constructor
  · intro hname
    obtain ⟨e, he, hename⟩ := List.mem_map.mp hname
    obtain ⟨site, hsite, rfl⟩ := exists_siteInRoot h he
    exact ⟨site, hsite, hename⟩
  · rintro ⟨site, hsite, hname⟩
    obtain ⟨e, he, hename, -⟩ := exists_enumeration h hsite
    rw [← hname, ← hename]
    exact List.mem_map_of_mem he

theorem names_eq (h : declare document name = .ok d) :
    d.names = name :: d.enumerations.map Enumeration.name := by
  obtain ⟨-, -, -, -, hname, -⟩ := exists_schema h
  rw [Declarations.names, hname]

/-- A document with one property, whose values have names. -/
def withEnumeration (property : String) (values : List Json) (names : List String) : Json :=
  .object [("properties", .object [(property, .object [("enum", .array values),
    ("tsEnumNames", .array (names.map .string))])])]

/-- Such a document is declared with one enumeration, under the name of
the property in Pascal case. -/
theorem declare_withEnumeration (property name : String) (values : List Json)
    (names : List String) (hname : TypeScript.isIdentifier name = true)
    (hnames : names.all TypeScript.isIdentifier = true) (hlength : names.length = values.length) :
    ∃ d, declare (withEnumeration property values names) name = .ok d ∧
      d.enumerations = [⟨Text.pascalCase property, names.zip values⟩] ∧
        SiteInRoot ⟨property, names.zip values⟩ name (withEnumeration property values names) := by
  have hmembers : ∀ place, enumerationMembers place values (.array (names.map .string)) =
      .ok (names.zip values) := by
    intro place
    simp [enumerationMembers, strings?_map, hnames, hlength, Option.filter]
  have hread : ofRoot [("properties", .object [(property, .object [("enum", .array values),
      ("tsEnumNames", .array (names.map .string))])])] =
        .ok (.object [(⟨property, none, false⟩, .enumeration (names.zip values))]
          (some (.primitive .any))) := by
    simp [ofRoot, isObjectDocument, ofObject, ofProperties, ofJson, ofKeywords, hmembers,
      requiredNames, descriptionOf, Fields.get?, Fields.contains, Except.map, bind, Except.bind,
      pure, Except.pure]
  refine ⟨_, declare_eq_ok_iff.mpr ⟨hname, _, _, rfl, hread, rfl⟩, ?_, ?_⟩
  · have hfirst : nameEnumeration [] (Text.pascalCase property) (names.zip values) =
        ⟨Text.pascalCase property, names.zip values⟩ :=
      (settles_nameEnumeration [] _ _).unique (.fits rfl)
    rw [typeOf_object, membersOf_cons, typeOf_enumeration, declareEnumeration_run, hfirst]
    rfl
  · rw [withEnumeration, ← ofRoot_sites hread]
    simp [Schema.sites, Schema.propertySites, Schema.furtherSites]

/-- One name means one enumeration: the sites of a document are called
as enumerations with their members, each of which is declared once. The
name is that of one declaration only unless the type has it too. -/
theorem declare_declaredOnce (h : declare document name = .ok d) : ∃ fields s,
    document = .object fields ∧ ofRoot fields = .ok s ∧
      (∀ site, site ∈ s.sites name ↔ SiteInRoot site name document) ∧
      (typeOf name s).run [] = (d.body.type, d.enumerations) ∧
      d.body.type = namedType (nameAmong d.enumerations) name s ∧
      DeclaredOnce (s.sites name) (nameAmong d.enumerations) d.enumerations ∧
      ∀ site ∈ s.sites name, (d.names.count (nameAmong d.enumerations site) = 1 ↔
        nameAmong d.enumerations site ≠ name) := by
  obtain ⟨fields, s, hdocument, hread, -, hrun, hsites⟩ := exists_schema h
  have honce := declareSites_declaredOnce (s.sites name)
  rw [← hsites] at honce
  refine ⟨fields, s, hdocument, hread, mem_sites_iff hdocument hread, hrun, ?_, honce, ?_⟩
  · have hnamed := typeOf_run_named honce.distinct s name []
    rw [hrun] at hnamed
    exact hnamed (List.prefix_refl _)
  · intro site hsite
    obtain ⟨e, he, hname, -⟩ := honce.declared site hsite
    have hcount : (d.enumerations.map Enumeration.name).count (nameAmong d.enumerations site) = 1 :=
      List.count_eq_one_of_mem honce.distinct (hname ▸ List.mem_map_of_mem he)
    rw [names_eq h, List.count_cons, hcount]
    by_cases hsame : name = nameAmong d.enumerations site
    · simp [← hsame]
    · simp [hsame, Ne.symm hsame]

/-- A type `Status` with a property `status` whose values have names. -/
theorem status_declaredOnce : ∃ d,
    declare (withEnumeration "status" [.string "open"] ["Open"]) "Status" = .ok d ∧
      ∃ site, SiteInRoot site "Status" (withEnumeration "status" [.string "open"] ["Open"]) ∧
        nameAmong d.enumerations site = "Status" ∧ d.names.count "Status" ≠ 1 := by
  obtain ⟨d, hd, henumerations, hsite⟩ := declare_withEnumeration "status" "Status"
    [.string "open"] ["Open"] (by decide) (by decide) rfl
  obtain ⟨fields, s, -, -, hmem, -, -, honce, hcount⟩ := declare_declaredOnce hd
  have hin := (hmem _).mpr hsite
  obtain ⟨e, he, hname, -⟩ := honce.declared _ hin
  rw [henumerations, List.mem_singleton] at he
  have hstatus : Text.pascalCase "status" = "Status" := by decide +kernel
  have hname : nameAmong d.enumerations _ = "Status" := hname.symm.trans (he ▸ hstatus)
  refine ⟨d, hd, _, hsite, hname, fun hone => ?_⟩
  rw [← hname] at hone
  exact (hcount _ hin).mp hone hname

/-- No name is declared twice if and only if no site is called as the
type is. This is so if no site has the name of the type for a candidate,
and it is not if a site has it for a base. -/
theorem declare_names_nodup_iff (h : declare document name = .ok d) :
    (d.enumerations.map Enumeration.name).Nodup ∧
      (d.names.Nodup ↔
        ∀ site, SiteInRoot site name document → nameAmong d.enumerations site ≠ name) ∧
      ((∀ site, SiteInRoot site name document → ∀ index, candidateName site.base index ≠ name) →
        d.names.Nodup) ∧
      ((∃ site, SiteInRoot site name document ∧ site.base = name) → ¬d.names.Nodup) := by
  have hnodup := enumeration_names_nodup h
  have hiff : d.names.Nodup ↔
      ∀ site, SiteInRoot site name document → nameAmong d.enumerations site ≠ name := by
    rw [names_eq h, List.nodup_cons, mem_enumeration_names_iff h, and_iff_left hnodup]
    exact ⟨fun hnone site hsite hname => hnone ⟨site, hsite, hname⟩,
      fun hall ⟨site, hsite, hname⟩ => hall site hsite hname⟩
  refine ⟨hnodup, hiff, fun hcandidates => hiff.mpr fun site hsite hname => ?_, ?_⟩
  · obtain ⟨index, hindex⟩ := exists_candidate d.enumerations site
    exact hcandidates site hsite index ((congrArg Enumeration.name hindex).symm.trans hname)
  · rintro ⟨site, hsite, hbase⟩
    obtain ⟨fields, s, hdocument, hread, -, -, hsites⟩ := exists_schema h
    obtain ⟨e, he, hename⟩ := exists_name_eq_base ((mem_sites_iff hdocument hread site).mpr hsite)
    rw [← hsites] at he
    rw [names_eq h, List.nodup_cons]
    rintro ⟨hnot, -⟩
    exact hnot (List.mem_map.mpr ⟨e, he, hename.trans hbase⟩)

/-- A type `User` with a property `user` whose values have names. -/
theorem user_names_not_nodup : ∃ d,
    declare (withEnumeration "user" [.string "admin"] ["Admin"]) "User" = .ok d ∧
      ¬d.names.Nodup := by
  obtain ⟨d, hd, -, hsite⟩ := declare_withEnumeration "user" "User" [.string "admin"] ["Admin"]
    (by decide) (by decide) rfl
  obtain ⟨-, -, -, hbase⟩ := declare_names_nodup_iff hd
  have huser : Text.pascalCase "user" = "User" := by decide +kernel
  exact ⟨d, hd, hbase ⟨_, hsite, huser⟩⟩

end Declared

/-! ## 3. Enumerations as they must be written -/

/-- A value that a member may have: a text or a number. -/
def isInitializer : Json → Bool
  | .string _ | .number _ => true
  | _ => false

/-- An enumeration that may stand in the generated source. -/
structure IsLegal (e : Enumeration) : Prop where
  name : TypeScript.isIdentifier e.name = true
  memberNames : ∀ member ∈ e.members, TypeScript.isIdentifier member.1 = true
  distinct : (e.members.map Prod.fst).Nodup
  values : ∀ member ∈ e.members, isInitializer member.2 = true

theorem isIdentifierStart_of_isDigit {c : Char} (h : c.isDigit = true) :
    TypeScript.isIdentifierStart c = false := by
  have hle : c.toNat ≤ 57 := by
    simp only [Char.isDigit, Bool.and_eq_true, decide_eq_true_eq, UInt32.le_iff_toNat_le] at h
    exact h.2
  exact Text.forall_ascii (p := fun c => c.isDigit = true → TypeScript.isIdentifierStart c = false)
    (by decide) (by omega) h

/-- The number behind a name has no say in whether it is an
identifier. -/
theorem isIdentifier_candidateName (base : String) (index : Nat) :
    TypeScript.isIdentifier (candidateName base index) = TypeScript.isIdentifier base := by
  unfold TypeScript.isIdentifier
  rw [candidateName_toList]
  split
  · rw [List.append_nil]
  · have hdigits := Number.digits_digitsOf (index + 1)
    cases base.toList with
    | nil =>
      cases hcs : Decimal.digitsOf (index + 1) with
      | nil => rfl
      | cons c cs =>
        rw [hcs] at hdigits
        have hstart := isIdentifierStart_of_isDigit (hdigits c List.mem_cons_self)
        simp [TypeScript.isIdentifierChars, hstart]
    | cons c cs =>
      have hparts : (Decimal.digitsOf (index + 1)).all TypeScript.isIdentifierPart = true :=
        List.all_eq_true.mpr fun c hc => by simp [TypeScript.isIdentifierPart, hdigits c hc]
      simp [TypeScript.isIdentifierChars, hparts]

/-- Members of a site of a whole document have identifiers for
names. -/
theorem SiteInRoot.isIdentifier {fields : Fields Json} {s : Schema} {name : String} {site : Site}
    (hread : ofRoot fields = .ok s) (hsite : SiteInRoot site name (.object fields)) :
    ∀ member ∈ site.members, TypeScript.isIdentifier member.1 = true := by
  unfold ofRoot at hread
  rw [SiteInRoot] at hsite
  split at hread
  · next hobject =>
    rw [if_pos hobject] at hsite
    have hkind : ofKind (ofArray [] fields) (ofObject [] fields) .object = .ok s := hread
    exact hsite.isIdentifier hkind
  · next hobject =>
    rw [if_neg hobject] at hsite
    exact hsite.isIdentifier (isRead_of_ofKeywords hread)

/-- Members that are written alike are the same. -/
theorem members_eq_of_writtenMembers {e : Enumeration} {site : Site}
    (h : e.writtenMembers = site.writtenMembers) : e.members = site.members := by
  refine List.map_injective_iff.mpr (fun first second hsame => ?_) h
  obtain ⟨hname, hvalue⟩ := Prod.mk.inj hsame
  exact Prod.ext hname (Json.compact_injective hvalue)

/-- The names of members are identifiers. All enumerations may stand in
the source if and only if each site has an identifier for a base, no
name twice and no value but texts and numbers. The base for an ASCII
hint is an identifier if the hint is one without its separators. -/
theorem declare_isLegal_iff {document : Json} {name : String} {d : Declarations}
    (h : declare document name = .ok d) :
    (∀ e ∈ d.enumerations, ∀ member ∈ e.members, TypeScript.isIdentifier member.1 = true) ∧
      ((∀ e ∈ d.enumerations, IsLegal e) ↔ ∀ site, SiteInRoot site name document →
        TypeScript.isIdentifier site.base = true ∧ (site.members.map Prod.fst).Nodup ∧
          ∀ member ∈ site.members, isInitializer member.2 = true) ∧
      ∀ site, SiteInRoot site name document → Text.Ascii site.hint.toList →
        TypeScript.isIdentifier site.base = TypeScript.isIdentifierChars
          (site.hint.toList.filter (!Text.isSeparatorChar ·)) := by
  obtain ⟨fields, s, rfl, hread, -⟩ := exists_schema h
  have hcandidate : ∀ site : Site, TypeScript.isIdentifier (nameAmong d.enumerations site) =
      TypeScript.isIdentifier site.base := by
    intro site
    obtain ⟨index, hindex⟩ := exists_candidate d.enumerations site
    rw [nameAmong, hindex]
    exact isIdentifier_candidateName site.base index
  have hmembers : ∀ site : Site, (site.choose d.enumerations).members = site.members := by
    intro site
    obtain ⟨index, hindex⟩ := exists_candidate d.enumerations site
    rw [hindex]
  have hidentifiers : ∀ e ∈ d.enumerations,
      ∀ member ∈ e.members, TypeScript.isIdentifier member.1 = true := by
    intro e he
    obtain ⟨site, hsite, rfl⟩ := exists_siteInRoot h he
    rw [hmembers]
    exact hsite.isIdentifier hread
  refine ⟨hidentifiers, ⟨fun hall site hsite => ?_, fun hall e he => ?_⟩,
    fun _ _ => Text.isIdentifier_pascalCase⟩
  · obtain ⟨e, he, hname, hwritten⟩ := exists_enumeration h hsite
    have hlegal := hall e he
    rw [← members_eq_of_writtenMembers hwritten, ← hcandidate, ← hname]
    exact ⟨hlegal.name, hlegal.distinct, hlegal.values⟩
  · have hnames := hidentifiers e he
    obtain ⟨site, hsite, rfl⟩ := exists_siteInRoot h he
    obtain ⟨hbase, hdistinct, hvalues⟩ := hall site hsite
    rw [← hmembers] at hdistinct hvalues
    exact ⟨(hcandidate site).trans hbase, hnames, hdistinct, hvalues⟩

/-- A property whose name begins with a digit. -/
theorem digit_not_isLegal : ∃ d,
    declare (withEnumeration "2fa" [.string "on"] ["On"]) "User" = .ok d ∧
      ¬∀ e ∈ d.enumerations, IsLegal e := by
  obtain ⟨d, hd, -, hsite⟩ := declare_withEnumeration "2fa" "User" [.string "on"] ["On"]
    (by decide) (by decide) rfl
  obtain ⟨-, hlegal, hascii⟩ := declare_isLegal_iff hd
  refine ⟨d, hd, fun hall => ?_⟩
  obtain ⟨hbase, -⟩ := hlegal.mp hall _ hsite
  rw [hascii _ hsite (by simp [Text.Ascii])] at hbase
  exact absurd hbase (by decide)

end JsonSchema

end TableMapper
