/-
TableMapper.Proofs.JsonSchema.Renumbering — one schema in two runs.

A run that meets other sites may give an enumeration another number. The
type of a schema stands for the same all the same, for each run declares
the members under the name that it refers to (`namedType_renamed`). What
may differ is what a name means: two runs mean the same by every name
that both have exactly if they give the same names to the sites that
they have in common (`sameMembers_iff`).
-/
import TableMapper.Proofs.JsonSchema.DeclaredEnumerations
import TableMapper.Proofs.TypeScript.Renaming

namespace TableMapper.JsonSchema

open TypeScript (TypeExpr Enumeration)
open TypeScript.TypeExpr (Alike Renamed RenamedAll RenamedMembers RenamedFurther)

/-! ## 1. Names and keywords -/

/-- The names in type expressions that are no references. -/
def keywords : List String := ["string", "number", "boolean", "null", "any", "never"]

/-- No candidate for the name of an enumeration is a keyword: those begin
with small letters. -/
theorem candidateName_notMem_keywords (hint : String) (index : Nat) :
    candidateName (Text.pascalCase hint) index ∉ keywords := by
  intro hmem
  have hsmall : ∀ keyword ∈ keywords,
      keyword.toList.head?.any (Text.isSmallCode ·.toNat) = true := by decide
  obtain ⟨c, hc, hcode⟩ := (Option.any_eq_true _ _).mp (hsmall _ hmem)
  rw [candidateName_toList] at hc
  cases hbase : (Text.pascalCase hint).toList with
  | nil =>
    rw [hbase, List.nil_append] at hc
    split at hc
    · cases hc
    · have hdigit := Number.digits_digitsOf (index + 1) c (List.mem_of_mem_head? hc)
      simp only [Char.isDigit, Bool.and_eq_true, decide_eq_true_eq, UInt32.le_iff_toNat_le]
        at hdigit
      have hle : c.toNat ≤ 57 := hdigit.2
      simp only [Text.isSmallCode, Bool.and_eq_true, decide_eq_true_eq] at hcode
      omega
  | cons d ds =>
    have hhead : (Text.pascalCase hint).toList.head? = some c := by
      rw [hbase] at hc ⊢
      exact hc
    rw [Text.pascalCase_head hhead] at hcode
    cases hcode

theorem alike_candidateName (base : String) (index other : Nat) :
    Alike (candidateName base index).toList (candidateName base other).toList := by
  have hbase : ∀ index, Alike (candidateName base index).toList base.toList := by
    intro index
    rw [candidateName_toList]
    apply Alike.append_digits
    intro c hc
    split at hc
    · exact absurd hc List.not_mem_nil
    · exact Number.digits_digitsOf _ c hc
  exact (hbase index).trans (hbase other).symm

/-! ## 2. What names stand for in a run -/

section Run

variable {sites : List Site}

/-- The name of a site stands for its members. -/
theorem denoted_nameAmong {site : Site} (h : site ∈ sites) :
    (TypeExpr.name (nameAmong (declareSites [] sites) site)).denoted (declareSites [] sites) =
      .enumeration site.members := by
  obtain ⟨e, he, hname, hwritten⟩ := exists_declared h
  have hfind : (declareSites [] sites).find?
      (·.name == nameAmong (declareSites [] sites) site) = some e := by
    cases hfound : (declareSites [] sites).find?
        (·.name == nameAmong (declareSites [] sites) site) with
    | none => exact absurd (beq_iff_eq.mpr hname) (List.find?_eq_none.mp hfound e he)
    | some found =>
      rw [List.inj_on_of_nodup_map (declareSites_names_nodup sites)
        (List.mem_of_find?_eq_some hfound) he ((name_of_find? hfound).trans hname.symm)]
  rw [TypeExpr.denoted, hfind]
  exact congrArg TypeScript.Denoted.enumeration (members_eq_of_writtenMembers hwritten)

/-- Keywords stand for themselves. -/
theorem denoted_keyword {name : String} (h : name ∈ keywords) :
    (TypeExpr.name name).denoted (declareSites [] sites) = .keyword name := by
  have hfind : (declareSites [] sites).find? (·.name == name) = none := by
    refine List.find?_eq_none.mpr fun e he hname => ?_
    obtain ⟨site, -, rfl⟩ := exists_choose_of_mem he
    obtain ⟨index, hindex⟩ := exists_candidate (declareSites [] sites) site
    rw [hindex, beq_iff_eq] at hname
    have hcandidate : candidateName (Text.pascalCase site.hint) index = name := hname
    exact candidateName_notMem_keywords site.hint index (hcandidate ▸ h)
  rw [TypeExpr.denoted, hfind]

end Run

/-! ## 3. One schema in two runs -/

section Runs

variable {sites others : List Site}

/-- A keyword is the same in both runs. -/
theorem renamed_keyword {name : String} (h : name ∈ keywords) :
    Renamed (declareSites [] sites) (declareSites [] others) (.name name) (.name name) :=
  ⟨(denoted_keyword h).trans (denoted_keyword h).symm, fun _ => .refl _⟩

/-- A site that both runs have stands for the same members in both. -/
theorem renamed_site {site : Site} (h : site ∈ sites) (h' : site ∈ others) :
    Renamed (declareSites [] sites) (declareSites [] others)
      (.name (nameAmong (declareSites [] sites) site))
      (.name (nameAmong (declareSites [] others) site)) where
  denoted := (denoted_nameAmong h).trans (denoted_nameAmong h').symm
  text _ := by
    obtain ⟨index, hindex⟩ := exists_candidate (declareSites [] sites) site
    obtain ⟨other, hother⟩ := exists_candidate (declareSites [] others) site
    rw [nameAmong, nameAmong, hindex, hother]
    exact alike_candidateName site.base index other

mutual

/-- A schema whose sites both runs have is typed as the same in both. -/
theorem namedType_renamed : ∀ (s : Schema) (hint : String),
    (∀ site ∈ s.sites hint, site ∈ sites ∧ site ∈ others) →
      Renamed (declareSites [] sites) (declareSites [] others)
        (namedType (nameAmong (declareSites [] sites)) hint s)
        (namedType (nameAmong (declareSites [] others)) hint s)
  | .primitive type, _, _ => renamed_keyword (by cases type <;> decide)
  | .never, _, _ => renamed_keyword (by decide)
  | .verbatim source, _, _ => .verbatim source
  | .choice values, _, _ =>
    .union (List.forall₂_map_left_iff.mpr
      (List.forall₂_map_right_iff.mpr (List.forall₂_same.mpr fun value _ => .literal value)))
  | .constant value, _, _ => .literal value
  | .enumeration members, hint, h =>
    have hsite := h ⟨hint, members⟩ List.mem_cons_self
    renamed_site hsite.1 hsite.2
  | .union branches, hint, h => .union (namedTypes_renamed branches hint h)
  | .intersection branches, hint, h => by
    refine .intersection (List.forall₂_map_left_iff.mpr (List.forall₂_map_right_iff.mpr ?_))
    exact (namedTypes_renamed branches hint h).imp fun _ _ => Renamed.operand
  | .array element, hint, h => .array (namedType_renamed element hint h).operand
  | .tuple elements, hint, h => .tuple (namedTypes_renamed elements hint h)
  | .object properties further, _, h => by
    rw [Schema.sites, List.forall_mem_append] at h
    exact .object (namedMembers_renamed properties h.1) (namedFurther_renamed further h.2)

theorem namedTypes_renamed : ∀ (schemas : List Schema) (hint : String),
    (∀ site ∈ Schema.sitesOf hint schemas, site ∈ sites ∧ site ∈ others) →
      RenamedAll (declareSites [] sites) (declareSites [] others)
        (namedTypes (nameAmong (declareSites [] sites)) hint schemas)
        (namedTypes (nameAmong (declareSites [] others)) hint schemas)
  | [], _, _ => .nil
  | s :: rest, hint, h => by
    rw [Schema.sitesOf, List.forall_mem_append] at h
    exact .cons (namedType_renamed s hint h.1) (namedTypes_renamed rest hint h.2)

theorem namedMembers_renamed : ∀ (properties : List (PropertyHead × Schema)),
    (∀ site ∈ Schema.propertySites properties, site ∈ sites ∧ site ∈ others) →
      RenamedMembers (declareSites [] sites) (declareSites [] others)
        (namedMembers (nameAmong (declareSites [] sites)) properties)
        (namedMembers (nameAmong (declareSites [] others)) properties)
  | [], _ => .nil
  | (head, s) :: rest, h => by
    rw [Schema.propertySites, List.forall_mem_append] at h
    exact .cons ⟨rfl, namedType_renamed s head.name h.1⟩ (namedMembers_renamed rest h.2)

theorem namedFurther_renamed : ∀ (further : Option Schema),
    (∀ site ∈ Schema.furtherSites further, site ∈ sites ∧ site ∈ others) →
      RenamedFurther (declareSites [] sites) (declareSites [] others)
        (namedFurther (nameAmong (declareSites [] sites)) further)
        (namedFurther (nameAmong (declareSites [] others)) further)
  | none, _ => .none
  | some s, h => .some (namedType_renamed s "additional" h)

end

/-! ## 4. One name in two runs -/

/-- Enumerations of one name have the same members. -/
def SameMembers (known others : List Enumeration) : Prop :=
  ∀ e ∈ known, ∀ f ∈ others, e.name = f.name → e.members = f.members

theorem SameMembers.symm {known others : List Enumeration} (h : SameMembers known others) :
    SameMembers others known :=
  fun e he f hf hname => (h f hf e he hname.symm).symm

/-- A run means the same as itself by each of its names. -/
theorem sameMembers_self (sites : List Site) :
    SameMembers (declareSites [] sites) (declareSites [] sites) := by
  intro e he f hf hname
  rw [List.inj_on_of_nodup_map (declareSites_names_nodup sites) he hf hname]

/-- A site is called by the first candidate that fits in the end. -/
theorem exists_first_candidate (known : List Enumeration) (site : Site) :
    ∃ index, nameAmong known site = candidateName site.base index ∧ ∀ earlier < index,
      nameFits known ⟨candidateName site.base earlier, site.members⟩ = false := by
  obtain ⟨index, he, hbefore⟩ :=
    (settles_nameEnumeration known site.base site.members).exists_first
  exact ⟨index, congrArg Enumeration.name he, fun earlier hlt =>
    hbefore earlier (Nat.zero_le _) hlt⟩

/-- Where both runs mean the same by a name, a candidate that one of them
has for a site is not passed over in the other. -/
theorem index_le_of_sameMembers {known others : List Enumeration} (h : SameMembers known others)
    {site : Site} {e : Enumeration} {index other : Nat} (he : e ∈ known)
    (hname : e.name = candidateName site.base index)
    (hwritten : e.writtenMembers = site.writtenMembers)
    (hbefore : ∀ earlier < other,
      nameFits others ⟨candidateName site.base earlier, site.members⟩ = false) :
    other ≤ index := by
  by_contra hlt
  obtain ⟨f, hf, hsame, hdiffers⟩ :=
    exists_of_nameFits_eq_false (hbefore index (Nat.lt_of_not_le hlt))
  have hmembers := h e he f hf (hname.trans hsame.symm)
  apply hdiffers
  show f.writtenMembers = site.writtenMembers
  rw [← hwritten, TypeScript.Enumeration.writtenMembers, ← hmembers]
  rfl

/-- Of two runs, of which the second meets no sites but those of the
first, both mean the same by each name that they have in common exactly
if the second calls all its sites as the first does. -/
theorem sameMembers_iff (hsub : others ⊆ sites) :
    SameMembers (declareSites [] sites) (declareSites [] others) ↔
      ∀ site ∈ others,
        nameAmong (declareSites [] sites) site = nameAmong (declareSites [] others) site := by
  constructor
  · intro h site hsite
    obtain ⟨index, hname, hbefore⟩ := exists_first_candidate (declareSites [] sites) site
    obtain ⟨other, hother, hbefore'⟩ := exists_first_candidate (declareSites [] others) site
    obtain ⟨e, he, hename, hwritten⟩ := exists_declared (hsub hsite)
    obtain ⟨f, hf, hfname, hwritten'⟩ := exists_declared hsite
    have hle := index_le_of_sameMembers h he (hename.trans hname) hwritten hbefore'
    have hge := index_le_of_sameMembers h.symm hf (hfname.trans hother) hwritten' hbefore
    rw [hname, hother, Nat.le_antisymm hge hle]
  · intro h e he f hf hname
    obtain ⟨site, hsite, rfl⟩ := exists_choose_of_mem hf
    obtain ⟨x, hx, hxname, hwritten⟩ := exists_declared (hsub hsite)
    obtain ⟨index, hindex⟩ := exists_candidate (declareSites [] others) site
    have hsame : e = x := List.inj_on_of_nodup_map (declareSites_names_nodup sites) he hx
      (hname.trans ((h site hsite).symm.trans hxname.symm))
    rw [hsame, members_eq_of_writtenMembers hwritten, hindex]

end Runs

end TableMapper.JsonSchema
