/-
TableMapper.Proofs.JsonSchema.Sites — the places where a schema names an
enumeration.

A run of typing is a sequence of declarations, one for each site in the
order in which they are visited (`typeOf_run_sites`). Its expression is
the schema with each site replaced by a name that is fixed by the
enumerations of the whole run (`typeOf_run_named`): no earlier or later
site has a say in it.
-/
import TableMapper.Proofs.JsonSchema.Candidates

namespace TableMapper.JsonSchema

open TypeScript (TypeExpr Enumeration)

/-! ## 1. Sites of a schema -/

/-- A place where an enumeration is named: the hint there, and the
members. -/
structure Site where
  hint : String
  members : List (String × Json)

namespace Site

/-- The name that is tried first. -/
def base (site : Site) : String := Text.pascalCase site.hint

/-- The members with their values written out. -/
def writtenMembers (site : Site) : List (String × String) :=
  site.members.map fun (name, value) => (name, value.compact)

/-- The enumeration that a site has, among those that are known. -/
def choose (known : List Enumeration) (site : Site) : Enumeration :=
  nameEnumeration known site.base site.members

/-- What is known after a site is visited. -/
def declare (known : List Enumeration) (site : Site) : List Enumeration :=
  ((declareEnumeration site.base site.members).run known).2

end Site

mutual

/-- The sites of a schema in the order in which they are visited. -/
def Schema.sites (hint : String) : Schema → List Site
  | .primitive _ | .never | .verbatim _ | .choice _ | .constant _ => []
  | .enumeration members => [⟨hint, members⟩]
  | .union branches => Schema.sitesOf hint branches
  | .intersection branches => Schema.sitesOf hint branches
  | .array element => Schema.sites hint element
  | .tuple elements => Schema.sitesOf hint elements
  | .object properties further => Schema.propertySites properties ++ Schema.furtherSites further

/-- The sites of several schemas under one hint. -/
def Schema.sitesOf (hint : String) : List Schema → List Site
  | [] => []
  | s :: rest => Schema.sites hint s ++ Schema.sitesOf hint rest

/-- The sites in the properties of an object, each under its name. -/
def Schema.propertySites : List (PropertyHead × Schema) → List Site
  | [] => []
  | (head, s) :: rest => Schema.sites head.name s ++ Schema.propertySites rest

/-- The sites in the schema of further members. -/
def Schema.furtherSites : Option Schema → List Site
  | none => []
  | some s => Schema.sites "additional" s

end

/-- What is known after sites are visited one after the other. -/
def declareSites (known : List Enumeration) (sites : List Site) : List Enumeration :=
  sites.foldl Site.declare known

theorem declareSites_append (known : List Enumeration) (sites others : List Site) :
    declareSites known (sites ++ others) = declareSites (declareSites known sites) others :=
  List.foldl_append

mutual

/-- A run of typing declares what its sites declare. -/
theorem typeOf_run_sites : ∀ (s : Schema) (hint : String) (known : List Enumeration),
    ((typeOf hint s).run known).2 = declareSites known (s.sites hint)
  | .primitive _, _, _ => rfl
  | .never, _, _ => rfl
  | .verbatim _, _, _ => rfl
  | .choice _, _, _ => rfl
  | .constant _, _, _ => rfl
  | .enumeration _, _, _ => rfl
  | .union branches, hint, known => typesOf_run_sites branches hint known
  | .intersection branches, hint, known => typesOf_run_sites branches hint known
  | .array element, hint, known => typeOf_run_sites element hint known
  | .tuple elements, hint, known => typesOf_run_sites elements hint known
  | .object properties further, _, known => by
    rw [typeOf_object, Schema.sites, declareSites_append, ← membersOf_run_sites properties]
    exact furtherOf_run_sites further _

theorem typesOf_run_sites : ∀ (schemas : List Schema) (hint : String)
    (known : List Enumeration),
    ((typesOf hint schemas).run known).2 = declareSites known (Schema.sitesOf hint schemas)
  | [], _, _ => rfl
  | s :: rest, hint, known => by
    rw [typesOf_cons, Schema.sitesOf, declareSites_append, ← typeOf_run_sites s]
    exact typesOf_run_sites rest hint _

theorem membersOf_run_sites : ∀ (properties : List (PropertyHead × Schema))
    (known : List Enumeration),
    ((membersOf properties).run known).2 = declareSites known (Schema.propertySites properties)
  | [], _ => rfl
  | (head, s) :: rest, known => by
    rw [membersOf_cons, Schema.propertySites, declareSites_append, ← typeOf_run_sites s]
    exact membersOf_run_sites rest _

theorem furtherOf_run_sites : ∀ (further : Option Schema) (known : List Enumeration),
    ((furtherOf further).run known).2 = declareSites known (Schema.furtherSites further)
  | none, _ => rfl
  | some s, known => typeOf_run_sites s "additional" known

end

/-! ## 2. Expressions with named sites -/

mutual

/-- The type expression of a schema whose enumerations are called as the
naming says. -/
def namedType (nameOf : Site → String) (hint : String) : Schema → TypeExpr
  | .primitive type => .name type.keyword
  | .never => .name "never"
  | .verbatim source => .verbatim source
  | .choice values => .union (values.map .literal)
  | .enumeration members => .name (nameOf ⟨hint, members⟩)
  | .constant value => .literal value
  | .union branches => .union (namedTypes nameOf hint branches)
  | .intersection branches =>
    .intersection ((namedTypes nameOf hint branches).map TypeExpr.operand)
  | .array element => .array (namedType nameOf hint element).operand
  | .tuple elements => .tuple (namedTypes nameOf hint elements)
  | .object properties further =>
    .object (namedMembers nameOf properties) (namedFurther nameOf further)

/-- The type expressions of several schemas. -/
def namedTypes (nameOf : Site → String) (hint : String) : List Schema → List TypeExpr
  | [] => []
  | s :: rest => namedType nameOf hint s :: namedTypes nameOf hint rest

/-- The members for the properties of an object. -/
def namedMembers (nameOf : Site → String) :
    List (PropertyHead × Schema) → List (PropertyHead × TypeExpr)
  | [] => []
  | (head, s) :: rest => (head, namedType nameOf head.name s) :: namedMembers nameOf rest

/-- The type of all further members of an object. -/
def namedFurther (nameOf : Site → String) : Option Schema → Option TypeExpr
  | none => none
  | some s => some (namedType nameOf "additional" s)

end

theorem namedMembers_eq_map (nameOf : Site → String) (properties : List (PropertyHead × Schema)) :
    namedMembers nameOf properties =
      properties.map fun p => (p.1, namedType nameOf p.1.name p.2) := by
  induction properties with
  | nil => rfl
  | cons p rest ih =>
    obtain ⟨head, s⟩ := p
    rw [namedMembers, ih]
    rfl

/-- What each site is called among the enumerations that are known in
the end. -/
def nameAmong (final : List Enumeration) (site : Site) : String := (site.choose final).name

mutual

/-- The expression of a run has the names of its sites among all
enumerations of the run. -/
theorem typeOf_run_named {final : List Enumeration}
    (hnodup : (final.map Enumeration.name).Nodup) : ∀ (s : Schema) (hint : String)
    (known : List Enumeration), ((typeOf hint s).run known).2 <+: final →
      ((typeOf hint s).run known).1 = namedType (nameAmong final) hint s
  | .primitive _, _, _, _ => rfl
  | .never, _, _, _ => rfl
  | .verbatim _, _, _, _ => rfl
  | .choice _, _, _, _ => rfl
  | .constant _, _, _, _ => rfl
  | .enumeration members, hint, known, hafter => by
    rw [typeOf_enumeration] at hafter ⊢
    rw [declareEnumeration_run, nameEnumeration_eq hnodup hafter]
    rfl
  | .union branches, hint, known, hafter => by
    rw [typeOf_union, namedType, typesOf_run_named hnodup branches hint known hafter]
  | .intersection branches, hint, known, hafter => by
    rw [typeOf_intersection, namedType, typesOf_run_named hnodup branches hint known hafter]
  | .array element, hint, known, hafter => by
    rw [typeOf_array, namedType, typeOf_run_named hnodup element hint known hafter]
  | .tuple elements, hint, known, hafter => by
    rw [typeOf_tuple, namedType, typesOf_run_named hnodup elements hint known hafter]
  | .object properties further, hint, known, hafter => by
    rw [typeOf_object] at hafter ⊢
    have hfirst := (furtherOf_run_related prefix_relation further _).trans hafter
    rw [namedType, membersOf_run_named hnodup properties known hfirst,
      furtherOf_run_named hnodup further _ hafter]

theorem typesOf_run_named {final : List Enumeration}
    (hnodup : (final.map Enumeration.name).Nodup) : ∀ (schemas : List Schema) (hint : String)
    (known : List Enumeration), ((typesOf hint schemas).run known).2 <+: final →
      ((typesOf hint schemas).run known).1 = namedTypes (nameAmong final) hint schemas
  | [], _, _, _ => rfl
  | s :: rest, hint, known, hafter => by
    rw [typesOf_cons] at hafter ⊢
    have hfirst := (typesOf_run_related prefix_relation rest hint _).trans hafter
    rw [namedTypes, typeOf_run_named hnodup s hint known hfirst,
      typesOf_run_named hnodup rest hint _ hafter]

theorem membersOf_run_named {final : List Enumeration}
    (hnodup : (final.map Enumeration.name).Nodup) : ∀ (properties : List (PropertyHead × Schema))
    (known : List Enumeration), ((membersOf properties).run known).2 <+: final →
      ((membersOf properties).run known).1 = namedMembers (nameAmong final) properties
  | [], _, _ => rfl
  | (head, s) :: rest, known, hafter => by
    rw [membersOf_cons] at hafter ⊢
    have hfirst := (membersOf_run_related prefix_relation rest _).trans hafter
    rw [namedMembers, typeOf_run_named hnodup s head.name known hfirst,
      membersOf_run_named hnodup rest _ hafter]

theorem furtherOf_run_named {final : List Enumeration}
    (hnodup : (final.map Enumeration.name).Nodup) : ∀ (further : Option Schema)
    (known : List Enumeration), ((furtherOf further).run known).2 <+: final →
      ((furtherOf further).run known).1 = namedFurther (nameAmong final) further
  | none, _, _ => rfl
  | some s, known, hafter => by
    rw [furtherOf_some] at hafter ⊢
    rw [namedFurther, typeOf_run_named hnodup s "additional" known hafter]

end

end TableMapper.JsonSchema
