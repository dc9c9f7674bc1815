/-
TableMapper.Proofs.JsonSchema.Enumerations — the enumerations that are
known after typing a schema.

Typing threads the list of known enumerations through a schema.
`typeOf_run_related` is the one induction over it: whatever relation
between the list before and the list after holds of a single
declaration, is reflexive and is transitive, holds of a whole run. That
the list only grows, and that its names stay distinct, are instances.
-/
import Mathlib.Data.List.Forall2
import Mathlib.Data.List.Perm.Subperm
import TableMapper.JsonSchema.Typing

namespace TableMapper.JsonSchema

open TypeScript (TypeExpr Enumeration)

/-! ## 1. One step at a time

What a run makes of each form of a schema, so that no proof has to
unfold the monad. -/

@[simp] theorem typeOf_primitive (hint : String) (type : Primitive) (known : List Enumeration) :
    (typeOf hint (.primitive type)).run known = (.name type.keyword, known) := rfl

@[simp] theorem typeOf_never (hint : String) (known : List Enumeration) :
    (typeOf hint .never).run known = (.name "never", known) := rfl

@[simp] theorem typeOf_verbatim (hint source : String) (known : List Enumeration) :
    (typeOf hint (.verbatim source)).run known = (.verbatim source, known) := rfl

@[simp] theorem typeOf_choice (hint : String) (values : List Json) (known : List Enumeration) :
    (typeOf hint (.choice values)).run known = (.union (values.map .literal), known) := rfl

theorem typeOf_enumeration (hint : String) (members : List (String × Json))
    (known : List Enumeration) :
    (typeOf hint (.enumeration members)).run known =
      (declareEnumeration (Text.pascalCase hint) members).run known := rfl

@[simp] theorem typeOf_constant (hint : String) (value : Json) (known : List Enumeration) :
    (typeOf hint (.constant value)).run known = (.literal value, known) := rfl

@[simp] theorem typeOf_union (hint : String) (branches : List Schema) (known : List Enumeration) :
    (typeOf hint (.union branches)).run known =
      (.union ((typesOf hint branches).run known).1, ((typesOf hint branches).run known).2) := rfl

@[simp] theorem typeOf_intersection (hint : String) (branches : List Schema)
    (known : List Enumeration) :
    (typeOf hint (.intersection branches)).run known =
      (.intersection (((typesOf hint branches).run known).1.map TypeExpr.operand),
        ((typesOf hint branches).run known).2) := rfl

@[simp] theorem typeOf_array (hint : String) (element : Schema) (known : List Enumeration) :
    (typeOf hint (.array element)).run known =
      (.array ((typeOf hint element).run known).1.operand,
        ((typeOf hint element).run known).2) := rfl

@[simp] theorem typeOf_tuple (hint : String) (elements : List Schema) (known : List Enumeration) :
    (typeOf hint (.tuple elements)).run known =
      (.tuple ((typesOf hint elements).run known).1, ((typesOf hint elements).run known).2) := rfl

@[simp] theorem typeOf_object (hint : String) (properties : List (PropertyHead × Schema))
    (further : Option Schema) (known : List Enumeration) :
    (typeOf hint (.object properties further)).run known =
      (.object ((membersOf properties).run known).1
          ((furtherOf further).run ((membersOf properties).run known).2).1,
        ((furtherOf further).run ((membersOf properties).run known).2).2) := rfl

@[simp] theorem typesOf_nil (hint : String) (known : List Enumeration) :
    (typesOf hint []).run known = ([], known) := rfl

@[simp] theorem typesOf_cons (hint : String) (s : Schema) (rest : List Schema)
    (known : List Enumeration) :
    (typesOf hint (s :: rest)).run known =
      (((typeOf hint s).run known).1 ::
          ((typesOf hint rest).run ((typeOf hint s).run known).2).1,
        ((typesOf hint rest).run ((typeOf hint s).run known).2).2) := rfl

@[simp] theorem membersOf_nil (known : List Enumeration) :
    (membersOf []).run known = ([], known) := rfl

@[simp] theorem membersOf_cons (head : PropertyHead) (s : Schema)
    (rest : List (PropertyHead × Schema)) (known : List Enumeration) :
    (membersOf ((head, s) :: rest)).run known =
      ((head, ((typeOf head.name s).run known).1) ::
          ((membersOf rest).run ((typeOf head.name s).run known).2).1,
        ((membersOf rest).run ((typeOf head.name s).run known).2).2) := rfl

@[simp] theorem furtherOf_none (known : List Enumeration) :
    (furtherOf none).run known = (none, known) := rfl

@[simp] theorem furtherOf_some (s : Schema) (known : List Enumeration) :
    (furtherOf (some s)).run known =
      (some ((typeOf "additional" s).run known).1, ((typeOf "additional" s).run known).2) := rfl

theorem declareEnumeration_run (base : String) (members : List (String × Json))
    (known : List Enumeration) :
    (declareEnumeration base members).run known =
      (.name (nameEnumeration known base members).name,
        if known.any (·.name == (nameEnumeration known base members).name) then known
        else known ++ [nameEnumeration known base members]) := by
  unfold declareEnumeration
  simp only [bind, StateT.bind, get, getThe, MonadStateOf.get, StateT.get, pure, StateT.run]
  split
  · rfl
  · rfl

/-! ## 2. Runs -/

/-- A relation between the lists before and after that every single
declaration keeps, and that is kept along a run. -/
structure RunRelation (R : List Enumeration → List Enumeration → Prop) : Prop where
  refl : ∀ known, R known known
  trans : ∀ {first second third}, R first second → R second third → R first third
  step : ∀ base members known, R known ((declareEnumeration base members).run known).2

section Related

variable {R : List Enumeration → List Enumeration → Prop} (h : RunRelation R)

include h

mutual

/-- What holds of the lists before and after every single declaration
holds of those before and after a run. -/
theorem typeOf_run_related : ∀ (s : Schema) (hint : String) (known : List Enumeration),
    R known ((typeOf hint s).run known).2
  | .primitive _, _, known => h.refl known
  | .never, _, known => h.refl known
  | .verbatim _, _, known => h.refl known
  | .choice _, _, known => h.refl known
  | .enumeration members, hint, known => h.step (Text.pascalCase hint) members known
  | .constant _, _, known => h.refl known
  | .union branches, hint, known => typesOf_run_related branches hint known
  | .intersection branches, hint, known => typesOf_run_related branches hint known
  | .array element, hint, known => typeOf_run_related element hint known
  | .tuple elements, hint, known => typesOf_run_related elements hint known
  | .object properties further, _, known =>
    h.trans (membersOf_run_related properties known)
      (furtherOf_run_related further ((membersOf properties).run known).2)

theorem typesOf_run_related : ∀ (schemas : List Schema) (hint : String)
    (known : List Enumeration), R known ((typesOf hint schemas).run known).2
  | [], _, known => h.refl known
  | s :: rest, hint, known =>
    h.trans (typeOf_run_related s hint known)
      (typesOf_run_related rest hint ((typeOf hint s).run known).2)

theorem membersOf_run_related : ∀ (properties : List (PropertyHead × Schema))
    (known : List Enumeration), R known ((membersOf properties).run known).2
  | [], known => h.refl known
  | (head, s) :: rest, known =>
    h.trans (typeOf_run_related s head.name known)
      (membersOf_run_related rest ((typeOf head.name s).run known).2)

theorem furtherOf_run_related : ∀ (further : Option Schema) (known : List Enumeration),
    R known ((furtherOf further).run known).2
  | none, known => h.refl known
  | some s, known => typeOf_run_related s "additional" known

end

end Related

/-! ## 3. What every run keeps -/

/-- Enumerations that are known stay known. -/
theorem prefix_relation : RunRelation (· <+: ·) where
  refl := List.prefix_refl
  trans := List.IsPrefix.trans
  step base members known := by
    rw [declareEnumeration_run]
    show known <+: if _ then known else known ++ [nameEnumeration known base members]
    split
    · exact List.prefix_refl known
    · exact List.prefix_append known _

/-- The names of enumerations stay distinct. -/
theorem names_nodup_relation :
    RunRelation fun before after =>
      (before.map Enumeration.name).Nodup → (after.map Enumeration.name).Nodup where
  refl _ h := h
  trans hab hbc h := hbc (hab h)
  step base members known h := by
    rw [declareEnumeration_run]
    show ((if _ then known else known ++ [nameEnumeration known base members]).map
      Enumeration.name).Nodup
    split
    · exact h
    · next hnew =>
      rw [List.map_append, List.nodup_append]
      refine ⟨h, by simp, ?_⟩
      intro name hname other hother
      obtain ⟨e, he, rfl⟩ := List.mem_map.mp hname
      rw [List.mem_singleton.mp hother]
      intro hsame
      exact hnew (List.any_eq_true.mpr ⟨e, he, beq_iff_eq.mpr hsame⟩)

/-! ## 4. Members -/

/-- The enumerations of members depend on the names and the schemas of
the properties alone. -/
theorem membersOf_run_congr :
    ∀ {properties others : List (PropertyHead × Schema)},
      List.Forall₂ (fun p q => p.1.name = q.1.name ∧ p.2 = q.2) properties others →
        ∀ known, ((membersOf properties).run known).2 = ((membersOf others).run known).2
  | _, _, .nil, _ => rfl
  | (head, s) :: _, (other, _) :: _, .cons ⟨hname, hschema⟩ hrest, known => by
    rw [membersOf_cons, membersOf_cons]
    simp only at hname hschema
    rw [← hname, ← hschema]
    exact membersOf_run_congr hrest _

/-- Members have the heads of their properties. -/
theorem membersOf_run_heads (properties : List (PropertyHead × Schema))
    (known : List Enumeration) :
    ((membersOf properties).run known).1.map Prod.fst = properties.map Prod.fst := by
  induction properties generalizing known with
  | nil => rfl
  | cons p rest ih => rw [membersOf_cons, List.map_cons, List.map_cons, ih]

/-! ## 5. Schemas that declare nothing -/

mutual

/-- Whether a named enumeration stands somewhere in a schema. -/
def Schema.declares : Schema → Bool
  | .primitive _ | .never | .verbatim _ | .choice _ | .constant _ => false
  | .enumeration _ => true
  | .union branches => Schema.anyDeclares branches
  | .intersection branches => Schema.anyDeclares branches
  | .array element => Schema.declares element
  | .tuple elements => Schema.anyDeclares elements
  | .object properties further =>
    Schema.propertyDeclares properties || Schema.furtherDeclares further

/-- Whether a named enumeration stands in one of several schemas. -/
def Schema.anyDeclares : List Schema → Bool
  | [] => false
  | s :: rest => Schema.declares s || Schema.anyDeclares rest

/-- Whether a named enumeration stands in a property. -/
def Schema.propertyDeclares : List (PropertyHead × Schema) → Bool
  | [] => false
  | (_, s) :: rest => Schema.declares s || Schema.propertyDeclares rest

/-- Whether a named enumeration stands in the schema of further
members. -/
def Schema.furtherDeclares : Option Schema → Bool
  | none => false
  | some s => Schema.declares s

end

theorem eq_nil_of_prefix {first second : List Enumeration} (h : first <+: second)
    (hsecond : second = []) : first = [] := by
  rw [hsecond] at h
  exact List.prefix_nil.mp h

/-- What only adds to a list leaves none behind it if there is none
before and it adds none. -/
theorem after_eq_nil_iff {after : List Enumeration → List Enumeration}
    (hadds : ∀ known, known <+: after known) (first : List Enumeration) :
    after first = [] ↔ first = [] ∧ after [] = [] := by
  constructor
  · intro h
    have hfirst := eq_nil_of_prefix (hadds first) h
    rw [hfirst] at h
    exact ⟨hfirst, h⟩
  · rintro ⟨rfl, h⟩
    exact h

theorem declareEnumeration_run_nil (base : String) (members : List (String × Json)) :
    ((declareEnumeration base members).run []).2 ≠ [] := by
  rw [declareEnumeration_run]
  simp

mutual

/-- A type has no enumerations if and only if its schema declares
none. -/
theorem typeOf_run_eq_nil_iff : ∀ (s : Schema) (hint : String),
    ((typeOf hint s).run []).2 = [] ↔ s.declares = false
  | .primitive _, _ => ⟨fun _ => rfl, fun _ => rfl⟩
  | .never, _ => ⟨fun _ => rfl, fun _ => rfl⟩
  | .verbatim _, _ => ⟨fun _ => rfl, fun _ => rfl⟩
  | .choice _, _ => ⟨fun _ => rfl, fun _ => rfl⟩
  | .constant _, _ => ⟨fun _ => rfl, fun _ => rfl⟩
  | .enumeration members, hint => by
    rw [typeOf_enumeration, Schema.declares]
    simpa using declareEnumeration_run_nil (Text.pascalCase hint) members
  | .union branches, hint => by
    rw [typeOf_union, Schema.declares]
    exact typesOf_run_eq_nil_iff branches hint
  | .intersection branches, hint => by
    rw [typeOf_intersection, Schema.declares]
    exact typesOf_run_eq_nil_iff branches hint
  | .array element, hint => by
    rw [typeOf_array, Schema.declares]
    exact typeOf_run_eq_nil_iff element hint
  | .tuple elements, hint => by
    rw [typeOf_tuple, Schema.declares]
    exact typesOf_run_eq_nil_iff elements hint
  | .object properties further, hint => by
    rw [typeOf_object, Schema.declares, Bool.or_eq_false_iff, ← membersOf_run_eq_nil_iff properties,
      ← furtherOf_run_eq_nil_iff further]
    exact after_eq_nil_iff (furtherOf_run_related prefix_relation further) _

theorem typesOf_run_eq_nil_iff : ∀ (schemas : List Schema) (hint : String),
    ((typesOf hint schemas).run []).2 = [] ↔ Schema.anyDeclares schemas = false
  | [], _ => ⟨fun _ => rfl, fun _ => rfl⟩
  | s :: rest, hint => by
    rw [typesOf_cons, Schema.anyDeclares, Bool.or_eq_false_iff, ← typeOf_run_eq_nil_iff s hint,
      ← typesOf_run_eq_nil_iff rest hint]
    exact after_eq_nil_iff (typesOf_run_related prefix_relation rest hint) _

theorem membersOf_run_eq_nil_iff : ∀ (properties : List (PropertyHead × Schema)),
    ((membersOf properties).run []).2 = [] ↔ Schema.propertyDeclares properties = false
  | [] => ⟨fun _ => rfl, fun _ => rfl⟩
  | (head, s) :: rest => by
    rw [membersOf_cons, Schema.propertyDeclares, Bool.or_eq_false_iff,
      ← typeOf_run_eq_nil_iff s head.name, ← membersOf_run_eq_nil_iff rest]
    exact after_eq_nil_iff (membersOf_run_related prefix_relation rest) _

theorem furtherOf_run_eq_nil_iff : ∀ (further : Option Schema),
    ((furtherOf further).run []).2 = [] ↔ Schema.furtherDeclares further = false
  | none => ⟨fun _ => rfl, fun _ => rfl⟩
  | some s => typeOf_run_eq_nil_iff s "additional"

end

/-- Several properties declare nothing if and only if each does not. -/
theorem propertyDeclares_eq_false_iff {properties : List (PropertyHead × Schema)} :
    Schema.propertyDeclares properties = false ↔ ∀ p ∈ properties, p.2.declares = false := by
  induction properties with
  | nil => exact ⟨fun _ _ h => absurd h List.not_mem_nil, fun _ => rfl⟩
  | cons p rest ih =>
    rw [Schema.propertyDeclares, Bool.or_eq_false_iff, List.forall_mem_cons, ih]

/-! ## 6. What a declared enumeration is called -/

theorem digitsOf_injective {m n : Nat} (h : Decimal.digitsOf m = Decimal.digitsOf n) : m = n := by
  have hm : Nat.ofDigitChars 10 (Decimal.digitsOf m) 0 = m := Nat.ofDigitChars_ten_toDigits
  have hn : Nat.ofDigitChars 10 (Decimal.digitsOf n) 0 = n := Nat.ofDigitChars_ten_toDigits
  rw [← hm, ← hn, h]

theorem candidateName_toList (base : String) (index : Nat) :
    (candidateName base index).toList =
      base.toList ++ if index = 0 then [] else Decimal.digitsOf (index + 1) := by
  unfold candidateName
  split
  · rw [List.append_nil]
  · rw [String.toList_append, String.toList_ofList]

theorem candidateName_injective {base : String} {first second : Nat}
    (h : candidateName base first = candidateName base second) : first = second := by
  have hlist := congrArg String.toList h
  rw [candidateName_toList, candidateName_toList] at hlist
  have hdigits := List.append_cancel_left hlist
  have hne : ∀ n, Decimal.digitsOf n ≠ [] := fun _ => Nat.toDigits_ne_nil
  split at hdigits
  · next hfirst =>
    split at hdigits
    · next hsecond => rw [hfirst, hsecond]
    · exact absurd hdigits.symm (hne _)
  · split at hdigits
    · exact absurd hdigits (hne _)
    · have := digitsOf_injective hdigits
      omega

theorem mem_names_of_not_nameFits {known : List Enumeration} {e : Enumeration}
    (h : ¬nameFits known e = true) : e.name ∈ known.map Enumeration.name := by
  unfold nameFits at h
  split at h
  · exact absurd rfl h
  · next other hother =>
    have hname := List.find?_some hother
    rw [← beq_iff_eq.mp hname]
    exact List.mem_map_of_mem (List.mem_of_find?_eq_some hother)

/-- Some candidate fits, since there are more of them than names. -/
theorem nameEnumeration_fits (known : List Enumeration) (base : String)
    (members : List (String × Json)) :
    nameFits known (nameEnumeration known base members) = true ∧
      (nameEnumeration known base members).members = members := by
  unfold nameEnumeration
  simp only
  cases hfind : ((List.range (known.length + 1)).map fun index =>
      Enumeration.mk (candidateName base index) members).find? (nameFits known) with
  | some e =>
    obtain ⟨index, -, rfl⟩ := List.mem_map.mp (List.mem_of_find?_eq_some hfind)
    exact ⟨List.find?_some hfind, rfl⟩
  | none =>
    have hnone := List.find?_eq_none.mp hfind
    have hnodup : ((List.range (known.length + 1)).map (candidateName base)).Nodup :=
      List.Pairwise.map _ (fun _ _ hne h => hne (candidateName_injective h)) List.nodup_range
    have hsubset : (List.range (known.length + 1)).map (candidateName base) ⊆
        known.map Enumeration.name := by
      intro name hname
      obtain ⟨index, hindex, rfl⟩ := List.mem_map.mp hname
      exact mem_names_of_not_nameFits (hnone _ (List.mem_map_of_mem hindex))
    have hlength := (List.subperm_of_subset hnodup hsubset).length_le
    rw [List.length_map, List.length_map, List.length_range] at hlength
    omega

/-- A declared enumeration is known afterwards, under the name that it
is referred to by and with the members that it was given. -/
theorem exists_declareEnumeration (base : String) (members : List (String × Json))
    (known : List Enumeration) :
    ∃ e ∈ ((declareEnumeration base members).run known).2,
      ((declareEnumeration base members).run known).1 = .name e.name ∧
        e.writtenMembers = Enumeration.writtenMembers ⟨e.name, members⟩ := by
  obtain ⟨hfits, hmembers⟩ := nameEnumeration_fits known base members
  rw [declareEnumeration_run]
  generalize nameEnumeration known base members = e at hfits hmembers ⊢
  show ∃ x ∈ (if known.any (·.name == e.name) then known else known ++ [e]),
    TypeExpr.name e.name = .name x.name ∧ _
  have hwritten : ∀ name, Enumeration.writtenMembers ⟨name, members⟩ = e.writtenMembers := by
    intro name
    rw [← hmembers]
    rfl
  split
  · next hany =>
    unfold nameFits at hfits
    split at hfits
    · next hnone =>
      obtain ⟨x, hx, hname⟩ := List.any_eq_true.mp hany
      exact absurd hname (List.find?_eq_none.mp hnone x hx)
    · next x hx =>
      have hname : (x.name == e.name) = true :=
        List.find?_some (p := fun x : Enumeration => x.name == e.name) hx
      refine ⟨x, List.mem_of_find?_eq_some hx, by rw [beq_iff_eq.mp hname], ?_⟩
      rw [hwritten]
      exact beq_iff_eq.mp hfits
  · exact ⟨e, List.mem_append_right _ (List.mem_singleton.mpr rfl), rfl, (hwritten _).symm⟩

end TableMapper.JsonSchema
