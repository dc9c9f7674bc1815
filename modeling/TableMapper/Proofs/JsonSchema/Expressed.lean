/-
TableMapper.Proofs.JsonSchema.Expressed — the type expression of a
document says what its keywords say.

`Expresses` relates a document to a type expression by the keyword that
decides: branches are branches, in order, and the schema of the items is
the element. It speaks of documents without `tsType`. That what is read
and then typed is always so related is an induction on the document; the
enumerations that are known along the way are among those that are known
in the end.
-/
import TableMapper.Proofs.JsonSchema.Enumerations
import TableMapper.Proofs.JsonSchema.ReadingSteps
import TableMapper.Proofs.TypeScript.Grouping

namespace TableMapper.JsonSchema

open TypeScript (TypeExpr Enumeration)

/-! ## 1. Schemas within schemas -/

/-- A document that stands in another where a schema is expected. -/
inductive Child (fields : Fields Json) : Json → Prop where
  | branch {keyword : String} {branches : List Json} {sub : Json} :
      keyword ∈ ["anyOf", "oneOf", "allOf", "items"] →
      Fields.get? keyword fields = some (.array branches) → sub ∈ branches → Child fields sub
  | under {keyword : String} {sub : Json} : keyword ∈ ["items", "additionalProperties"] →
      Fields.get? keyword fields = some sub → Child fields sub
  | property {properties : Fields Json} {name : String} {sub : Json} :
      Fields.get? "properties" fields = some (.object properties) →
      (name, sub) ∈ properties → Child fields sub

/-- A document is within itself, and within what its children are
within. -/
inductive Within (inner : Json) : Json → Prop where
  | self : Within inner inner
  | child {fields : Fields Json} {sub : Json} : Child fields sub → Within inner sub →
      Within inner (.object fields)

/-- No schema in a document gives its type by source text. -/
def NoSource (document : Json) : Prop :=
  ∀ fields, Within (.object fields) document → Fields.get? "tsType" fields = none

theorem NoSource.child {fields : Fields Json} {sub : Json} (h : NoSource (.object fields))
    (hchild : Child fields sub) : NoSource sub :=
  fun inner hinner => h inner (.child hchild hinner)

theorem Child.sizeOf_lt {fields : Fields Json} {sub : Json} (h : Child fields sub) :
    sizeOf sub < sizeOf (Json.object fields) := by
  have hobject : sizeOf (Json.object fields) = 1 + sizeOf fields := by simp
  cases h with
  | branch _ hget hmem =>
    have := Fields.sizeOf_items_lt hget
    have := List.sizeOf_lt_of_mem hmem
    omega
  | under _ hget =>
    have := Fields.sizeOf_lt_of_get? hget
    omega
  | property hget hmem =>
    have := Fields.sizeOf_fields_lt hget
    have := List.sizeOf_lt_of_mem hmem
    rw [Prod.mk.sizeOf_spec] at this
    omega

/-! ## 2. What documents say -/

/-- The names that `type` lists. -/
def ListsNames (type : Json) (names : List String) : Prop :=
  (∃ name, type = .string name ∧ names = [name]) ∨ names ≠ [] ∧ type = .array (names.map .string)

/-- The names that `required` lists. -/
def Requires (fields : Fields Json) (names : List String) : Prop :=
  Fields.get? "required" fields = none ∧ names = [] ∨
    Fields.get? "required" fields = some (.array (names.map .string))

/-- The documents under `properties`. -/
def HasProperties (fields properties : Fields Json) : Prop :=
  Fields.get? "properties" fields = none ∧ properties = [] ∨
    Fields.get? "properties" fields = some (.object properties)

mutual

/-- A document expresses a type, given the enumerations that are
declared. -/
inductive Expresses (enums : List Enumeration) : Json → TypeExpr → Prop where
  | always : Expresses enums (.bool true) (.name "any")
  | never : Expresses enums (.bool false) (.name "never")
  | anything {fields : Fields Json} : decision? fields = none →
      Expresses enums (.object fields) (.name "any")
  | values {fields : Fields Json} {values : List Json} :
      decision? fields = some (.enum, .array values) → values ≠ [] →
      Fields.get? "tsEnumNames" fields = none →
      Expresses enums (.object fields) (.union (values.map .literal))
  | noValues {fields : Fields Json} : decision? fields = some (.enum, .array []) →
      Fields.get? "tsEnumNames" fields = none → Expresses enums (.object fields) (.name "never")
  | named {fields : Fields Json} {values : List Json} {names : List String} {e : Enumeration} :
      decision? fields = some (.enum, .array values) →
      Fields.get? "tsEnumNames" fields = some (.array (names.map .string)) →
      names.length = values.length → e ∈ enums →
      e.writtenMembers = names.zip (values.map Json.compact) →
      Expresses enums (.object fields) (.name e.name)
  | constant {fields : Fields Json} {value : Json} : decision? fields = some (.const, value) →
      Expresses enums (.object fields) (.literal value)
  | union {fields : Fields Json} {keyword : Keyword} {branches : List Json}
      {types : List TypeExpr} : keyword = .anyOf ∨ keyword = .oneOf →
      decision? fields = some (keyword, .array branches) → branches ≠ [] →
      List.Forall₂ (Expresses enums) branches types →
      Expresses enums (.object fields) (.union types)
  | intersection {fields : Fields Json} {branches : List Json} {types : List TypeExpr} :
      decision? fields = some (.allOf, .array branches) → branches ≠ [] →
      List.Forall₂ (Expresses enums) branches types →
      Expresses enums (.object fields) (.intersection (types.map TypeExpr.operand))
  | noBranches {fields : Fields Json} {keyword : Keyword} :
      keyword = .anyOf ∨ keyword = .oneOf ∨ keyword = .allOf →
      decision? fields = some (keyword, .array []) →
      Expresses enums (.object fields) (.name "never")
  | types {fields : Fields Json} {type : Json} {names : List String} {kinds : List TypeName}
      {types : List TypeExpr} : decision? fields = some (.type, type) → ListsNames type names →
      names.map TypeName.ofText? = kinds.map some →
      List.Forall₂ (ExpressesAs enums)
        ((kinds.map TypeName.alternative).eraseDups.map fun kind => (kind, fields)) types →
      Expresses enums (.object fields) (.union types)
  | object {fields : Fields Json} {value : Json} {type : TypeExpr} :
      decision? fields = some (.properties, value) → ExpressesAs enums (.object, fields) type →
      Expresses enums (.object fields) type
  | array {fields : Fields Json} {value : Json} {type : TypeExpr} :
      decision? fields = some (.items, value) → ExpressesAs enums (.array, fields) type →
      Expresses enums (.object fields) type

/-- Fields express a type as one of the types that they may have. -/
inductive ExpressesAs (enums : List Enumeration) : TypeName × Fields Json → TypeExpr → Prop where
  | primitive {kind : TypeName} {primitive : Primitive} {fields : Fields Json} :
      primitiveOf? kind = some primitive →
      ExpressesAs enums (kind, fields) (.name primitive.keyword)
  | arrayOfAny {fields : Fields Json} : Fields.get? "items" fields = none →
      ExpressesAs enums (.array, fields) (.array (.name "any"))
  | array {fields : Fields Json} {items : Json} {element : TypeExpr} :
      Fields.get? "items" fields = some items → Expresses enums items element →
      ExpressesAs enums (.array, fields) (.array element.operand)
  | tuple {fields : Fields Json} {items : List Json} {elements : List TypeExpr} :
      Fields.get? "items" fields = some (.array items) →
      List.Forall₂ (Expresses enums) items elements →
      ExpressesAs enums (.array, fields) (.tuple elements)
  | object {fields properties : Fields Json} {required : List String}
      {members : List (PropertyHead × TypeExpr)} {further : Option TypeExpr} :
      Requires fields required → HasProperties fields properties →
      members.map Prod.fst = (properties.map fun p =>
        PropertyHead.mk p.1 (descriptionOf p.2) (required.contains p.1)) →
      List.Forall₂ (Expresses enums) (properties.map Prod.snd) (members.map Prod.snd) →
      ExpressesFurther enums fields further →
      ExpressesAs enums (.object, fields) (.object members further)

/-- Fields express the type of further members. -/
inductive ExpressesFurther (enums : List Enumeration) : Fields Json → Option TypeExpr → Prop where
  | anything {fields : Fields Json} : Fields.get? "additionalProperties" fields = none →
      ExpressesFurther enums fields (some (.name "any"))
  | closed {fields : Fields Json} :
      Fields.get? "additionalProperties" fields = some (.bool false) →
      ExpressesFurther enums fields none
  | typed {fields : Fields Json} {further : Json} {type : TypeExpr} :
      Fields.get? "additionalProperties" fields = some further → further ≠ .bool false →
      Expresses enums further type → ExpressesFurther enums fields (some type)

end

/-! ## 3. Typing several schemas -/

/-- Whatever is known before, a schema is typed as an expression with
the property, and without source text, if what is known afterwards is
among the given enumerations. -/
def Typed (enums : List Enumeration) (p : TypeExpr → Prop) (s : Schema) : Prop :=
  ∀ hint known, ((typeOf hint s).run known).2 <+: enums →
    p ((typeOf hint s).run known).1 ∧
      TypeExpr.All TypeExpr.NotVerbatim ((typeOf hint s).run known).1.parts

theorem typed_name {enums : List Enumeration} {p : TypeExpr → Prop} {s : Schema} {name : String}
    (hs : ∀ hint known, (typeOf hint s).run known = (.name name, known)) (h : p (.name name)) :
    Typed enums p s := by
  intro hint known _
  rw [hs]
  exact ⟨h, List.forall_mem_singleton.mpr trivial⟩

/-- Schemas that are typed one by one are typed one after the other. -/
theorem typesOf_typed {α : Type} {R : α → TypeExpr → Prop} {enums : List Enumeration}
    {hint : String} : ∀ {xs : List α} {schemas : List Schema},
      List.Forall₂ (fun x s => Typed enums (R x) s) xs schemas →
        ∀ known, ((typesOf hint schemas).run known).2 <+: enums →
          List.Forall₂ R xs ((typesOf hint schemas).run known).1 ∧
            TypeExpr.All TypeExpr.NotVerbatim
              (TypeExpr.partsOf ((typesOf hint schemas).run known).1)
  | _, _, .nil, _, _ => ⟨.nil, fun _ h => absurd h List.not_mem_nil⟩
  | _, _, @List.Forall₂.cons _ _ _ _ s _ rest h hrest, known, hknown => by
    rw [typesOf_cons] at hknown ⊢
    have hfirst := (typesOf_run_related prefix_relation rest hint _).trans hknown
    obtain ⟨hhead, hheadParts⟩ := h hint known hfirst
    obtain ⟨htail, htailParts⟩ := typesOf_typed hrest _ hknown
    exact ⟨.cons hhead htail, List.forall_mem_append.mpr ⟨hheadParts, htailParts⟩⟩

/-- Properties whose schemas are typed one by one are typed one after
the other. -/
theorem membersOf_typed {α : Type} {R : α → TypeExpr → Prop} {enums : List Enumeration} :
    ∀ {xs : List α} {properties : List (PropertyHead × Schema)},
      List.Forall₂ (fun x p => Typed enums (R x) p.2) xs properties →
        ∀ known, ((membersOf properties).run known).2 <+: enums →
          List.Forall₂ R xs (((membersOf properties).run known).1.map Prod.snd) ∧
            TypeExpr.All TypeExpr.NotVerbatim
              (TypeExpr.partsOfMembers ((membersOf properties).run known).1)
  | _, _, .nil, _, _ => ⟨.nil, fun _ h => absurd h List.not_mem_nil⟩
  | _, _, @List.Forall₂.cons _ _ _ _ (head, s) _ rest h hrest, known, hknown => by
    rw [membersOf_cons] at hknown ⊢
    have hfirst := (membersOf_run_related prefix_relation rest _).trans hknown
    obtain ⟨hhead, hheadParts⟩ := h head.name known hfirst
    obtain ⟨htail, htailParts⟩ := membersOf_typed hrest _ hknown
    exact ⟨.cons hhead htail, List.forall_mem_append.mpr ⟨hheadParts, htailParts⟩⟩

/-! ## 4. Schemas say what their documents say -/

@[simp] theorem parts_operand (e : TypeExpr) : e.operand.parts = e.parts := by
  unfold TypeExpr.operand
  split <;> rfl

@[simp] theorem partsOf_map_operand (es : List TypeExpr) :
    TypeExpr.partsOf (es.map TypeExpr.operand) = TypeExpr.partsOf es := by
  induction es with
  | nil => rfl
  | cons e es ih => rw [List.map_cons, TypeExpr.partsOf, TypeExpr.partsOf, parts_operand, ih]

/-- What holds of every literal holds of the parts of several. -/
theorem all_literals {p : TypeExpr → Prop} (h : ∀ value, p (.literal value))
    (values : List Json) : TypeExpr.All p (TypeExpr.partsOf (values.map .literal)) := by
  induction values with
  | nil => exact fun _ h => absurd h List.not_mem_nil
  | cons value rest ih => exact List.forall_mem_cons.mpr ⟨h value, ih⟩

/-- Whatever is read from a document is typed as what the document
says. -/
def IsTyped (enums : List Enumeration) (document : Json) : Prop :=
  ∀ place s, ofJson place document = .ok s → Typed enums (Expresses enums document) s

theorem requires_of_requiredNames {place : Pointer} {names : List String}
    (h : requiredNames place fields = .ok names) : Requires fields names := by
  unfold requiredNames at h
  split at h
  · next hget =>
    cases h
    exact .inl ⟨hget, rfl⟩
  · next items hget =>
    split at h
    · next names hnames =>
      cases h
      rw [eq_map_of_strings? hnames] at hget
      exact .inr hget
    · cases h
  · cases h

section Children

variable {enums : List Enumeration} {fields : Fields Json}
  (hchildren : ∀ sub, Child fields sub → IsTyped enums sub)

include hchildren

/-- The branches under a keyword are typed one by one. -/
theorem branches_typed {keyword : String} {branches : List Json} {schemas : List Schema}
    {place : Pointer} {index : Nat} (hkeyword : keyword ∈ ["anyOf", "oneOf", "allOf", "items"])
    (hget : Fields.get? keyword fields = some (.array branches))
    (h : ofBranches place index branches = .ok schemas) :
    List.Forall₂ (fun branch s => Typed enums (Expresses enums branch) s) branches schemas := by
  refine forall₂_imp_of_mem (forall₂_of_ofBranches h) fun sub hmem s ⟨place, hs⟩ => ?_
  exact hchildren sub (.branch hkeyword hget hmem) place s hs

theorem ofArray_typed {place : Pointer} {s : Schema} (h : ofArray place fields = .ok s) :
    Typed enums (ExpressesAs enums (.array, fields)) s := by
  obtain ⟨hget, rfl⟩ | ⟨items, schemas, hget, hschemas, rfl⟩ |
    ⟨document, element, hget, -, helement, rfl⟩ := ofArray_eq_ok h
  · have hany : TypeExpr.operand (.name "any") = .name "any" := if_neg (by decide)
    intro hint known _
    rw [typeOf_array, typeOf_primitive]
    simp only [Primitive.keyword, hany]
    exact ⟨.arrayOfAny hget, List.forall_mem_cons.mpr
      ⟨trivial, List.forall_mem_singleton.mpr trivial⟩⟩
  · intro hint known hknown
    rw [typeOf_tuple] at hknown ⊢
    obtain ⟨hall, hparts⟩ := typesOf_typed
      (branches_typed hchildren (by simp) hget hschemas) known hknown
    exact ⟨.tuple hget hall, List.forall_mem_cons.mpr ⟨trivial, hparts⟩⟩
  · intro hint known hknown
    rw [typeOf_array] at hknown ⊢
    obtain ⟨hexpr, hparts⟩ := hchildren _ (.under (by simp) hget) _ element helement hint known
      hknown
    refine ⟨.array hget hexpr, List.forall_mem_cons.mpr ⟨trivial, ?_⟩⟩
    rw [parts_operand]
    exact hparts

theorem readFurther_typed {place : Pointer} {further : Option Schema}
    (h : readFurther place fields = .ok further) (known : List Enumeration)
    (hknown : ((furtherOf further).run known).2 <+: enums) :
    ExpressesFurther enums fields ((furtherOf further).run known).1 ∧
      TypeExpr.All TypeExpr.NotVerbatim
        (TypeExpr.partsOfFurther ((furtherOf further).run known).1) := by
  obtain ⟨hget, rfl⟩ | ⟨hget, rfl⟩ | ⟨document, s, hget, hopen, hs, rfl⟩ := readFurther_eq_ok h
  · exact ⟨.anything hget, List.forall_mem_singleton.mpr trivial⟩
  · exact ⟨.closed hget, fun _ hx => absurd hx List.not_mem_nil⟩
  · rw [furtherOf_some] at hknown ⊢
    obtain ⟨hexpr, hparts⟩ := hchildren _ (.under (by simp) hget) _ s hs "additional" known hknown
    exact ⟨.typed hget hopen hexpr, hparts⟩

/-- The properties are those that the document has, and are typed one by
one. -/
theorem readProperties_typed {place : Pointer} {required : List String}
    {read : List (PropertyHead × Schema)} (h : readProperties place required fields = .ok read) :
    ∃ properties, HasProperties fields properties ∧
      read.map Prod.fst = (properties.map fun p =>
        PropertyHead.mk p.1 (descriptionOf p.2) (required.contains p.1)) ∧
      List.Forall₂ (fun document p => Typed enums (Expresses enums document) p.2)
        (properties.map Prod.snd) read := by
  unfold readProperties at h
  split at h
  · next hget =>
    cases h
    exact ⟨[], .inl ⟨hget, rfl⟩, rfl, .nil⟩
  · next properties hget =>
    have hread := ofProperties_eq_ok_iff.mp h
    refine ⟨properties, .inr hget, ?_, ?_⟩
    · have hheads : List.Forall₂ (fun (p : String × Json) (q : PropertyHead × Schema) =>
          q.1 = PropertyHead.mk p.1 (descriptionOf p.2) (required.contains p.1)) properties read :=
        hread.imp fun _ _ h => h.1
      rw [← List.forall₂_eq_eq_eq, List.forall₂_map_left_iff, List.forall₂_map_right_iff]
      exact hheads.flip
    · rw [List.forall₂_map_left_iff]
      exact forall₂_imp_of_mem hread fun property hmem _ hs =>
        hchildren _ (.property hget hmem) _ _ hs.2
  · cases h

theorem ofObject_typed {place : Pointer} {s : Schema} (h : ofObject place fields = .ok s) :
    Typed enums (ExpressesAs enums (.object, fields)) s := by
  obtain ⟨required, read, further, hrequired, hread, hfurther, rfl⟩ := ofObject_eq_ok_iff.mp h
  obtain ⟨properties, hproperties, hheads, htyped⟩ := readProperties_typed hchildren hread
  intro hint known hknown
  rw [typeOf_object] at hknown ⊢
  have hfirst := (furtherOf_run_related prefix_relation further _).trans hknown
  obtain ⟨hmembers, hmembersParts⟩ := membersOf_typed htyped known hfirst
  obtain ⟨hfurtherOf, hfurtherParts⟩ := readFurther_typed hchildren hfurther _ hknown
  refine ⟨.object (requires_of_requiredNames hrequired) hproperties ?_ hmembers hfurtherOf,
    List.forall_mem_cons.mpr ⟨trivial, List.forall_mem_append.mpr
      ⟨hmembersParts, hfurtherParts⟩⟩⟩
  rw [membersOf_run_heads, hheads]

end Children

/-! ## 5. Alternatives by name -/

/-- What a kind of type is read as. -/
def ofKind (array object : Except SchemaError Schema) (kind : TypeName) :
    Except SchemaError Schema :=
  match kind with
  | .array => array
  | .object => object
  | _ => match primitiveOf? kind with
    | some primitive => .ok (.primitive primitive)
    | none => .ok .never

theorem alternatives_nil (place : Pointer) (array object : Except SchemaError Schema)
    (seen : List TypeName) : alternatives place array object seen [] = .ok [] := by
  rw [alternatives]

theorem alternatives_cons (place : Pointer) (array object : Except SchemaError Schema)
    (seen : List TypeName) (name : String) (names : List String) :
    alternatives place array object seen (name :: names) =
      match TypeName.ofText? name with
      | none => .error ⟨place, .unknownType name⟩
      | some kind =>
        if seen.contains kind.alternative then alternatives place array object seen names
        else do
          let first ← ofKind array object kind.alternative
          return first :: (← alternatives place array object (kind.alternative :: seen) names) := by
  rw [alternatives]
  cases TypeName.ofText? name with
  | none => rfl
  | some kind => cases kind <;> rfl

/-- The alternatives are the kinds that are named, each at its first
place. -/
theorem exists_kinds_of_alternatives {place : Pointer} {array object : Except SchemaError Schema}
    {names : List String} {seen : List TypeName} {schemas : List Schema}
    (h : alternatives place array object seen names = .ok schemas) :
    ∃ kinds : List TypeName, names.map TypeName.ofText? = kinds.map some ∧
      List.Forall₂ (fun kind s => ofKind array object kind = .ok s)
        ((kinds.map TypeName.alternative).filter fun kind => !seen.contains kind).eraseDups
        schemas := by
  induction names generalizing seen schemas with
  | nil =>
    rw [alternatives_nil] at h
    cases h
    exact ⟨[], rfl, .nil⟩
  | cons name names ih =>
    rw [alternatives_cons] at h
    split at h
    · cases h
    · next kind hkind =>
      split at h
      · next hseen =>
        obtain ⟨kinds, hkinds, hall⟩ := ih h
        refine ⟨kind :: kinds, by rw [List.map_cons, List.map_cons, hkind, hkinds], ?_⟩
        rw [List.map_cons, List.filter_cons_of_neg (by simpa using hseen)]
        exact hall
      · next hseen =>
        obtain ⟨first, hfirst, h⟩ := bind_eq_ok_iff.mp h
        obtain ⟨others, hothers, h⟩ := bind_eq_ok_iff.mp h
        cases h
        obtain ⟨kinds, hkinds, hall⟩ := ih hothers
        refine ⟨kind :: kinds, by rw [List.map_cons, List.map_cons, hkind, hkinds], ?_⟩
        rw [List.map_cons, List.filter_cons_of_pos (by simpa using hseen), List.eraseDups_cons,
          List.filter_filter]
        have hfilter : (fun other => (!other == kind.alternative) && !seen.contains other) =
            fun other => !(kind.alternative :: seen).contains other := by
          funext other
          rw [List.contains_cons, Bool.not_or]
        rw [hfilter]
        exact .cons hfirst hall

/-- Where nothing has been seen yet, the alternatives are all kinds that
are named. -/
theorem exists_kinds {place : Pointer} {array object : Except SchemaError Schema}
    {names : List String} {schemas : List Schema}
    (h : alternatives place array object [] names = .ok schemas) :
    ∃ kinds : List TypeName, names.map TypeName.ofText? = kinds.map some ∧
      List.Forall₂ (fun kind s => ofKind array object kind = .ok s)
        (kinds.map TypeName.alternative).eraseDups schemas := by
  obtain ⟨kinds, hkinds, hall⟩ := exists_kinds_of_alternatives h
  have hfilter : (kinds.map TypeName.alternative).filter
      (fun kind => !([] : List TypeName).contains kind) = kinds.map TypeName.alternative :=
    List.filter_eq_self.mpr fun _ _ => rfl
  rw [hfilter] at hall
  exact ⟨kinds, hkinds, hall⟩

theorem listsNames_of_typeNames {place : Pointer} {type : Json} {names : List String}
    (h : typeNames place type = .ok names) : ListsNames type names := by
  unfold typeNames at h
  split at h
  · next name =>
    cases h
    exact .inl ⟨name, rfl, rfl⟩
  · cases h
  · next items hitems =>
    split at h
    · next names hnames =>
      cases h
      have heq := eq_map_of_strings? hnames
      refine .inr ⟨?_, by rw [heq]⟩
      rintro rfl
      exact hitems heq
    · cases h
  · cases h

theorem ListsNames.ne_nil {type : Json} {names : List String} (h : ListsNames type names) :
    names ≠ [] := by
  rcases h with ⟨name, -, rfl⟩ | ⟨hne, -⟩
  · exact List.cons_ne_nil _ _
  · exact hne

/-! ## 6. By keyword -/

theorem get?_of_decision? {fields : Fields Json} {keyword : Keyword} {value : Json}
    (h : decision? fields = some (keyword, value)) :
    Fields.get? keyword.text fields = some value := by
  obtain ⟨other, -, hother⟩ := List.exists_of_findSome?_eq_some h
  obtain ⟨found, hfound, heq⟩ := Option.map_eq_some_iff.mp hother
  cases heq
  exact hfound

theorem unionOf_of_ne_nil {schemas : List Schema} (h : schemas ≠ []) :
    unionOf schemas = .union schemas := by
  cases schemas with
  | nil => exact absurd rfl h
  | cons s rest => rfl

theorem intersectionOf_of_ne_nil {schemas : List Schema} (h : schemas ≠ []) :
    intersectionOf schemas = .intersection schemas := by
  cases schemas with
  | nil => exact absurd rfl h
  | cons s rest => rfl

theorem ne_nil_of_forall₂ {α β : Type} {R : α → β → Prop} {xs : List α} {ys : List β}
    (h : List.Forall₂ R xs ys) (hne : xs ≠ []) : ys ≠ [] := by
  cases h with
  | nil => exact absurd rfl hne
  | cons _ _ => exact List.cons_ne_nil _ _

/-- The members of an enumeration have the listed names and values. -/
theorem members_of_enumerationMembers {place : Pointer} {values : List Json} {names : Json}
    {members : List (String × Json)} (h : enumerationMembers place values names = .ok members) :
    ∃ identifiers : List String, names = .array (identifiers.map .string) ∧
      identifiers.length = values.length ∧ members = identifiers.zip values := by
  unfold enumerationMembers at h
  simp only at h
  split at h
  · cases h
  · next identifiers hidentifiers =>
    split at h
    · next hlength =>
      cases h
      split at hidentifiers
      · next items =>
        obtain ⟨hstrings, -⟩ := Option.filter_eq_some_iff.mp hidentifiers
        exact ⟨identifiers, by rw [eq_map_of_strings? hstrings], hlength, rfl⟩
      · cases hidentifiers
    · cases h

theorem writtenMembers_zip (name : String) (names : List String) (values : List Json) :
    Enumeration.writtenMembers ⟨name, names.zip values⟩ = names.zip (values.map Json.compact) := by
  rw [List.zip_map_right]
  rfl

section Keywords

variable {enums : List Enumeration} {fields : Fields Json}

/-- An enumeration is typed as a reference to one that is declared. -/
theorem enumeration_typed {values : List Json} {names : Json} {place : Pointer} {s : Schema}
    (hdecision : decision? fields = some (.enum, .array values))
    (hnames : Fields.get? "tsEnumNames" fields = some names)
    (h : (enumerationMembers place values names).map Schema.enumeration = .ok s) :
    Typed enums (Expresses enums (.object fields)) s := by
  obtain ⟨members, hmembers, rfl⟩ := map_eq_ok_iff.mp h
  obtain ⟨identifiers, rfl, hlength, rfl⟩ := members_of_enumerationMembers hmembers
  intro hint known hknown
  rw [typeOf_enumeration] at hknown ⊢
  obtain ⟨e, he, htype, hwritten⟩ :=
    exists_declareEnumeration (Text.pascalCase hint) (identifiers.zip values) known
  rw [writtenMembers_zip] at hwritten
  rw [htype]
  exact ⟨.named hdecision hnames hlength (hknown.subset he) hwritten,
    List.forall_mem_singleton.mpr trivial⟩

theorem choice_typed {values : List Json}
    (hdecision : decision? fields = some (.enum, .array values))
    (hnames : Fields.get? "tsEnumNames" fields = none) :
    Typed enums (Expresses enums (.object fields)) (choiceOf values) := by
  cases values with
  | nil => exact typed_name typeOf_never (.noValues hdecision hnames)
  | cons value rest =>
    intro hint known _
    rw [choiceOf, typeOf_choice]
    · exact ⟨.values hdecision (List.cons_ne_nil _ _) hnames,
        List.forall_mem_cons.mpr ⟨trivial, all_literals (fun _ => trivial) (value :: rest)⟩⟩
    · exact List.cons_ne_nil _ _

variable (hchildren : ∀ sub, Child fields sub → IsTyped enums sub)

include hchildren

theorem union_typed {keyword : Keyword} {branches : List Json} {place : Pointer} {s : Schema}
    (hkeyword : keyword = .anyOf ∨ keyword = .oneOf)
    (hdecision : decision? fields = some (keyword, .array branches))
    (h : (ofBranches place 0 branches).map unionOf = .ok s) :
    Typed enums (Expresses enums (.object fields)) s := by
  obtain ⟨schemas, hschemas, rfl⟩ := map_eq_ok_iff.mp h
  have hmem : keyword.text ∈ ["anyOf", "oneOf", "allOf", "items"] := by
    rcases hkeyword with rfl | rfl <;> decide
  have hall := branches_typed hchildren hmem (get?_of_decision? hdecision) hschemas
  by_cases hne : branches = []
  · subst hne
    cases hall
    have hkeywords := hkeyword.imp_right (Or.inl (b := keyword = .allOf))
    exact typed_name typeOf_never (.noBranches hkeywords hdecision)
  · rw [unionOf_of_ne_nil (ne_nil_of_forall₂ hall hne)]
    intro hint known hknown
    rw [typeOf_union] at hknown ⊢
    obtain ⟨hbranches, hparts⟩ := typesOf_typed hall known hknown
    exact ⟨.union hkeyword hdecision hne hbranches, List.forall_mem_cons.mpr ⟨trivial, hparts⟩⟩

theorem intersection_typed {branches : List Json} {place : Pointer} {s : Schema}
    (hdecision : decision? fields = some (.allOf, .array branches))
    (h : (ofBranches place 0 branches).map intersectionOf = .ok s) :
    Typed enums (Expresses enums (.object fields)) s := by
  obtain ⟨schemas, hschemas, rfl⟩ := map_eq_ok_iff.mp h
  have hmem : Keyword.allOf.text ∈ ["anyOf", "oneOf", "allOf", "items"] := by decide
  have hall := branches_typed hchildren hmem (get?_of_decision? hdecision) hschemas
  by_cases hne : branches = []
  · subst hne
    cases hall
    exact typed_name typeOf_never (.noBranches (.inr (.inr rfl)) hdecision)
  · rw [intersectionOf_of_ne_nil (ne_nil_of_forall₂ hall hne)]
    intro hint known hknown
    rw [typeOf_intersection] at hknown ⊢
    obtain ⟨hbranches, hparts⟩ := typesOf_typed hall known hknown
    refine ⟨.intersection hdecision hne hbranches, List.forall_mem_cons.mpr ⟨trivial, ?_⟩⟩
    rw [partsOf_map_operand]
    exact hparts

theorem kind_typed {place : Pointer} {kind : TypeName} {s : Schema}
    (h : ofKind (ofArray place fields) (ofObject place fields) kind = .ok s) :
    Typed enums (ExpressesAs enums (kind, fields)) s := by
  cases kind with
  | array => exact ofArray_typed hchildren h
  | object => exact ofObject_typed hchildren h
  | string => cases h; exact typed_name (typeOf_primitive · .string) (.primitive rfl)
  | number => cases h; exact typed_name (typeOf_primitive · .number) (.primitive rfl)
  | integer => cases h; exact typed_name (typeOf_primitive · .number) (.primitive rfl)
  | boolean => cases h; exact typed_name (typeOf_primitive · .boolean) (.primitive rfl)
  | null => cases h; exact typed_name (typeOf_primitive · .null) (.primitive rfl)
  | any => cases h; exact typed_name (typeOf_primitive · .any) (.primitive rfl)

theorem types_typed {type : Json} {place inner : Pointer} {names : List String}
    {schemas : List Schema} (hdecision : decision? fields = some (.type, type))
    (hnames : typeNames place type = .ok names)
    (h : alternatives place (ofArray inner fields) (ofObject inner fields) [] names =
      .ok schemas) :
    Typed enums (Expresses enums (.object fields)) (unionOf schemas) := by
  have hlists := listsNames_of_typeNames hnames
  obtain ⟨kinds, hkinds, hall⟩ := exists_kinds h
  have hne : (kinds.map TypeName.alternative).eraseDups ≠ [] := by
    cases kinds with
    | nil => exact absurd (List.map_eq_nil_iff.mp hkinds) hlists.ne_nil
    | cons kind kinds =>
      rw [List.map_cons, List.eraseDups_cons]
      exact List.cons_ne_nil _ _
  have htyped : List.Forall₂ (fun x s => Typed enums (ExpressesAs enums x) s)
      ((kinds.map TypeName.alternative).eraseDups.map fun kind => (kind, fields)) schemas :=
    List.forall₂_map_left_iff.mpr (hall.imp fun _ _ h => kind_typed hchildren h)
  rw [unionOf_of_ne_nil (ne_nil_of_forall₂ hall hne)]
  intro hint known hknown
  rw [typeOf_union] at hknown ⊢
  obtain ⟨htypes, hparts⟩ := typesOf_typed htyped known hknown
  exact ⟨.types hdecision hlists hkinds htypes, List.forall_mem_cons.mpr ⟨trivial, hparts⟩⟩

/-- What a keyword decides says what the document does. -/
theorem readBy_typed {keyword : Keyword} {value : Json} {place : Pointer} {s : Schema}
    (hsource : Fields.get? "tsType" fields = none)
    (hdecision : decision? fields = some (keyword, value))
    (h : readBy place fields keyword value = .ok s) :
    Typed enums (Expresses enums (.object fields)) s := by
  have hget := get?_of_decision? hdecision
  unfold readBy at h
  split at h
  · cases hsource.symm.trans hget
  · cases h
  · split at h
    · next names hnames => exact enumeration_typed hdecision hnames h
    · next hnames =>
      cases h
      exact choice_typed hdecision hnames
  · cases h
  · cases h
    intro hint known _
    exact ⟨.constant hdecision, List.forall_mem_singleton.mpr trivial⟩
  · exact union_typed hchildren (.inl rfl) hdecision h
  · cases h
  · exact union_typed hchildren (.inr rfl) hdecision h
  · cases h
  · exact intersection_typed hchildren hdecision h
  · cases h
  · obtain ⟨names, hnames, h⟩ := bind_eq_ok_iff.mp h
    obtain ⟨schemas, hschemas, h⟩ := bind_eq_ok_iff.mp h
    cases h
    exact types_typed hchildren hdecision hnames hschemas
  · intro hint known hknown
    obtain ⟨hexpr, hparts⟩ := ofObject_typed hchildren h hint known hknown
    exact ⟨.object hdecision hexpr, hparts⟩
  · intro hint known hknown
    obtain ⟨hexpr, hparts⟩ := ofArray_typed hchildren h hint known hknown
    exact ⟨.array hdecision hexpr, hparts⟩

theorem ofKeywords_typed {place : Pointer} {s : Schema}
    (hsource : Fields.get? "tsType" fields = none) (h : ofKeywords place fields = .ok s) :
    Typed enums (Expresses enums (.object fields)) s := by
  rw [ofKeywords_eq] at h
  split at h
  · next hdecision =>
    cases h
    exact typed_name (typeOf_primitive · .any) (.anything hdecision)
  · next hdecision => exact readBy_typed hchildren hsource hdecision h

end Keywords

/-- A document without source text is typed as what it says. -/
theorem isTyped_of_noSource {enums : List Enumeration} (document : Json)
    (hsource : NoSource document) : IsTyped enums document := by
  intro place s h
  rcases ofJson_eq_ok h with ⟨hdocument, hs⟩ | ⟨hdocument, hs⟩ | ⟨fields, hdocument, h⟩
  · rw [hdocument, hs]
    exact typed_name (typeOf_primitive · .any) .always
  · rw [hdocument, hs]
    exact typed_name typeOf_never .never
  · rw [hdocument] at hsource ⊢
    have hchildren : ∀ sub, Child fields sub → IsTyped enums sub :=
      fun sub hsub => isTyped_of_noSource sub (hsource.child hsub)
    exact ofKeywords_typed hchildren (hsource fields .self) h
termination_by sizeOf document
decreasing_by
  rw [hdocument]
  exact hsub.sizeOf_lt

end TableMapper.JsonSchema
