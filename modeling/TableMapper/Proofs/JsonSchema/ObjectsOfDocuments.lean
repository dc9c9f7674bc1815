/-
TableMapper.Proofs.JsonSchema.ObjectsOfDocuments — the object schemas of
a document and the object types of its declaration.

`ObjectIn` follows the keywords of a document to the schemas that are
read as objects, at any depth. One step of the reading says which object
schemas there are in terms of those of the parts (`readBy_objects`), and
by induction the schema of a document has exactly those that are in it.
Typing keeps them one by one and in order (`typeOf_objects`). So a
declaration has an object type for each object schema of its document
and no others, and each lists its members (`declare_lists_members`).
-/
import TableMapper.Proofs.JsonSchema.ObjectMembers
import TableMapper.Proofs.JsonSchema.PartsRead
import TableMapper.Proofs.JsonSchema.Meaning

namespace TableMapper.JsonSchema

open TypeScript (TypeExpr Declarations Enumeration)
open TypeScript.TypeExpr (braced memberList)

/-! ## 1. Object schemas and object types -/

mutual

/-- The object schemas in a schema, itself among them. -/
def Schema.objects : Schema → List Schema
  | .primitive _ | .never | .verbatim _ | .choice _ | .enumeration _ | .constant _ => []
  | .union branches => Schema.objectsOf branches
  | .intersection branches => Schema.objectsOf branches
  | .array element => Schema.objects element
  | .tuple elements => Schema.objectsOf elements
  | .object properties further => .object properties further ::
    (Schema.propertyObjects properties ++ Schema.furtherObjects further)

/-- The object schemas in several schemas. -/
def Schema.objectsOf : List Schema → List Schema
  | [] => []
  | s :: rest => Schema.objects s ++ Schema.objectsOf rest

/-- The object schemas in the properties of an object. -/
def Schema.propertyObjects : List (PropertyHead × Schema) → List Schema
  | [] => []
  | (_, s) :: rest => Schema.objects s ++ Schema.propertyObjects rest

/-- The object schemas in the schema of further members. -/
def Schema.furtherObjects : Option Schema → List Schema
  | none => []
  | some s => Schema.objects s

end

/-- Whether an expression is an object type. -/
def isObjectType : TypeExpr → Bool
  | .object _ _ => true
  | _ => false

/-- The expression is what the schema is typed as somewhere. -/
def TypedAs (s : Schema) (e : TypeExpr) : Prop :=
  ∃ hint known, e = ((typeOf hint s).run known).1

/-- Object schemas and the object types that they are typed as, one by
one. -/
abbrev ObjectsTyped (schemas : List Schema) (parts : List TypeExpr) : Prop :=
  List.Forall₂ TypedAs schemas (parts.filter isObjectType)

theorem ObjectsTyped.append {schemas others : List Schema} {parts more : List TypeExpr}
    (h : ObjectsTyped schemas parts) (h' : ObjectsTyped others more) :
    ObjectsTyped (schemas ++ others) (parts ++ more) := by
  rw [ObjectsTyped, List.filter_append]
  exact List.rel_append h h'

/-- Literals have no object types. -/
theorem filter_partsOf_literals (values : List Json) :
    (TypeExpr.partsOf (values.map .literal)).filter isObjectType = [] := by
  induction values with
  | nil => rfl
  | cons value rest ih => exact ih

mutual

/-- The object types of an expression are those of the object schemas in
its schema, in the same order. -/
theorem typeOf_objects : ∀ (s : Schema) (hint : String) (known : List Enumeration),
    ObjectsTyped s.objects ((typeOf hint s).run known).1.parts
  | .primitive _, _, _ => .nil
  | .never, _, _ => .nil
  | .verbatim _, _, _ => .nil
  | .constant _, _, _ => .nil
  | .enumeration members, hint, known => by
    rw [typeOf_enumeration, declareEnumeration_run]
    exact .nil
  | .choice values, _, _ => by
    rw [typeOf_choice, TypeExpr.parts, ObjectsTyped, List.filter_cons_of_neg Bool.false_ne_true,
      filter_partsOf_literals]
    exact .nil
  | .union branches, hint, known => typesOf_objects branches hint known
  | .intersection branches, hint, known => by
    rw [typeOf_intersection, TypeExpr.parts, partsOf_map_operand]
    exact typesOf_objects branches hint known
  | .array element, hint, known => by
    rw [typeOf_array, TypeExpr.parts, parts_operand]
    exact typeOf_objects element hint known
  | .tuple elements, hint, known => typesOf_objects elements hint known
  | .object properties further, hint, known =>
    .cons ⟨hint, known, rfl⟩
      ((membersOf_objects properties known).append (furtherOf_objects further _))

theorem typesOf_objects : ∀ (schemas : List Schema) (hint : String) (known : List Enumeration),
    ObjectsTyped (Schema.objectsOf schemas) (TypeExpr.partsOf ((typesOf hint schemas).run known).1)
  | [], _, _ => .nil
  | s :: rest, hint, known =>
    ObjectsTyped.append (typeOf_objects s hint known) (typesOf_objects rest hint _)

theorem membersOf_objects : ∀ (properties : List (PropertyHead × Schema))
    (known : List Enumeration), ObjectsTyped (Schema.propertyObjects properties)
      (TypeExpr.partsOfMembers ((membersOf properties).run known).1)
  | [], _ => .nil
  | (head, s) :: rest, known =>
    ObjectsTyped.append (typeOf_objects s head.name known) (membersOf_objects rest _)

theorem furtherOf_objects : ∀ (further : Option Schema) (known : List Enumeration),
    ObjectsTyped (Schema.furtherObjects further)
      (TypeExpr.partsOfFurther ((furtherOf further).run known).1)
  | none, _ => .nil
  | some s, known => typeOf_objects s "additional" known

end

/-! ## 2. Object schemas of a document -/

/-- A document in fields that are read as a kind of type. -/
inductive PartOf (fields : Fields Json) : TypeName → Json → Prop where
  | element {items : Json} : Fields.get? "items" fields = some items → PartOf fields .array items
  | item {items : List Json} {sub : Json} : Fields.get? "items" fields = some (.array items) →
      sub ∈ items → PartOf fields .array sub
  | property {properties : Fields Json} {name : String} {sub : Json} :
      Fields.get? "properties" fields = some (.object properties) → (name, sub) ∈ properties →
      PartOf fields .object sub
  | further {sub : Json} : Fields.get? "additionalProperties" fields = some sub →
      PartOf fields .object sub

/-- The fields are an object schema of the document: those that are read
as an object, in its branches, its elements, its properties and its
further members, as far as the keywords lead there. -/
inductive ObjectIn (inner : Fields Json) : Json → Prop where
  | self {keyword : Keyword} {value : Json} : decision? inner = some (keyword, value) →
      ReadAs .object keyword value → ObjectIn inner (.object inner)
  | branch {fields : Fields Json} {keyword : Keyword} {branches : List Json} {sub : Json} :
      decision? fields = some (keyword, .array branches) →
      keyword ∈ [Keyword.anyOf, .oneOf, .allOf] → sub ∈ branches → ObjectIn inner sub →
      ObjectIn inner (.object fields)
  | part {fields : Fields Json} {keyword : Keyword} {value : Json} {kind : TypeName} {sub : Json} :
      decision? fields = some (keyword, value) → ReadAs kind keyword value →
      PartOf fields kind sub → ObjectIn inner sub → ObjectIn inner (.object fields)

/-- The fields are an object schema of a whole document: an object
document is one, whatever other keywords it has. -/
def ObjectInRoot (inner fields : Fields Json) : Prop :=
  if isObjectDocument fields then
    inner = fields ∨ ∃ sub, PartOf fields .object sub ∧ ObjectIn inner sub
  else ObjectIn inner (.object fields)

/-- The fields are read as the object schema. -/
def ReadsObject (fields : Fields Json) (o : Schema) : Prop := ∃ place, ofObject place fields = .ok o

/-- There are fields in the document that are read as the object
schema. -/
def HasObject (document : Json) (o : Schema) : Prop :=
  ∃ inner, ObjectIn inner document ∧ ReadsObject inner o

/-- Fields that are read as a kind of type are read as the object
schema, or have it in a part. -/
def HasObjectAs (kind : TypeName) (fields : Fields Json) (o : Schema) : Prop :=
  kind = .object ∧ ReadsObject fields o ∨ ∃ sub, PartOf fields kind sub ∧ HasObject sub o

/-- Only arrays and objects have parts. -/
theorem PartOf.kind_eq {fields : Fields Json} {kind : TypeName} {sub : Json}
    (h : PartOf fields kind sub) : kind = .array ∨ kind = .object := by
  cases h with
  | element _ => exact .inl rfl
  | item _ _ => exact .inl rfl
  | property _ _ => exact .inr rfl
  | further _ => exact .inr rfl

/-- Only arrays and objects have object schemas. -/
theorem HasObjectAs.kind_eq {kind : TypeName} {fields : Fields Json} {o : Schema}
    (h : HasObjectAs kind fields o) : kind = .array ∨ kind = .object := by
  rcases h with ⟨hkind, -⟩ | ⟨sub, hpart, -⟩
  · exact .inr hkind
  · exact hpart.kind_eq

/-- Other documents than objects have no object schemas. -/
theorem not_hasObject {document : Json} (hdocument : ∀ fields, document ≠ .object fields)
    (o : Schema) : ¬HasObject document o := by
  rintro ⟨inner, hinner, -⟩
  cases hinner <;> exact hdocument _ rfl

/-- What admits everything has no object schemas. -/
theorem not_hasObject_of_none {fields : Fields Json} (hdecision : decision? fields = none)
    (o : Schema) : ¬HasObject (.object fields) o := by
  rintro ⟨inner, hinner, -⟩
  cases hinner with
  | self hself _ => cases hdecision.symm.trans hself
  | branch hbranch _ _ _ => cases hdecision.symm.trans hbranch
  | part hpart _ _ _ => cases hdecision.symm.trans hpart

/-- The keyword that decides leads to the object schemas. -/
theorem hasObject_iff {fields : Fields Json} {keyword : Keyword} {value : Json}
    (hdecision : decision? fields = some (keyword, value)) (o : Schema) :
    HasObject (.object fields) o ↔
      (keyword ∈ [Keyword.anyOf, .oneOf, .allOf] ∧
        ∃ branches, value = .array branches ∧ ∃ sub ∈ branches, HasObject sub o) ∨
      ∃ kind, ReadAs kind keyword value ∧ HasObjectAs kind fields o := by
  constructor
  · rintro ⟨inner, hinner, hread⟩
    cases hinner with
    | self hself has =>
      cases hdecision.symm.trans hself
      exact .inr ⟨.object, has, .inl ⟨rfl, hread⟩⟩
    | branch hbranch hkeyword hmem hsub =>
      cases hdecision.symm.trans hbranch
      exact .inl ⟨hkeyword, _, rfl, _, hmem, inner, hsub, hread⟩
    | part hpart has hof hsub =>
      cases hdecision.symm.trans hpart
      exact .inr ⟨_, has, .inr ⟨_, hof, inner, hsub, hread⟩⟩
  · rintro (⟨hkeyword, branches, rfl, sub, hmem, inner, hsub, hread⟩ |
      ⟨kind, has, ⟨rfl, hread⟩ | ⟨sub, hof, inner, hsub, hread⟩⟩)
    · exact ⟨inner, .branch hdecision hkeyword hmem hsub, hread⟩
    · exact ⟨fields, .self hdecision has, hread⟩
    · exact ⟨inner, .part hdecision has hof hsub, hread⟩

/-- Fields are read as one object schema at most. -/
theorem readsObject_iff {place : Pointer} {fields : Fields Json} {s : Schema}
    (h : ofObject place fields = .ok s) (o : Schema) : ReadsObject fields o ↔ o = s := by
  constructor
  · rintro ⟨other, ho⟩
    have hhere := ofObject_anywhere (fun sub _ => readAnywhere sub) place ho
    exact Except.ok.inj (hhere.symm.trans h)
  · rintro rfl
    exact ⟨place, h⟩

/-! ## 3. Object schemas of parts -/

theorem mem_objectsOf_iff {o : Schema} {schemas : List Schema} :
    o ∈ Schema.objectsOf schemas ↔ ∃ s ∈ schemas, o ∈ s.objects := by
  induction schemas with
  | nil => simp [Schema.objectsOf]
  | cons s rest ih => simp [Schema.objectsOf, ih]

theorem mem_propertyObjects_iff {o : Schema} {properties : List (PropertyHead × Schema)} :
    o ∈ Schema.propertyObjects properties ↔ ∃ p ∈ properties, o ∈ p.2.objects := by
  induction properties with
  | nil => simp [Schema.propertyObjects]
  | cons p rest ih => simp [Schema.propertyObjects, ih]

/-- Whatever schema is read from the document has its object schemas. -/
def ObjectsRead (document : Json) : Prop :=
  ∀ place s, ofJson place document = .ok s → ∀ o, o ∈ s.objects ↔ HasObject document o

section Parts

variable {fields : Fields Json} (hchildren : ∀ sub, Child fields sub → ObjectsRead sub)

include hchildren

/-- The branches under a keyword have the object schemas of their
documents. -/
theorem mem_objectsOf_branches {keyword : String} {branches : List Json} {schemas : List Schema}
    {place : Pointer} {index : Nat} (hkeyword : keyword ∈ ["anyOf", "oneOf", "allOf", "items"])
    (hget : Fields.get? keyword fields = some (.array branches))
    (h : ofBranches place index branches = .ok schemas) (o : Schema) :
    o ∈ Schema.objectsOf schemas ↔ ∃ sub ∈ branches, HasObject sub o := by
  rw [mem_objectsOf_iff]
  exact exists_branch_iff (fun sub hsub place s hs => hchildren sub hsub place s hs o)
    hkeyword hget h

/-- The schema of an array has the object schemas of its items. -/
theorem ofArray_objects {place : Pointer} {s : Schema} (h : ofArray place fields = .ok s)
    (o : Schema) : o ∈ s.objects ↔ HasObjectAs .array fields o := by
  obtain ⟨hget, rfl⟩ | ⟨items, schemas, hget, hschemas, rfl⟩ |
    ⟨document, element, hget, hlist, helement, rfl⟩ := ofArray_eq_ok h
  · refine iff_of_false List.not_mem_nil ?_
    rintro (⟨hkind, -⟩ | ⟨sub, hget' | ⟨hget', -⟩, -⟩)
    · cases hkind
    · cases hget.symm.trans hget'
    · cases hget.symm.trans hget'
  · rw [Schema.objects, mem_objectsOf_branches hchildren (by decide) hget hschemas]
    constructor
    · rintro ⟨sub, hmem, ho⟩
      exact .inr ⟨sub, .item hget hmem, ho⟩
    · rintro (⟨hkind, -⟩ | ⟨sub, hget' | ⟨hget', hmem⟩, ho⟩)
      · cases hkind
      · cases hget.symm.trans hget'
        exact absurd ho (not_hasObject (by simp) o)
      · cases hget.symm.trans hget'
        exact ⟨sub, hmem, ho⟩
  · rw [Schema.objects, hchildren _ (.under (by decide) hget) _ element helement o]
    constructor
    · exact fun ho => .inr ⟨document, .element hget, ho⟩
    · rintro (⟨hkind, -⟩ | ⟨sub, hget' | ⟨hget', hmem⟩, ho⟩)
      · cases hkind
      · cases hget.symm.trans hget'
        exact ho
      · cases hget.symm.trans hget'
        exact absurd rfl (hlist _)

/-- The schemas of properties have the object schemas of their
documents. -/
theorem mem_propertyObjects {place : Pointer} {required : List String}
    {read : List (PropertyHead × Schema)} (h : readProperties place required fields = .ok read)
    (o : Schema) :
    o ∈ Schema.propertyObjects read ↔ ∃ properties,
      Fields.get? "properties" fields = some (.object properties) ∧
        ∃ property ∈ properties, HasObject property.2 o := by
  rw [mem_propertyObjects_iff]
  exact exists_property_iff (fun _ sub hsub place s hs => hchildren sub hsub place s hs o) h

/-- The schema of further members has the object schemas of its
document. -/
theorem mem_furtherObjects {place : Pointer} {further : Option Schema}
    (h : readFurther place fields = .ok further) (o : Schema) :
    o ∈ Schema.furtherObjects further ↔
      ∃ sub, Fields.get? "additionalProperties" fields = some sub ∧ HasObject sub o := by
  obtain ⟨hget, rfl⟩ | ⟨hget, rfl⟩ | ⟨document, s, hget, -, hs, rfl⟩ := readFurther_eq_ok h
  · simp [Schema.furtherObjects, Schema.objects, hget]
  · have hnone : ¬HasObject (.bool false) o := not_hasObject (by simp) o
    simp [Schema.furtherObjects, hget, hnone]
  · rw [Schema.furtherObjects, hchildren _ (.under (by decide) hget) _ s hs o, hget]
    simp

/-- The schema of an object is an object schema, and has those of its
properties and of its further members. -/
theorem ofObject_objects {place : Pointer} {s : Schema} (h : ofObject place fields = .ok s)
    (o : Schema) : o ∈ s.objects ↔ HasObjectAs .object fields o := by
  rw [HasObjectAs, readsObject_iff h]
  obtain ⟨required, read, further, -, hread, hfurther, rfl⟩ := ofObject_eq_ok_iff.mp h
  rw [Schema.objects, List.mem_cons, List.mem_append, mem_propertyObjects hchildren hread,
    mem_furtherObjects hchildren hfurther]
  constructor
  · rintro (rfl | ⟨properties, hget, ⟨name, sub⟩, hmem, ho⟩ | ⟨sub, hget, ho⟩)
    · exact .inl ⟨rfl, rfl⟩
    · exact .inr ⟨sub, .property hget hmem, ho⟩
    · exact .inr ⟨sub, .further hget, ho⟩
  · rintro (⟨-, rfl⟩ | ⟨sub, _ | _ | ⟨hget, hmem⟩ | hget, ho⟩)
    · exact .inl rfl
    · exact .inr (.inl ⟨_, hget, _, hmem, ho⟩)
    · exact .inr (.inr ⟨sub, hget, ho⟩)

/-- The schema of a kind of type has the object schemas of the fields
that are read as it. -/
theorem ofKind_objects {place : Pointer} {kind : TypeName} {s : Schema}
    (h : ofKind (ofArray place fields) (ofObject place fields) kind = .ok s) (o : Schema) :
    o ∈ s.objects ↔ HasObjectAs kind fields o := by
  cases kind with
  | array => exact ofArray_objects hchildren h o
  | object => exact ofObject_objects hchildren h o
  | _ =>
    cases h
    refine iff_of_false List.not_mem_nil ?_
    rintro (⟨hkind, -⟩ | ⟨sub, hpart, -⟩)
    · cases hkind
    · cases hpart

end Parts

/-! ## 4. Object schemas by keyword -/

theorem objects_unionOf (schemas : List Schema) :
    (unionOf schemas).objects = Schema.objectsOf schemas := by
  cases schemas <;> rfl

theorem objects_intersectionOf (schemas : List Schema) :
    (intersectionOf schemas).objects = Schema.objectsOf schemas := by
  cases schemas <;> rfl

theorem objects_choiceOf (values : List Json) : (choiceOf values).objects = [] := by
  cases values <;> rfl

section Keywords

variable {fields : Fields Json}

/-- What decides by itself has no object schemas. -/
theorem not_hasObject_of_decision {keyword : Keyword} {value : Json}
    (hdecision : decision? fields = some (keyword, value))
    (hkeyword : keyword ∈ [Keyword.tsType, .enum, .const]) (o : Schema) :
    ¬HasObject (.object fields) o := by
  rw [hasObject_iff hdecision]
  rintro (⟨hbranch, -⟩ | ⟨kind, has, -⟩)
  · revert hkeyword hbranch
    cases keyword <;> decide
  · revert hkeyword has
    cases keyword <;> simp [ReadAs]

/-- What fields are read as by one keyword has the object schemas of
that kind. -/
theorem part_objects {keyword : Keyword} {value : Json} {kind : TypeName} {s : Schema}
    (hdecision : decision? fields = some (keyword, value))
    (hkeyword : keyword ∉ [Keyword.anyOf, .oneOf, .allOf])
    (hread : ∀ other, ReadAs other keyword value ↔ other = kind) {o : Schema}
    (h : o ∈ s.objects ↔ HasObjectAs kind fields o) :
    o ∈ s.objects ↔ HasObject (.object fields) o := by
  rw [h, hasObject_iff hdecision]
  constructor
  · exact fun ho => .inr ⟨kind, (hread kind).mpr rfl, ho⟩
  · rintro (⟨hbranch, -⟩ | ⟨other, has, ho⟩)
    · exact absurd hbranch hkeyword
    · rwa [(hread other).mp has] at ho

variable (hchildren : ∀ sub, Child fields sub → ObjectsRead sub)

include hchildren

/-- The object schemas of a union or an intersection are those of its
branches. -/
theorem branches_objects {keyword : Keyword} {branches : List Json} {place : Pointer}
    {schemas : List Schema} (hkeyword : keyword ∈ [Keyword.anyOf, .oneOf, .allOf])
    (hdecision : decision? fields = some (keyword, .array branches))
    (h : ofBranches place 0 branches = .ok schemas) (o : Schema) :
    o ∈ Schema.objectsOf schemas ↔ HasObject (.object fields) o := by
  have htext : keyword.text ∈ ["anyOf", "oneOf", "allOf", "items"] := by
    revert hkeyword
    cases keyword <;> decide
  rw [mem_objectsOf_branches hchildren htext (get?_of_decision? hdecision) h,
    hasObject_iff hdecision]
  constructor
  · exact fun hbranches => .inl ⟨hkeyword, branches, rfl, hbranches⟩
  · rintro (⟨-, others, heq, hbranches⟩ | ⟨kind, has, -⟩)
    · cases heq
      exact hbranches
    · revert hkeyword has
      cases keyword <;> simp [ReadAs]

/-- The object schemas of alternatives are those of the kinds that are
listed. -/
theorem types_objects {type : Json} {place inner : Pointer} {names : List String}
    {schemas : List Schema} (hdecision : decision? fields = some (.type, type))
    (hnames : typeNames place type = .ok names)
    (h : alternatives place (ofArray inner fields) (ofObject inner fields) [] names =
      .ok schemas) (o : Schema) :
    o ∈ Schema.objectsOf schemas ↔ HasObject (.object fields) o := by
  have hlists := listsNames_of_typeNames hnames
  rw [mem_objectsOf_iff, exists_alternative_iff
    (fun kind s hs => ofKind_objects hchildren hs o) (fun kind => HasObjectAs.kind_eq) h,
    hasObject_iff hdecision]
  constructor
  · rintro ⟨kind, hmem, ho⟩
    exact .inr ⟨kind, ⟨names, hlists, hmem⟩, ho⟩
  · rintro (⟨hbranch, -⟩ | ⟨kind, ⟨others, hothers, hmem⟩, ho⟩)
    · exact absurd hbranch (by decide)
    · rw [hothers.unique hlists] at hmem
      exact ⟨kind, hmem, ho⟩

/-- What a keyword decides has the object schemas of the document. -/
theorem readBy_objects {keyword : Keyword} {value : Json} {place : Pointer} {s : Schema}
    (hdecision : decision? fields = some (keyword, value))
    (h : readBy place fields keyword value = .ok s) (o : Schema) :
    o ∈ s.objects ↔ HasObject (.object fields) o := by
  unfold readBy at h
  split at h
  · cases h
    exact iff_of_false List.not_mem_nil (not_hasObject_of_decision hdecision (by decide) o)
  · cases h
  · refine iff_of_false ?_ (not_hasObject_of_decision hdecision (by decide) o)
    split at h
    · obtain ⟨members, -, rfl⟩ := map_eq_ok_iff.mp h
      exact List.not_mem_nil
    · cases h
      rw [objects_choiceOf]
      exact List.not_mem_nil
  · cases h
  · cases h
    exact iff_of_false List.not_mem_nil (not_hasObject_of_decision hdecision (by decide) o)
  · obtain ⟨schemas, hschemas, rfl⟩ := map_eq_ok_iff.mp h
    rw [objects_unionOf]
    exact branches_objects hchildren (by decide) hdecision hschemas o
  · cases h
  · obtain ⟨schemas, hschemas, rfl⟩ := map_eq_ok_iff.mp h
    rw [objects_unionOf]
    exact branches_objects hchildren (by decide) hdecision hschemas o
  · cases h
  · obtain ⟨schemas, hschemas, rfl⟩ := map_eq_ok_iff.mp h
    rw [objects_intersectionOf]
    exact branches_objects hchildren (by decide) hdecision hschemas o
  · cases h
  · obtain ⟨names, hnames, h⟩ := bind_eq_ok_iff.mp h
    obtain ⟨schemas, hschemas, h⟩ := bind_eq_ok_iff.mp h
    cases h
    rw [objects_unionOf]
    exact types_objects hchildren hdecision hnames hschemas o
  · exact part_objects hdecision (by decide) (fun _ => Iff.rfl) (ofObject_objects hchildren h o)
  · exact part_objects hdecision (by decide) (fun _ => Iff.rfl) (ofArray_objects hchildren h o)

theorem ofKeywords_objects {place : Pointer} {s : Schema} (h : ofKeywords place fields = .ok s)
    (o : Schema) : o ∈ s.objects ↔ HasObject (.object fields) o := by
  rw [ofKeywords_eq] at h
  split at h
  · next hdecision =>
    cases h
    exact iff_of_false List.not_mem_nil (not_hasObject_of_none hdecision o)
  · next hdecision => exact readBy_objects hchildren hdecision h o

end Keywords

/-! ## 5. Object types of declarations -/

/-- The schema of a document has its object schemas. -/
theorem ofJson_objects (document : Json) : ObjectsRead document := by
  intro place s h o
  rcases ofJson_eq_ok h with ⟨hdocument, hs⟩ | ⟨hdocument, hs⟩ | ⟨fields, hdocument, h⟩
  · rw [hdocument, hs]
    exact iff_of_false List.not_mem_nil (not_hasObject (by simp) o)
  · rw [hdocument, hs]
    exact iff_of_false List.not_mem_nil (not_hasObject (by simp) o)
  · rw [hdocument]
    exact ofKeywords_objects (fun sub hsub => ofJson_objects sub) h o
termination_by sizeOf document
decreasing_by
  rw [hdocument]
  exact hsub.sizeOf_lt

/-- The schema of a whole document has its object schemas. -/
theorem ofRoot_objects {fields : Fields Json} {s : Schema} (h : ofRoot fields = .ok s)
    (o : Schema) : o ∈ s.objects ↔ ∃ inner, ObjectInRoot inner fields ∧ ReadsObject inner o := by
  have hchildren : ∀ sub, Child fields sub → ObjectsRead sub := fun sub _ => ofJson_objects sub
  unfold ofRoot at h
  split at h
  · next hobject =>
    simp only [ObjectInRoot, if_pos hobject]
    rw [ofObject_objects hchildren h]
    constructor
    · rintro (⟨-, hread⟩ | ⟨sub, hpart, inner, hinner, hread⟩)
      · exact ⟨fields, .inl rfl, hread⟩
      · exact ⟨inner, .inr ⟨sub, hpart, hinner⟩, hread⟩
    · rintro ⟨inner, rfl | ⟨sub, hpart, hinner⟩, hread⟩
      · exact .inl ⟨rfl, hread⟩
      · exact .inr ⟨sub, hpart, inner, hinner, hread⟩
  · next hobject =>
    simp only [ObjectInRoot, if_neg hobject]
    exact ofKeywords_objects hchildren h o

/-- Parts that have object schemas are read with what they are parts
of. -/
theorem PartOf.isRead {fields inner : Fields Json} {kind : TypeName} {sub : Json} {place : Pointer}
    {s : Schema} (hpart : PartOf fields kind sub) (hinner : ObjectIn inner sub)
    (h : ofKind (ofArray place fields) (ofObject place fields) kind = .ok s) : IsRead sub := by
  cases hpart with
  | element hget =>
    have hread := isRead_of_ofArray h hget
    split at hread
    · cases hinner
    · exact hread
  | item hget hmem => exact isRead_of_ofArray h hget _ hmem
  | property hget hmem => exact isRead_of_property h hget _ hmem
  | further hget => exact isRead_of_further h hget

/-- The object schemas of a document are read if it is. -/
theorem ObjectIn.exists_readsObject {inner : Fields Json} {document : Json}
    (hinner : ObjectIn inner document) (h : IsRead document) : ∃ o, ReadsObject inner o := by
  induction hinner with
  | self hdecision has =>
    obtain ⟨place, s, hs⟩ := h
    rw [ofJson_object, ofKeywords_eq, hdecision] at hs
    obtain ⟨o, ho⟩ := exists_ofKind hs has (.inr rfl)
    exact ⟨o, place, ho⟩
  | branch hdecision hkeyword hmem _ ih =>
    obtain ⟨place, s, hs⟩ := h
    rw [ofJson_object, ofKeywords_eq, hdecision] at hs
    exact ih (isRead_of_branch hs hkeyword _ hmem)
  | part hdecision has hpart hsub ih =>
    obtain ⟨place, s, hs⟩ := h
    rw [ofJson_object, ofKeywords_eq, hdecision] at hs
    obtain ⟨read, hread⟩ := exists_ofKind hs has hpart.kind_eq
    exact ih (hpart.isRead hsub hread)

/-- The object schemas of a whole document are read if it is. -/
theorem ObjectInRoot.exists_readsObject {inner fields : Fields Json}
    (hinner : ObjectInRoot inner fields) {s : Schema} (h : ofRoot fields = .ok s) :
    ∃ o, ReadsObject inner o := by
  unfold ofRoot at h
  unfold ObjectInRoot at hinner
  split at h
  · next hobject =>
    rw [if_pos hobject] at hinner
    obtain rfl | ⟨sub, hpart, hsub⟩ := hinner
    · exact ⟨s, [], h⟩
    · exact hsub.exists_readsObject (PartOf.isRead hpart hsub h)
  · next hobject =>
    rw [if_neg hobject] at hinner
    exact hinner.exists_readsObject (isRead_of_ofKeywords h)

/-- The expression is the type of an object schema: it lists the members
of the fields, and is the same for all lists of required names that
require the same properties. -/
structure IsObjectTypeOf (fields : Fields Json) (e : TypeExpr) : Prop where
  lists : ListsObject fields e
  requiring : ∀ names, RequiresSame fields names → ∃ o, TypedAs o e ∧ ReadsObject fields o ∧
    ReadsObject (Fields.insert "required" (Json.strings names) fields) o

/-- An object schema is typed as a type of it. -/
theorem isObjectTypeOf_of_typedAs {fields : Fields Json} {o : Schema} {e : TypeExpr}
    (h : ReadsObject fields o) (htyped : TypedAs o e) : IsObjectTypeOf fields e := by
  obtain ⟨place, ho⟩ := h
  refine ⟨?_, fun names hnames => ⟨o, htyped, ⟨place, ho⟩, place, ofObject_requiring ho hnames⟩⟩
  obtain ⟨hint, known, rfl⟩ := htyped
  exact ofObject_lists ho hint known

/-- An object document is declared as the same interface for all lists
of required names that require the same properties. -/
theorem declare_requiring {fields : Fields Json} {name : String} {d : Declarations}
    (h : declare (.object fields) name = .ok d) (hobject : isObjectDocument fields = true)
    {names : List String} (hnames : RequiresSame fields names) :
    declare (.object (Fields.insert "required" (Json.strings names) fields)) name = .ok d := by
  have hget : ∀ keyword, keyword ≠ "required" →
      Fields.get? keyword (Fields.insert "required" (Json.strings names) fields) =
        Fields.get? keyword fields :=
    fun keyword hkeyword => (Fields.get?_insert _ _ _ _).trans (if_neg hkeyword)
  have hsame : isObjectDocument (Fields.insert "required" (Json.strings names) fields) =
      isObjectDocument fields := by
    simp only [isObjectDocument, Fields.contains, hget "type" (by decide),
      hget "properties" (by decide)]
  obtain ⟨hname, _, s, hfields, hroot, rfl⟩ := declare_eq_ok_iff.mp h
  cases hfields
  refine declare_eq_ok_iff.mpr ⟨hname, _, s, rfl, ?_, ?_⟩
  · rw [ofRoot, if_pos hobject] at hroot
    rw [ofRoot, if_pos (hsame.trans hobject)]
    exact ofObject_requiring hroot hnames
  · simp only [descriptionOf, bodyOf, hsame, hget "description" (by decide)]

/-- What a document is declared as has an object type for each object
schema of the document and no others, and each lists exactly the members
of its fields. An object document is declared as the interface of its
own members. -/
theorem declare_lists_members {fields : Fields Json} {name : String} {d : Declarations}
    (h : declare (.object fields) name = .ok d) :
    (isObjectDocument fields = true → ∃ members further, d.body = .interface members further ∧
      d.body.text name =
        "export interface " ++ name ++ " " ++ braced 0 (memberList 1 members further) ++ "\n" ∧
      IsObjectTypeOf fields (.object members further) ∧
      ∀ names, RequiresSame fields names →
        declare (.object (Fields.insert "required" (Json.strings names) fields)) name = .ok d) ∧
    (∀ inner, ObjectInRoot inner fields → ∃ e ∈ d.body.type.parts, IsObjectTypeOf inner e) ∧
    ∀ members further, TypeExpr.object members further ∈ d.body.type.parts →
      ∃ inner, ObjectInRoot inner fields ∧ IsObjectTypeOf inner (.object members further) := by
  obtain ⟨-, _, s, hfields, hroot, hd⟩ := declare_eq_ok_iff.mp h
  cases hfields
  have htype : d.body.type = ((typeOf name s).run []).1 := by rw [hd, bodyOf_type]
  have hparts : ObjectsTyped s.objects d.body.type.parts := by
    rw [htype]
    exact typeOf_objects s name []
  refine ⟨fun hobject => ?_, fun inner hinner => ?_, fun members further hmem => ?_⟩
  · have hread := hroot
    rw [ofRoot, if_pos hobject] at hread
    obtain ⟨required, properties, further, -, -, -, rfl⟩ := ofObject_eq_ok_iff.mp hread
    have htyped : TypedAs (.object properties further) d.body.type := ⟨name, [], htype⟩
    have hbody : d.body = .interface ((membersOf properties).run []).1
        ((furtherOf further).run ((membersOf properties).run []).2).1 := by
      rw [hd]
      exact if_pos hobject
    have hlists := isObjectTypeOf_of_typedAs ⟨[], hread⟩ htyped
    rw [hbody] at hlists
    refine ⟨_, _, hbody, ?_, hlists, fun names => declare_requiring h hobject⟩
    rw [hbody, ← TypeExpr.text_object]
    rfl
  · obtain ⟨o, ho⟩ := hinner.exists_readsObject hroot
    have hmem := (ofRoot_objects hroot o).mpr ⟨inner, hinner, ho⟩
    obtain ⟨e, he, htyped⟩ := exists_right_of_mem hparts o hmem
    exact ⟨e, (List.mem_filter.mp he).1, isObjectTypeOf_of_typedAs ho htyped⟩
  · have hfiltered : .object members further ∈ d.body.type.parts.filter isObjectType :=
      List.mem_filter.mpr ⟨hmem, rfl⟩
    obtain ⟨o, ho, htyped⟩ := exists_left_of_mem hparts _ hfiltered
    obtain ⟨inner, hinner, hread⟩ := (ofRoot_objects hroot o).mp ho
    exact ⟨inner, hinner, isObjectTypeOf_of_typedAs hread htyped⟩

/-- A closed record in a place of its own. -/
def lineRecord : Fields Json :=
  [("properties", .object [("count", .object [("type", .string "integer")])]),
    ("required", Json.strings ["count"]), ("additionalProperties", .bool false)]

/-- An open record, with a name required twice and another that is no
property. -/
def orderRecord : Fields Json :=
  [("type", .string "object"), ("required", Json.strings ["id", "total", "id"]),
    ("properties", .object [
      ("id", .object [("type", .string "string"), ("description", .string "The key.")]),
      ("first line", .object lineRecord)])]

/-- Both records are listed, one in the other, and the names that are
required too much do not count. -/
theorem orderRecord_lists_members : ∃ d, declare (.object orderRecord) "Order" = .ok d ∧
    d.body = .interface [(⟨"id", some "The key.", true⟩, .union [.name "string"]),
      (⟨"first line", none, false⟩,
        .object [(⟨"count", none, true⟩, .union [.name "number"])] none)] (some (.name "any")) ∧
    declare (.object (Fields.insert "required" (Json.strings ["id"]) orderRecord)) "Order" =
      .ok d ∧
    ∃ e ∈ d.body.type.parts, IsObjectTypeOf lineRecord e := by
  have hread : ofRoot orderRecord = .ok (.object
      [(⟨"id", some "The key.", true⟩, .union [.primitive .string]),
        (⟨"first line", none, false⟩,
          .object [(⟨"count", none, true⟩, .union [.primitive .number])] none)]
      (some (.primitive .any))) := by
    simp [ofRoot, isObjectDocument, orderRecord, lineRecord, ofKeywords, ofObject, ofProperties,
      ofJson, Fields.get?, Fields.contains, typeNames, alternatives, TypeName.ofText?,
      TypeName.all, TypeName.text, TypeName.alternative, unionOf, primitiveOf?, requiredNames,
      strings?, Json.strings, descriptionOf, bind, Except.bind, pure,
      Except.pure]
  have hdeclare := declare_eq_ok_iff.mpr
    ⟨show TypeScript.isIdentifier "Order" = true by decide, orderRecord, _, rfl, hread, rfl⟩
  have hsame : RequiresSame orderRecord ["id"] := by
    intro properties hproperties property hmem
    have hrequired : requiredNames [] orderRecord = .ok ["id", "total", "id"] :=
      requiredNames_of_get? rfl
    rw [← mem_requiredNames_iff hrequired]
    rcases hproperties with ⟨hnone, -⟩ | hsome
    · cases hnone
    · cases hsome
      rcases List.mem_cons.mp hmem with rfl | hmem
      · decide
      · rw [List.mem_singleton.mp hmem]
        decide
  have hline : ObjectInRoot lineRecord orderRecord := by
    rw [ObjectInRoot, if_pos (by decide)]
    refine .inr ⟨_, .property rfl (List.mem_cons_of_mem _ List.mem_cons_self), ?_⟩
    exact .self rfl rfl
  obtain ⟨hroot, hparts, -⟩ := declare_lists_members hdeclare
  obtain ⟨members, further, -, -, -, hrequiring⟩ := hroot (by decide)
  exact ⟨_, hdeclare, rfl, hrequiring ["id"] hsame, hparts lineRecord hline⟩

end TableMapper.JsonSchema
