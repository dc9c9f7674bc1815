/-
TableMapper.Proofs.JsonSchema.ReadingSteps — the reading of a schema,
one level at a time.

The readers of arrays, objects and keywords remember what they look at,
for their termination. The equations here say the same without that
memory: an object in terms of three readers of its own, and a schema by
the one keyword that decides.
-/
import Mathlib.Data.List.Forall2
import TableMapper.Dictionary
import TableMapper.JsonSchema.Typing
import TableMapper.Proofs.Except

namespace TableMapper.JsonSchema

/-! ## 1. Documents and lists -/

/-- Whatever stands in a list corresponds to something in the other. -/
theorem exists_right_of_mem {α β : Type} {R : α → β → Prop} {xs : List α} {ys : List β}
    (h : List.Forall₂ R xs ys) : ∀ x ∈ xs, ∃ y ∈ ys, R x y := by
  induction h with
  | nil => simp
  | cons hfirst _ ih =>
    rw [List.forall_mem_cons]
    refine ⟨⟨_, List.mem_cons_self, hfirst⟩, fun x hx => ?_⟩
    obtain ⟨y, hy, hrest⟩ := ih x hx
    exact ⟨y, List.mem_cons_of_mem _ hy, hrest⟩

theorem exists_left_of_mem {α β : Type} {R : α → β → Prop} {xs : List α} {ys : List β}
    (h : List.Forall₂ R xs ys) : ∀ y ∈ ys, ∃ x ∈ xs, R x y :=
  exists_right_of_mem h.flip

/-- A correspondence may be weakened by what is known of the items. -/
theorem forall₂_imp_of_mem {α β : Type} {R S : α → β → Prop} {xs : List α} {ys : List β}
    (h : List.Forall₂ R xs ys) (himp : ∀ x ∈ xs, ∀ y, R x y → S x y) : List.Forall₂ S xs ys := by
  induction h with
  | nil => exact .nil
  | cons hfirst _ ih =>
    rw [List.forall_mem_cons] at himp
    exact .cons (himp.1 _ hfirst) (ih himp.2)

theorem ofJson_object (place : Pointer) (fields : Fields Json) :
    ofJson place (.object fields) = ofKeywords place fields := by
  rw [ofJson]

/-- Booleans and objects are schemas, and nothing else is. -/
theorem ofJson_eq_ok {place : Pointer} {document : Json} {s : Schema}
    (h : ofJson place document = .ok s) :
    document = .bool true ∧ s = .primitive .any ∨ document = .bool false ∧ s = .never ∨
      ∃ fields, document = .object fields ∧ ofKeywords place fields = .ok s := by
  unfold ofJson at h
  split at h
  · exact .inl ⟨rfl, (Except.ok.inj h).symm⟩
  · exact .inr (.inl ⟨rfl, (Except.ok.inj h).symm⟩)
  · exact .inr (.inr ⟨_, rfl, h⟩)
  · cases h

theorem ofBranches_nil (place : Pointer) (index : Nat) : ofBranches place index [] = .ok [] := by
  rw [ofBranches]

theorem ofBranches_cons (place : Pointer) (index : Nat) (branch : Json) (rest : List Json) :
    ofBranches place index (branch :: rest) = do
      let first ← ofJson (place ++ [String.ofList (Decimal.digitsOf index)]) branch
      return first :: (← ofBranches place (index + 1) rest) := by
  rw [ofBranches]

theorem ofProperties_nil (place : Pointer) (required : List String) :
    ofProperties place required [] = .ok [] := by
  rw [ofProperties]

theorem ofProperties_cons (place : Pointer) (required : List String) (name : String)
    (property : Json) (rest : Fields Json) :
    ofProperties place required ((name, property) :: rest) = do
      let schema ← ofJson (place ++ [name]) property
      return (⟨name, descriptionOf property, required.contains name⟩, schema) ::
        (← ofProperties place required rest) := by
  rw [ofProperties]

/-- Branches are read one by one, each at a place of its own. -/
theorem forall₂_of_ofBranches {place : Pointer} {branches : List Json} {index : Nat}
    {schemas : List Schema} (h : ofBranches place index branches = .ok schemas) :
    List.Forall₂ (fun branch s => ∃ place, ofJson place branch = .ok s) branches schemas := by
  induction branches generalizing index schemas with
  | nil =>
    rw [ofBranches_nil] at h
    cases h
    exact .nil
  | cons branch rest ih =>
    rw [ofBranches_cons] at h
    obtain ⟨s, hs, h⟩ := bind_eq_ok_iff.mp h
    obtain ⟨others, ho, h⟩ := bind_eq_ok_iff.mp h
    cases h
    exact .cons ⟨_, hs⟩ (ih ho)

/-- A list of strings is read back from the document it becomes. -/
theorem strings?_map (names : List String) : strings? (names.map Json.string) = some names := by
  induction names with
  | nil => rfl
  | cons name rest ih =>
    rw [List.map_cons, strings?, ih]
    rfl

/-- Different lists of strings become different documents. -/
theorem map_string_injective {names others : List String}
    (h : names.map Json.string = others.map Json.string) : names = others := by
  have hread := strings?_map names
  rw [h, strings?_map] at hread
  exact (Option.some.inj hread).symm

/-- Strings are read from nothing else. -/
theorem eq_map_of_strings? : ∀ {items : List Json} {names : List String},
    strings? items = some names → items = names.map Json.string
  | [], names, h => by
    cases h
    rfl
  | .string s :: rest, names, h => by
    obtain ⟨others, hothers, rfl⟩ := Option.map_eq_some_iff.mp h
    rw [List.map_cons, eq_map_of_strings? hothers]
  | .null :: _, _, h => by cases h
  | .bool _ :: _, _, h => by cases h
  | .number _ :: _, _, h => by cases h
  | .array _ :: _, _, h => by cases h
  | .object _ :: _, _, h => by cases h

/-- The names under `required` are those that are required. -/
theorem requiredNames_of_get? {place : Pointer} {fields : Fields Json} {names : List String}
    (h : Fields.get? "required" fields = some (Json.strings names)) :
    requiredNames place fields = .ok names := by
  unfold requiredNames
  rw [h]
  simp only [Json.strings, strings?_map]

theorem requiredNames_insert (place : Pointer) (fields : Fields Json) (names : List String) :
    requiredNames place (Fields.insert "required" (Json.strings names) fields) = .ok names :=
  requiredNames_of_get? ((Fields.get?_insert _ _ _ _).trans (if_pos rfl))

/-! ## 2. Objects and arrays -/

/-- The properties of an object, by `properties`. -/
def readProperties (place : Pointer) (required : List String) (fields : Fields Json) :
    Except SchemaError (List (PropertyHead × Schema)) :=
  match Fields.get? "properties" fields with
  | none => .ok []
  | some (.object properties) => ofProperties (place ++ ["properties"]) required properties
  | some _ => .error ⟨place ++ ["properties"], .propertiesNotObject⟩

/-- The schema of the further members of an object, by
`additionalProperties`. -/
def readFurther (place : Pointer) (fields : Fields Json) : Except SchemaError (Option Schema) :=
  match Fields.get? "additionalProperties" fields with
  | none => .ok (some (.primitive .any))
  | some (.bool true) => .ok (some (.primitive .any))
  | some (.bool false) => .ok none
  | some (.object further) =>
    (ofKeywords (place ++ ["additionalProperties"]) further).map some
  | some _ => .error ⟨place ++ ["additionalProperties"], .furtherNotSchema⟩

theorem ofObject_eq (place : Pointer) (fields : Fields Json) :
    ofObject place fields = do
      let required ← requiredNames place fields
      let properties ← readProperties place required fields
      let further ← readFurther place fields
      return .object properties further := by
  rw [ofObject]
  unfold readProperties readFurther
  congr 1
  funext required
  -- the two look-ups are independent of each other
  split
  all_goals
    split
    all_goals
      simp_all only [bind, Except.bind]

/-- An object is read if its required names, its properties and its
further members are. -/
theorem ofObject_eq_ok_iff {place : Pointer} {fields : Fields Json} {s : Schema} :
    ofObject place fields = .ok s ↔ ∃ required properties further,
      requiredNames place fields = .ok required ∧
      readProperties place required fields = .ok properties ∧
      readFurther place fields = .ok further ∧ s = .object properties further := by
  rw [ofObject_eq]
  constructor
  · intro h
    obtain ⟨required, hr, h⟩ := bind_eq_ok_iff.mp h
    obtain ⟨properties, hp, h⟩ := bind_eq_ok_iff.mp h
    obtain ⟨further, hf, h⟩ := bind_eq_ok_iff.mp h
    exact ⟨required, properties, further, hr, hp, hf, (Except.ok.inj h).symm⟩
  · rintro ⟨required, properties, further, hr, hp, hf, rfl⟩
    refine bind_eq_ok_iff.mpr ⟨required, hr, ?_⟩
    exact bind_eq_ok_iff.mpr ⟨properties, hp, bind_eq_ok_iff.mpr ⟨further, hf, rfl⟩⟩

/-- Further members are anything if nothing is said of them, and there
are none if they are forbidden; else they have a schema. -/
theorem readFurther_eq_ok {place : Pointer} {fields : Fields Json} {further : Option Schema}
    (h : readFurther place fields = .ok further) :
    Fields.get? "additionalProperties" fields = none ∧ further = some (.primitive .any) ∨
      Fields.get? "additionalProperties" fields = some (.bool false) ∧ further = none ∨
      ∃ document s, Fields.get? "additionalProperties" fields = some document ∧
        document ≠ .bool false ∧
        ofJson (place ++ ["additionalProperties"]) document = .ok s ∧ further = some s := by
  unfold readFurther at h
  split at h
  · next hget => exact .inl ⟨hget, (Except.ok.inj h).symm⟩
  · next hget =>
    refine .inr (.inr ⟨_, _, hget, by simp, ?_, (Except.ok.inj h).symm⟩)
    rw [ofJson]
  · next hget => exact .inr (.inl ⟨hget, (Except.ok.inj h).symm⟩)
  · next inner hget =>
    obtain ⟨s, hs, rfl⟩ := map_eq_ok_iff.mp h
    rw [← ofJson_object] at hs
    exact .inr (.inr ⟨_, s, hget, by simp, hs, rfl⟩)
  · cases h

/-- What one property of a document becomes. -/
def IsProperty (place : Pointer) (required : List String) (field : String × Json)
    (property : PropertyHead × Schema) : Prop :=
  property.1 = ⟨field.1, descriptionOf field.2, required.contains field.1⟩ ∧
    ofJson (place ++ [field.1]) field.2 = .ok property.2

/-- Properties are read one by one, in order. -/
theorem ofProperties_eq_ok_iff {place : Pointer} {required : List String} {fields : Fields Json}
    {properties : List (PropertyHead × Schema)} :
    ofProperties place required fields = .ok properties ↔
      List.Forall₂ (IsProperty place required) fields properties := by
  induction fields generalizing properties with
  | nil => rw [ofProperties_nil, List.forall₂_nil_left_iff, Except.ok.injEq, eq_comm]
  | cons field rest ih =>
    rw [ofProperties_cons, List.forall₂_cons_left_iff]
    constructor
    · intro h
      obtain ⟨schema, hs, h⟩ := bind_eq_ok_iff.mp h
      obtain ⟨others, ho, h⟩ := bind_eq_ok_iff.mp h
      exact ⟨_, others, ⟨rfl, hs⟩, ih.mp ho, (Except.ok.inj h).symm⟩
    · rintro ⟨⟨head, schema⟩, others, ⟨hhead, hs⟩, ho, rfl⟩
      refine bind_eq_ok_iff.mpr ⟨schema, hs, bind_eq_ok_iff.mpr ⟨others, ih.mpr ho, ?_⟩⟩
      simp only at hhead
      rw [hhead]
      rfl

/-- What one field of a document becomes has its schema from the field
alone, whatever is required. -/
theorem IsProperty.schema_eq {place : Pointer} {required others : List String}
    {field : String × Json} {p q : PropertyHead × Schema} (hp : IsProperty place required field p)
    (hq : IsProperty place others field q) : p.1.name = q.1.name ∧ p.2 = q.2 := by
  constructor
  · rw [hp.1, hq.1]
  · exact Except.ok.inj (hp.2.symm.trans hq.2)

/-- Properties that were read from the same documents differ in nothing
but what is required. -/
theorem schemas_eq_of_isProperty {place : Pointer} {required others : List String} :
    ∀ {documents : Fields Json} {read again : List (PropertyHead × Schema)},
      List.Forall₂ (IsProperty place required) documents read →
      List.Forall₂ (IsProperty place others) documents again →
        List.Forall₂ (fun p q => p.1.name = q.1.name ∧ p.2 = q.2) read again
  | _, _, _, .nil, .nil => .nil
  | _, _, _, .cons h hrest, .cons h' hrest' =>
    .cons (h.schema_eq h') (schemas_eq_of_isProperty hrest hrest')

theorem ofArray_eq (place : Pointer) (fields : Fields Json) :
    ofArray place fields = match Fields.get? "items" fields with
      | none => .ok (.array (.primitive .any))
      | some (.array items) => (ofBranches (place ++ ["items"]) 0 items).map .tuple
      | some (.object element) => (ofKeywords (place ++ ["items"]) element).map .array
      | some (.bool element) => (ofJson (place ++ ["items"]) (.bool element)).map .array
      | some _ => .error ⟨place ++ ["items"], .itemsNotSchema⟩ := by
  rw [ofArray]
  split
  all_goals simp_all only

/-- An array is read by the items that there are, by the one document
for all of its elements, or as an array of anything. -/
theorem ofArray_eq_ok {place : Pointer} {fields : Fields Json} {s : Schema}
    (h : ofArray place fields = .ok s) :
    Fields.get? "items" fields = none ∧ s = .array (.primitive .any) ∨
      (∃ items schemas, Fields.get? "items" fields = some (.array items) ∧
        ofBranches (place ++ ["items"]) 0 items = .ok schemas ∧ s = .tuple schemas) ∨
      ∃ document element, Fields.get? "items" fields = some document ∧
        (∀ items, document ≠ .array items) ∧
        ofJson (place ++ ["items"]) document = .ok element ∧ s = .array element := by
  rw [ofArray_eq] at h
  split at h
  · next hget => exact .inl ⟨hget, (Except.ok.inj h).symm⟩
  · next items hget =>
    obtain ⟨schemas, hschemas, rfl⟩ := map_eq_ok_iff.mp h
    exact .inr (.inl ⟨items, schemas, hget, hschemas, rfl⟩)
  · next inner hget =>
    obtain ⟨element, helement, rfl⟩ := map_eq_ok_iff.mp h
    rw [← ofJson_object] at helement
    exact .inr (.inr ⟨_, element, hget, by simp, helement, rfl⟩)
  · next b hget =>
    obtain ⟨element, helement, rfl⟩ := map_eq_ok_iff.mp h
    exact .inr (.inr ⟨_, element, hget, by simp, helement, rfl⟩)
  · cases h

/-! ## 3. Keywords -/

/-- The keywords that decide the type of a schema. -/
inductive Keyword where
  | tsType
  | enum
  | const
  | anyOf
  | oneOf
  | allOf
  | type
  | properties
  | items
deriving DecidableEq, Repr

/-- The written form of a keyword. -/
def Keyword.text : Keyword → String
  | tsType => "tsType"
  | enum => "enum"
  | const => "const"
  | anyOf => "anyOf"
  | oneOf => "oneOf"
  | allOf => "allOf"
  | type => "type"
  | properties => "properties"
  | items => "items"

/-- The keywords in the order in which they are looked at. -/
def Keyword.all : List Keyword :=
  [tsType, enum, const, anyOf, oneOf, allOf, type, properties, items]

/-- The first keyword that is present, with its value. -/
def decision? (fields : Fields Json) : Option (Keyword × Json) :=
  Keyword.all.findSome? fun keyword => (Fields.get? keyword.text fields).map (keyword, ·)

/-- The schema that a keyword decides. -/
def readBy (place : Pointer) (fields : Fields Json) : Keyword → Json → Except SchemaError Schema
  | .tsType, .string source => .ok (.verbatim source)
  | .tsType, _ => .error ⟨place ++ ["tsType"], .verbatimNotString⟩
  | .enum, .array values => match Fields.get? "tsEnumNames" fields with
    | some names => (enumerationMembers (place ++ ["tsEnumNames"]) values names).map .enumeration
    | none => .ok (choiceOf values)
  | .enum, _ => .error ⟨place ++ ["enum"], .choiceNotArray⟩
  | .const, value => .ok (.constant value)
  | .anyOf, .array branches => (ofBranches (place ++ ["anyOf"]) 0 branches).map unionOf
  | .anyOf, _ => .error ⟨place ++ ["anyOf"], .branchesNotArray⟩
  | .oneOf, .array branches => (ofBranches (place ++ ["oneOf"]) 0 branches).map unionOf
  | .oneOf, _ => .error ⟨place ++ ["oneOf"], .branchesNotArray⟩
  | .allOf, .array branches => (ofBranches (place ++ ["allOf"]) 0 branches).map intersectionOf
  | .allOf, _ => .error ⟨place ++ ["allOf"], .branchesNotArray⟩
  | .type, type => do
    let names ← typeNames (place ++ ["type"]) type
    return unionOf (← alternatives (place ++ ["type"]) (ofArray place fields)
      (ofObject place fields) [] names)
  | .properties, _ => ofObject place fields
  | .items, _ => ofArray place fields

/-- Without a keyword that decides, everything is admitted. -/
theorem ofKeywords_eq (place : Pointer) (fields : Fields Json) :
    ofKeywords place fields = match decision? fields with
      | none => .ok (.primitive .any)
      | some (keyword, value) => readBy place fields keyword value := by
  rw [ofKeywords]
  simp only [decision?, Keyword.all, List.findSome?, Keyword.text]
  cases Fields.get? "tsType" fields with
  | some value => cases value <;> rfl
  | none =>
  cases Fields.get? "enum" fields with
  | some value => cases value <;> rfl
  | none =>
  cases Fields.get? "const" fields with
  | some value => rfl
  | none =>
  simp only [Option.map_none]
  split
  · next branches h => rw [h]; rfl
  · next value hvalue h => rw [h]; cases value with
    | array branches => exact absurd rfl (hvalue branches)
    | _ => rfl
  · next h =>
  rw [h]
  simp only [Option.map_none]
  split
  · next branches h => rw [h]; rfl
  · next value hvalue h => rw [h]; cases value with
    | array branches => exact absurd rfl (hvalue branches)
    | _ => rfl
  · next h =>
  rw [h]
  simp only [Option.map_none]
  split
  · next branches h => rw [h]; rfl
  · next value hvalue h => rw [h]; cases value with
    | array branches => exact absurd rfl (hvalue branches)
    | _ => rfl
  · next h =>
  rw [h]
  unfold Fields.contains
  cases Fields.get? "type" fields with
  | some type => rfl
  | none =>
  cases Fields.get? "properties" fields with
  | some properties => rfl
  | none =>
  cases Fields.get? "items" fields with
  | some items => rfl
  | none => rfl

/-! ## 4. Declarations -/

/-- A document is declared under a name if the name is an identifier
and the document is an object that is read. -/
theorem declare_eq_ok_iff {document : Json} {name : String} {d : TypeScript.Declarations} :
    declare document name = .ok d ↔ TypeScript.isIdentifier name = true ∧ ∃ fields s,
      document = .object fields ∧ ofRoot fields = .ok s ∧
      d = ⟨name, descriptionOf document, bodyOf fields ((typeOf name s).run []).1,
        ((typeOf name s).run []).2⟩ := by
  unfold declare
  by_cases hname : TypeScript.isIdentifier name = true
  · rw [if_neg (by simp [hname])]
    constructor
    · intro h
      split at h
      · next fields =>
        obtain ⟨s, hs, h⟩ := bind_eq_ok_iff.mp h
        exact ⟨hname, fields, s, rfl, hs, (Except.ok.inj h).symm⟩
      · exact absurd h (by simp)
    · rintro ⟨-, fields, s, rfl, hs, rfl⟩
      exact bind_eq_ok_iff.mpr ⟨s, hs, rfl⟩
  · rw [if_pos (by simpa using hname)]
    constructor
    · intro h
      exact absurd h (by simp)
    · rintro ⟨h, -⟩
      exact absurd h hname

/-- What is declared has the name it is declared under. -/
theorem name_of_declare {document : Json} {name : String} {d : TypeScript.Declarations}
    (h : declare document name = .ok d) : d.name = name := by
  obtain ⟨-, fields, s, -, -, rfl⟩ := declare_eq_ok_iff.mp h
  rfl

end TableMapper.JsonSchema
