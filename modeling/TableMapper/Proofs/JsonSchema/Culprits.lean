/-
TableMapper.Proofs.JsonSchema.Culprits — the value that an error of a
schema is about.

`Breaks` says, keyword by keyword, which values are against the rules,
and `Culprit` which value of a whole document is at fault with what.
Every error that is reported has a culprit at its pointer, however deep
the schema is that holds it (`hasCulprit_of_ofJson`). Where the names of
each object are distinct, one who reads the text of the pointer and
follows it comes to that value, and what the reason says, read back from
its text, is what is wrong with the value (`declare_culprit`).
-/
import TableMapper.Proofs.JsonSchema.Expressed
import TableMapper.Proofs.JsonSchema.PointerReading
import TableMapper.Proofs.JsonSchema.ReasonReading
import TableMapper.Proofs.Settings.Serialization

namespace TableMapper.JsonSchema

/-! ## 1. Rules -/

/-- The documents that can be schemas. -/
def IsSchemaDocument : Json → Prop
  | .bool _ => True
  | .object _ => True
  | _ => False

/-- The value of a keyword is against a rule for the schema with these
fields. -/
inductive Breaks (fields : Fields Json) : String → Json → Violation → Prop where
  | verbatim {value : Json} : (∀ source, value ≠ .string source) →
      Breaks fields "tsType" value .verbatimNotString
  | choice {value : Json} : (∀ items, value ≠ .array items) →
      Breaks fields "enum" value .choiceNotArray
  | memberNames {value : Json} :
      (∀ names : List String, (∀ name ∈ names, TypeScript.isIdentifier name = true) →
        value ≠ .array (names.map .string)) →
      Breaks fields "tsEnumNames" value .memberNamesNotIdentifiers
  | memberCount {names : List String} {values : List Json} :
      Fields.get? "enum" fields = some (.array values) → names.length ≠ values.length →
      Breaks fields "tsEnumNames" (.array (names.map .string)) .memberNamesCount
  | branches {keyword : String} {value : Json} : keyword ∈ ["anyOf", "oneOf", "allOf"] →
      (∀ items, value ≠ .array items) → Breaks fields keyword value .branchesNotArray
  | type {value : Json} : (∀ name, value ≠ .string name) →
      (∀ item rest, value ≠ .array (item :: rest)) → Breaks fields "type" value .typeNotNames
  | typeList {items : List Json} : items ≠ [] →
      (∀ names : List String, items ≠ names.map .string) →
      Breaks fields "type" (.array items) .typeListNotNames
  | unknownType {value : Json} {names : List String} {name : String} :
      ListsNames value names → name ∈ names → (∀ type : TypeName, type.text ≠ name) →
      Breaks fields "type" value (.unknownType name)
  | required {value : Json} : (∀ names : List String, value ≠ .array (names.map .string)) →
      Breaks fields "required" value .requiredNotNames
  | properties {value : Json} : (∀ properties, value ≠ .object properties) →
      Breaks fields "properties" value .propertiesNotObject
  | further {value : Json} : ¬IsSchemaDocument value →
      Breaks fields "additionalProperties" value .furtherNotSchema
  | items {value : Json} : ¬IsSchemaDocument value → (∀ items, value ≠ .array items) →
      Breaks fields "items" value .itemsNotSchema

/-- A schema is expected at the place in the root, and the document
stands there. -/
inductive SchemaAt (root : Json) : Pointer → Json → Prop where
  | root : SchemaAt root [] root
  | branch {place : Pointer} {fields : Fields Json} {keyword : String} {branches : List Json}
      {index : Nat} {sub : Json} : SchemaAt root place (.object fields) →
      keyword ∈ ["anyOf", "oneOf", "allOf", "items"] →
      Fields.get? keyword fields = some (.array branches) → branches[index]? = some sub →
      SchemaAt root (place ++ [keyword] ++ [String.ofList (Decimal.digitsOf index)]) sub
  | under {place : Pointer} {fields : Fields Json} {keyword : String} {sub : Json} :
      SchemaAt root place (.object fields) → keyword ∈ ["items", "additionalProperties"] →
      Fields.get? keyword fields = some sub → IsSchemaDocument sub →
      SchemaAt root (place ++ [keyword]) sub
  | property {place : Pointer} {fields properties : Fields Json} {name : String} {sub : Json} :
      SchemaAt root place (.object fields) →
      Fields.get? "properties" fields = some (.object properties) → (name, sub) ∈ properties →
      SchemaAt root (place ++ ["properties"] ++ [name]) sub

/-- The value at the place in the root is at fault: the root itself, a
document that is no schema where one is expected, or the value of a
keyword of a schema. -/
inductive Culprit (root : Json) : Pointer → Json → Violation → Prop where
  | root : (∀ fields, root ≠ .object fields) → Culprit root [] root .rootNotObject
  | schema {place : Pointer} {document : Json} : SchemaAt root place document →
      ¬IsSchemaDocument document → Culprit root place document .notSchema
  | keyword {place : Pointer} {fields : Fields Json} {keyword : String} {value : Json}
      {violation : Violation} : SchemaAt root place (.object fields) →
      Fields.get? keyword fields = some value → Breaks fields keyword value violation →
      Culprit root (place ++ [keyword]) value violation

/-- Some value at the pointer of the error is at fault with it. -/
def HasCulprit (root : Json) (e : SchemaError) : Prop :=
  ∃ value, Culprit root e.pointer value e.violation

/-! ## 2. Errors of lists -/

/-- An error of a list of branches is that of one branch, at its
index. -/
theorem exists_branch_of_error {place : Pointer} {branches : List Json} {index : Nat}
    {e : SchemaError} (h : ofBranches place index branches = .error e) :
    ∃ i sub, branches[i]? = some sub ∧
      ofJson (place ++ [String.ofList (Decimal.digitsOf (index + i))]) sub = .error e := by
  induction branches generalizing index with
  | nil =>
    rw [ofBranches_nil] at h
    cases h
  | cons branch rest ih =>
    rw [ofBranches_cons] at h
    rcases bind_eq_error_iff.mp h with h | ⟨s, -, h⟩
    · exact ⟨0, branch, rfl, h⟩
    rcases bind_eq_error_iff.mp h with h | ⟨others, -, h⟩
    · obtain ⟨i, sub, hi, hsub⟩ := ih h
      refine ⟨i + 1, sub, hi, ?_⟩
      rw [← Nat.add_assoc, Nat.add_right_comm]
      exact hsub
    · cases h

/-- An error of properties is that of one property, under its name. -/
theorem exists_property_of_error {place : Pointer} {required : List String}
    {properties : Fields Json} {e : SchemaError}
    (h : ofProperties place required properties = .error e) :
    ∃ name sub, (name, sub) ∈ properties ∧ ofJson (place ++ [name]) sub = .error e := by
  induction properties with
  | nil =>
    rw [ofProperties_nil] at h
    cases h
  | cons property rest ih =>
    obtain ⟨name, sub⟩ := property
    rw [ofProperties_cons] at h
    rcases bind_eq_error_iff.mp h with h | ⟨s, -, h⟩
    · exact ⟨name, sub, List.mem_cons_self, h⟩
    rcases bind_eq_error_iff.mp h with h | ⟨others, -, h⟩
    · obtain ⟨other, document, hmem, hdocument⟩ := ih h
      exact ⟨other, document, List.mem_cons_of_mem _ hmem, hdocument⟩
    · cases h

/-- Only arrays and objects among the kinds have errors. -/
theorem error_of_ofKind {array object : Except SchemaError Schema} {kind : TypeName}
    {e : SchemaError} (h : ofKind array object kind = .error e) :
    array = .error e ∨ object = .error e := by
  cases kind with
  | array => exact .inl h
  | object => exact .inr h
  | _ => cases h

/-- An error of alternatives is that of the arrays or of the objects
among them, or a name that is not known. -/
theorem error_of_alternatives {place : Pointer} {array object : Except SchemaError Schema}
    {names : List String} {seen : List TypeName} {e : SchemaError}
    (h : alternatives place array object seen names = .error e) :
    (array = .error e ∨ object = .error e) ∨
      ∃ name ∈ names, TypeName.ofText? name = none ∧ e = ⟨place, .unknownType name⟩ := by
  induction names generalizing seen with
  | nil =>
    rw [alternatives_nil] at h
    cases h
  | cons name rest ih =>
    have hrest : ∀ {seen : List TypeName},
        alternatives place array object seen rest = .error e →
        (array = .error e ∨ object = .error e) ∨
          ∃ other ∈ name :: rest, TypeName.ofText? other = none ∧
            e = ⟨place, .unknownType other⟩ := by
      intro seen h
      refine (ih h).imp_right ?_
      rintro ⟨other, hmem, hother⟩
      exact ⟨other, List.mem_cons_of_mem _ hmem, hother⟩
    rw [alternatives_cons] at h
    split at h
    · next hname => exact .inr ⟨name, List.mem_cons_self, hname, (Except.error.inj h).symm⟩
    · next kind _ =>
      split at h
      · exact hrest h
      rcases bind_eq_error_iff.mp h with h | ⟨first, -, h⟩
      · exact .inl (error_of_ofKind h)
      rcases bind_eq_error_iff.mp h with h | ⟨others, -, h⟩
      · exact hrest h
      · cases h

/-! ## 3. Errors of keywords -/

/-- Lists with something else than strings in them are no lists of
names. -/
theorem ne_map_of_strings? {items : List Json} (h : strings? items = none) (names : List String) :
    items ≠ names.map .string := by
  rintro rfl
  rw [strings?_map] at h
  cases h

theorem text_ne_of_ofText? {name : String} (h : TypeName.ofText? name = none) (type : TypeName) :
    type.text ≠ name := by
  rintro rfl
  cases type <;> cases h

section Rules

variable {fields : Fields Json} {place : Pointer} {e : SchemaError}

theorem breaks_of_requiredNames (h : requiredNames place fields = .error e) :
    ∃ value, Fields.get? "required" fields = some value ∧ e.pointer = place ++ ["required"] ∧
      Breaks fields "required" value e.violation := by
  unfold requiredNames at h
  split at h
  · cases h
  · next items hget =>
    split at h
    · cases h
    · next hitems =>
      cases h
      refine ⟨_, hget, rfl, .required fun names heq => ?_⟩
      exact ne_map_of_strings? hitems names (Json.array.inj heq)
  · next value hvalue hget =>
    cases h
    exact ⟨_, hget, rfl, .required fun names heq => hvalue _ heq⟩

theorem breaks_of_typeNames {type : Json} (h : typeNames place type = .error e) :
    e.pointer = place ∧ Breaks fields "type" type e.violation := by
  unfold typeNames at h
  split at h
  · cases h
  · cases h
    exact ⟨rfl, .type (by simp) (by simp)⟩
  · next items hitems =>
    split at h
    · cases h
    · next hstrings =>
      cases h
      exact ⟨rfl, .typeList (by simpa using hitems) (ne_map_of_strings? hstrings)⟩
  · next hstring hnil hitems =>
    cases h
    exact ⟨rfl, .type hstring fun item rest => hitems _⟩

theorem breaks_of_enumerationMembers {values : List Json} {names : Json}
    (henum : Fields.get? "enum" fields = some (.array values))
    (h : enumerationMembers place values names = .error e) :
    e.pointer = place ∧ Breaks fields "tsEnumNames" names e.violation := by
  unfold enumerationMembers at h
  simp only at h
  split at h
  · next hnone =>
    cases h
    refine ⟨rfl, .memberNames fun identifiers hall => ?_⟩
    rintro rfl
    dsimp only at hnone
    rw [strings?_map, Option.filter_some, if_pos (List.all_eq_true.mpr hall)] at hnone
    cases hnone
  · next identifiers hsome =>
    split at h
    · cases h
    · next hlength =>
      cases h
      split at hsome
      · next items =>
        obtain ⟨hstrings, -⟩ := Option.filter_eq_some_iff.mp hsome
        rw [eq_map_of_strings? hstrings]
        exact ⟨rfl, .memberCount henum hlength⟩
      · cases hsome

end Rules

/-! ## 4. Errors of documents -/

/-- Whatever error is met in the document, when it stands in the root
where a schema is expected, has a culprit. -/
def HasCulprits (document : Json) : Prop :=
  ∀ root place e, SchemaAt root place document → ofJson place document = .error e →
    HasCulprit root e

section Parts

variable {root : Json} {fields : Fields Json} {place : Pointer} {e : SchemaError}
  (hplace : SchemaAt root place (.object fields))
  (hchildren : ∀ sub, Child fields sub → HasCulprits sub)

include hplace

/-- The value of a keyword that is against a rule is the culprit of an
error that points at it. -/
theorem hasCulprit_of_breaks {keyword : String} {value : Json}
    (hget : Fields.get? keyword fields = some value) (hpointer : e.pointer = place ++ [keyword])
    (h : Breaks fields keyword value e.violation) : HasCulprit root e :=
  ⟨value, hpointer ▸ .keyword hplace hget h⟩

include hchildren

theorem hasCulprit_of_ofBranches {keyword : String} {branches : List Json}
    (hkeyword : keyword ∈ ["anyOf", "oneOf", "allOf", "items"])
    (hget : Fields.get? keyword fields = some (.array branches))
    (h : ofBranches (place ++ [keyword]) 0 branches = .error e) : HasCulprit root e := by
  obtain ⟨index, sub, hsub, herror⟩ := exists_branch_of_error h
  rw [Nat.zero_add] at herror
  have hchild := hchildren sub (.branch hkeyword hget (List.mem_of_getElem? hsub))
  exact hchild root _ e (.branch hplace hkeyword hget hsub) herror

theorem hasCulprit_of_under {keyword : String} {sub : Json}
    (hkeyword : keyword ∈ ["items", "additionalProperties"])
    (hget : Fields.get? keyword fields = some sub) (hsub : IsSchemaDocument sub)
    (h : ofJson (place ++ [keyword]) sub = .error e) : HasCulprit root e :=
  hchildren sub (.under hkeyword hget) root _ e (.under hplace hkeyword hget hsub) h

theorem hasCulprit_of_ofArray (h : ofArray place fields = .error e) : HasCulprit root e := by
  rw [ofArray] at h
  split at h
  · cases h
  · next items hget =>
    rw [map_eq_error_iff] at h
    exact hasCulprit_of_ofBranches hplace hchildren (by simp) hget h
  · next element hget =>
    rw [map_eq_error_iff, ← ofJson_object] at h
    exact hasCulprit_of_under hplace hchildren (by simp) hget trivial h
  · next element hget =>
    rw [map_eq_error_iff] at h
    exact hasCulprit_of_under hplace hchildren (by simp) hget trivial h
  · next value harray hobject hbool hget =>
    cases h
    refine hasCulprit_of_breaks hplace hget rfl (.items (fun hschema => ?_) ?_)
    · cases value with
      | bool b => exact hbool b rfl
      | object element => exact hobject element rfl
      | _ => exact hschema
    · exact harray

theorem hasCulprit_of_readProperties {required : List String}
    (h : readProperties place required fields = .error e) : HasCulprit root e := by
  unfold readProperties at h
  split at h
  · cases h
  · next properties hget =>
    obtain ⟨name, sub, hmem, herror⟩ := exists_property_of_error h
    exact hchildren sub (.property hget hmem) root _ e (.property hplace hget hmem) herror
  · next value hvalue hget =>
    cases h
    exact hasCulprit_of_breaks hplace hget rfl (.properties hvalue)

theorem hasCulprit_of_readFurther (h : readFurther place fields = .error e) :
    HasCulprit root e := by
  unfold readFurther at h
  split at h
  · cases h
  · cases h
  · cases h
  · next further hget =>
    rw [map_eq_error_iff, ← ofJson_object] at h
    exact hasCulprit_of_under hplace hchildren (by simp) hget trivial h
  · next value htrue hfalse hobject hget =>
    cases h
    refine hasCulprit_of_breaks hplace hget rfl (.further fun hschema => ?_)
    cases value with
    | bool b => cases b <;> contradiction
    | object further => exact hobject further rfl
    | _ => exact hschema

theorem hasCulprit_of_ofObject (h : ofObject place fields = .error e) : HasCulprit root e := by
  rw [ofObject_eq] at h
  rcases bind_eq_error_iff.mp h with h | ⟨required, -, h⟩
  · obtain ⟨value, hget, hpointer, hbreaks⟩ := breaks_of_requiredNames h
    exact hasCulprit_of_breaks hplace hget hpointer hbreaks
  rcases bind_eq_error_iff.mp h with h | ⟨properties, -, h⟩
  · exact hasCulprit_of_readProperties hplace hchildren h
  rcases bind_eq_error_iff.mp h with h | ⟨further, -, h⟩
  · exact hasCulprit_of_readFurther hplace hchildren h
  · cases h

/-- An error of what a keyword decides has a culprit. -/
theorem hasCulprit_of_readBy {keyword : Keyword} {value : Json}
    (hdecision : decision? fields = some (keyword, value))
    (h : readBy place fields keyword value = .error e) : HasCulprit root e := by
  have hget := get?_of_decision? hdecision
  unfold readBy at h
  split at h
  · cases h
  · next hvalue =>
    cases h
    exact hasCulprit_of_breaks hplace hget rfl (.verbatim hvalue)
  · split at h
    · next names hnames =>
      rw [map_eq_error_iff] at h
      obtain ⟨hpointer, hbreaks⟩ := breaks_of_enumerationMembers hget h
      exact hasCulprit_of_breaks hplace hnames hpointer hbreaks
    · cases h
  · next hvalue =>
    cases h
    exact hasCulprit_of_breaks hplace hget rfl (.choice hvalue)
  · cases h
  · rw [map_eq_error_iff] at h
    exact hasCulprit_of_ofBranches hplace hchildren (by decide) hget h
  · next hvalue =>
    cases h
    exact hasCulprit_of_breaks hplace hget rfl (.branches (by decide) hvalue)
  · rw [map_eq_error_iff] at h
    exact hasCulprit_of_ofBranches hplace hchildren (by decide) hget h
  · next hvalue =>
    cases h
    exact hasCulprit_of_breaks hplace hget rfl (.branches (by decide) hvalue)
  · rw [map_eq_error_iff] at h
    exact hasCulprit_of_ofBranches hplace hchildren (by decide) hget h
  · next hvalue =>
    cases h
    exact hasCulprit_of_breaks hplace hget rfl (.branches (by decide) hvalue)
  · rcases bind_eq_error_iff.mp h with h | ⟨names, hnames, h⟩
    · obtain ⟨hpointer, hbreaks⟩ := breaks_of_typeNames h
      exact hasCulprit_of_breaks hplace hget hpointer hbreaks
    rcases bind_eq_error_iff.mp h with h | ⟨schemas, -, h⟩
    · rcases error_of_alternatives h with (h | h) | ⟨name, hmem, hname, rfl⟩
      · exact hasCulprit_of_ofArray hplace hchildren h
      · exact hasCulprit_of_ofObject hplace hchildren h
      · have hlists := listsNames_of_typeNames hnames
        exact hasCulprit_of_breaks hplace hget rfl
          (.unknownType hlists hmem (text_ne_of_ofText? hname))
    · cases h
  · exact hasCulprit_of_ofObject hplace hchildren h
  · exact hasCulprit_of_ofArray hplace hchildren h

theorem hasCulprit_of_ofKeywords (h : ofKeywords place fields = .error e) :
    HasCulprit root e := by
  rw [ofKeywords_eq] at h
  split at h
  · cases h
  · next hdecision => exact hasCulprit_of_readBy hplace hchildren hdecision h

end Parts

/-- A document has an error if it is no schema, or if its fields have
one. -/
theorem ofJson_eq_error {place : Pointer} {document : Json} {e : SchemaError}
    (h : ofJson place document = .error e) :
    ¬IsSchemaDocument document ∧ e = ⟨place, .notSchema⟩ ∨
      ∃ fields, document = .object fields ∧ ofKeywords place fields = .error e := by
  unfold ofJson at h
  split at h
  · cases h
  · cases h
  · exact .inr ⟨_, rfl, h⟩
  · next htrue hfalse hobject =>
    refine .inl ⟨fun hschema => ?_, (Except.error.inj h).symm⟩
    cases document with
    | bool b => cases b <;> contradiction
    | object fields => exact hobject fields rfl
    | _ => exact hschema

/-- Every error of a document has a culprit, by induction on the
document. -/
theorem hasCulprit_of_ofJson (document : Json) : HasCulprits document := by
  intro root place e hplace h
  rcases ofJson_eq_error h with ⟨hschema, rfl⟩ | ⟨fields, hdocument, h⟩
  · exact ⟨document, .schema hplace hschema⟩
  · rw [hdocument] at hplace
    exact hasCulprit_of_ofKeywords hplace (fun sub hsub => hasCulprit_of_ofJson sub) h
termination_by sizeOf document
decreasing_by
  rw [hdocument]
  exact hsub.sizeOf_lt

/-- Every error of a whole document that is declared under a legal name
has a culprit in it. -/
theorem hasCulprit_of_declare {document : Json} {name : String} {e : SchemaError}
    (hname : TypeScript.isIdentifier name = true) (h : declare document name = .error e) :
    HasCulprit document e := by
  unfold declare at h
  rw [if_neg (by simp [hname])] at h
  split at h
  · next fields =>
    have hchildren : ∀ sub, Child fields sub → HasCulprits sub :=
      fun sub _ => hasCulprit_of_ofJson sub
    rcases bind_eq_error_iff.mp h with h | ⟨s, -, h⟩
    · unfold ofRoot at h
      split at h
      · exact hasCulprit_of_ofObject .root hchildren h
      · exact hasCulprit_of_ofKeywords .root hchildren h
    · cases h
  · next hobject =>
    cases h
    exact ⟨document, .root hobject⟩

/-! ## 5. Following the pointer -/

theorem plain_array_iff {items : List Json} :
    (Json.array items).Plain ↔ ∀ item ∈ items, item.Plain := by
  constructor
  · rintro ⟨⟩
    assumption
  · exact .array

theorem plain_object_iff {fields : Fields Json} :
    (Json.object fields).Plain ↔
      (Fields.names fields).Nodup ∧ ∀ field ∈ fields, field.2.Plain := by
  constructor
  · rintro ⟨⟩
    constructor <;> assumption
  · rintro ⟨hnames, h⟩
    exact .object hnames h

/-- What is found in an object with distinct names has distinct names. -/
theorem plain_of_get? {fields : Fields Json} {name : String} {value : Json}
    (h : (Json.object fields).Plain) (hget : Fields.get? name fields = some value) :
    value.Plain :=
  (plain_object_iff.mp h).2 _ (Fields.mem_of_get? hget)

/-- A schema in a document stands where its pointer leads. -/
theorem SchemaAt.at?_eq {root document : Json} {place : Pointer} (hroot : root.Plain)
    (h : SchemaAt root place document) : root.at? place = some document ∧ document.Plain := by
  induction h with
  | root => exact ⟨rfl, hroot⟩
  | branch _ _ hget hsub ih =>
    have hbranches := (Json.at?_concat ih.1 _).trans hget
    have hplain := plain_array_iff.mp (plain_of_get? ih.2 hget)
    refine ⟨(Json.at?_concat hbranches _).trans ?_, hplain _ (List.mem_of_getElem? hsub)⟩
    rw [Json.under?_digitsOf, hsub]
  | under _ _ hget _ ih =>
    exact ⟨(Json.at?_concat ih.1 _).trans hget, plain_of_get? ih.2 hget⟩
  | property _ hget hmem ih =>
    have hproperties := (Json.at?_concat ih.1 _).trans hget
    obtain ⟨hnames, hplain⟩ := plain_object_iff.mp (plain_of_get? ih.2 hget)
    have hfound := Fields.get?_of_mem hnames hmem
    exact ⟨(Json.at?_concat hproperties _).trans hfound, hplain _ hmem⟩

/-- A culprit stands where its pointer leads. -/
theorem Culprit.at?_eq {root value : Json} {pointer : Pointer} {violation : Violation}
    (hroot : root.Plain) (h : Culprit root pointer value violation) :
    root.at? pointer = some value := by
  cases h with
  | root _ => rfl
  | schema hplace _ => exact (hplace.at?_eq hroot).1
  | keyword hplace hget _ => exact (Json.at?_concat (hplace.at?_eq hroot).1 _).trans hget

/-- One who reads the text of the pointer of an error, and follows it
from the root, comes to a value; and one who reads the reason of the
error learns what is wrong with that value. -/
theorem declare_culprit {document : Json} {name : String} {e : SchemaError}
    (hname : TypeScript.isIdentifier name = true) (hplain : document.Plain)
    (h : declare document name = .error e) :
    ∃ pointer value violation, Pointer.ofText? e.pointer.text = some pointer ∧
      document.at? pointer = some value ∧
      Violation.ofReason? e.violation.message = some violation ∧ violation = e.violation ∧
      Culprit document pointer value violation := by
  obtain ⟨value, hculprit⟩ := hasCulprit_of_declare hname h
  exact ⟨e.pointer, value, e.violation, Pointer.ofText?_text e.pointer, hculprit.at?_eq hplain,
    Violation.ofReason?_message e.violation, rfl, hculprit⟩

/-- A record with a property whose second branch lists a type that there
is not. -/
def misspelled : Json :=
  .object [("type", .string "object"), ("properties", .object [("a/b~", .object [("anyOf",
    .array [.bool true, .object [("type", .array [.string "string", .string "text"])]])])])]

/-- The key of the property is written with escapes in the pointer, the
pointer leads to the list, and the reason names the type that is in
it. -/
theorem misspelled_culprit : ∃ e, declare misspelled "Record" = .error e ∧
    e.pointer.text = "/properties/a~1b~0/anyOf/1/type" ∧
    e.violation.message = "unknown type `text`" ∧
    ∃ pointer value violation, Pointer.ofText? e.pointer.text = some pointer ∧
      misspelled.at? pointer = some value ∧
      Violation.ofReason? e.violation.message = some violation ∧ violation = e.violation ∧
      Culprit misspelled pointer value violation := by
  have hplain : misspelled.Plain := by
    simp [misspelled, plain_object_iff, plain_array_iff, Fields.names, Json.Plain.string,
      Json.Plain.bool]
  have hname : TypeScript.isIdentifier "Record" = true := by decide
  have hindex : String.ofList (Decimal.digitsOf 1) = "1" := by decide
  have hdeclare : declare misspelled "Record" =
      .error ⟨["properties", "a/b~", "anyOf", "1", "type"], .unknownType "text"⟩ := by
    simp [declare, hname, hindex, ofRoot, isObjectDocument, misspelled, ofKeywords, ofObject,
      ofJson, ofBranches, ofProperties, Fields.get?, typeNames, strings?, alternatives,
      TypeName.ofText?, TypeName.all, TypeName.text, TypeName.alternative, primitiveOf?,
      Except.map, requiredNames, bind, Except.bind]
  exact ⟨_, hdeclare, by decide, by decide, declare_culprit hname hplain hdeclare⟩

end TableMapper.JsonSchema
