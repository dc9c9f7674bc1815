/-
TableMapper.Proofs.Generated.RecordDocuments — what is declared for the
documents that a mapper compiles.

The types of items and of keys are compiled from one schema: its fields
with other names required, or with fewer properties. All of these are
closed records or open ones (`IsRecord`), so that one theorem,
`IsRecord.declare`, tells for each of them which members and which
enumerations its declaration has.
-/
import TableMapper.Generated.ItemTypes
import TableMapper.Proofs.JsonSchema.Enumerations
import TableMapper.Proofs.JsonSchema.ReadingSteps

namespace TableMapper

open JsonSchema (SchemaError Schema)
open TypeScript (Declarations)

/-! ## 1. Records -/

/-- Fields that say: an object with these properties, open or closed as
told. -/
structure IsRecord (fields : Fields Json) (properties : Fields PropertySchema)
    (further : Option Bool) : Prop where
  type : Fields.get? "type" fields = some (.string "object")
  properties : Fields.get? "properties" fields = some (RecordSchema.propertiesJson properties)
  further : Fields.get? "additionalProperties" fields = further.map .bool

namespace IsRecord

variable {fields : Fields Json} {properties : Fields PropertySchema} {further : Option Bool}

/-- Other names may be required of a record. -/
theorem requiring (h : IsRecord fields properties further) (names : List String) :
    IsRecord (Fields.insert "required" (Json.strings names) fields) properties further where
  type := by rw [Fields.get?_insert, if_neg (by decide)]; exact h.type
  properties := by rw [Fields.get?_insert, if_neg (by decide)]; exact h.properties
  further := by rw [Fields.get?_insert, if_neg (by decide)]; exact h.further

/-- A record may be given other properties. -/
theorem withProperties (h : IsRecord fields properties further)
    (others : Fields PropertySchema) :
    IsRecord (Fields.insert "properties" (RecordSchema.propertiesJson others) fields) others
      further where
  type := by rw [Fields.get?_insert, if_neg (by decide)]; exact h.type
  properties := by rw [Fields.get?_insert, if_pos rfl]
  further := by rw [Fields.get?_insert, if_neg (by decide)]; exact h.further

end IsRecord

/-- The fields of a record schema say what the schema says. -/
theorem RecordSchema.toFields_isRecord (r : RecordSchema) :
    IsRecord r.toFields r.properties.entries r.additionalProperties := by
  obtain ⟨name, required, properties, further⟩ := r
  cases required <;> cases further <;> exact ⟨rfl, rfl, rfl⟩

/-- The names that a record schema requires are read from its
fields. -/
theorem RecordSchema.requiredNames_toFields (r : RecordSchema) (place : JsonSchema.Pointer) :
    JsonSchema.requiredNames place r.toFields = .ok (r.required.getD []) := by
  obtain ⟨name, required, properties, further⟩ := r
  cases required with
  | none => cases further <;> rfl
  | some names => exact JsonSchema.requiredNames_of_get? rfl

/-! ## 2. Declarations of records -/

/-- The schema of the further members of a record. -/
def furtherOfRecord : Option Bool → Option Schema
  | none => some (.primitive .any)
  | some true => some (.primitive .any)
  | some false => none

/-- Further members have no enumeration. -/
theorem furtherOf_furtherOfRecord (further : Option Bool)
    (known : List TypeScript.Enumeration) :
    ((JsonSchema.furtherOf (furtherOfRecord further)).run known).2 = known := by
  match further with
  | none => rfl
  | some true => rfl
  | some false => rfl

theorem IsRecord.isObjectDocument {fields : Fields Json} {properties : Fields PropertySchema}
    {further : Option Bool} (h : IsRecord fields properties further) :
    JsonSchema.isObjectDocument fields = true := by
  unfold JsonSchema.isObjectDocument
  rw [h.type]
  rfl

theorem IsRecord.readFurther {fields : Fields Json} {properties : Fields PropertySchema}
    {further : Option Bool} (h : IsRecord fields properties further) :
    JsonSchema.readFurther [] fields = .ok (furtherOfRecord further) := by
  unfold JsonSchema.readFurther
  rw [h.further]
  match further with
  | none => rfl
  | some true => rfl
  | some false => rfl

/-- The documents of properties, by name. -/
def propertyDocuments (properties : Fields PropertySchema) : Fields Json :=
  properties.map fun (name, p) => (name, p.toJson)

/-- The schema of a record is an object with its properties in
order. -/
theorem IsRecord.ofRoot {fields : Fields Json} {properties : Fields PropertySchema}
    {further : Option Bool} (hrecord : IsRecord fields properties further) {s : Schema}
    (h : JsonSchema.ofRoot fields = .ok s) :
    ∃ required read, JsonSchema.requiredNames [] fields = .ok required ∧
      List.Forall₂ (JsonSchema.IsProperty ["properties"] required)
        (propertyDocuments properties) read ∧
      s = .object read (furtherOfRecord further) := by
  rw [JsonSchema.ofRoot, if_pos hrecord.isObjectDocument] at h
  obtain ⟨required, read, further', hrequired, hread, hfurther, rfl⟩ :=
    JsonSchema.ofObject_eq_ok_iff.mp h
  rw [hrecord.readFurther] at hfurther
  obtain rfl := Except.ok.inj hfurther
  rw [JsonSchema.readProperties, hrecord.properties] at hread
  exact ⟨required, read, hrequired, JsonSchema.ofProperties_eq_ok_iff.mp hread, rfl⟩

/-- What is declared for a record: an interface whose members are its
properties in order, and the enumerations of these. -/
theorem IsRecord.declare {fields : Fields Json} {properties : Fields PropertySchema}
    {further : Option Bool} (hrecord : IsRecord fields properties further) {name : String}
    {d : Declarations} (h : JsonSchema.declare (.object fields) name = .ok d) :
    ∃ required read, JsonSchema.requiredNames [] fields = .ok required ∧
      List.Forall₂ (JsonSchema.IsProperty ["properties"] required)
        (propertyDocuments properties) read ∧
      JsonSchema.ofRoot fields = .ok (.object read (furtherOfRecord further)) ∧
      d.name = name ∧
      d.body = .interface ((JsonSchema.membersOf read).run []).1
        ((JsonSchema.furtherOf (furtherOfRecord further)).run
          ((JsonSchema.membersOf read).run []).2).1 ∧
      d.enumerations = ((JsonSchema.membersOf read).run []).2 := by
  obtain ⟨-, fields', s, hfields, hs, rfl⟩ := JsonSchema.declare_eq_ok_iff.mp h
  obtain rfl := Json.object.inj hfields
  obtain ⟨required, read, hrequired, hread, rfl⟩ := hrecord.ofRoot hs
  refine ⟨required, read, hrequired, hread, hs, rfl, ?_, ?_⟩
  · rw [JsonSchema.typeOf_object]
    simp only [JsonSchema.bodyOf, if_pos hrecord.isObjectDocument]
  · rw [JsonSchema.typeOf_object]
    exact furtherOf_furtherOfRecord further _

theorem JsonSchema.heads_of_isProperty {place : JsonSchema.Pointer} {required : List String} :
    ∀ {documents : Fields Json} {read : List (PropertyHead × Schema)},
      List.Forall₂ (JsonSchema.IsProperty place required) documents read →
        (read.map Prod.fst).map PropertyHead.name = Fields.names documents ∧
        ∀ head ∈ read.map Prod.fst, head.required = required.contains head.name
  | _, _, .nil => ⟨rfl, fun _ h => absurd h List.not_mem_nil⟩
  | _, _, .cons h hrest => by
    obtain ⟨hnames, hrequired⟩ := heads_of_isProperty hrest
    constructor
    · rw [List.map_cons, List.map_cons, hnames, h.1]
      rfl
    · intro head hhead
      rcases List.mem_cons.mp hhead with rfl | hhead
      · rw [h.1]
      · exact hrequired head hhead

theorem names_propertyDocuments (properties : Fields PropertySchema) :
    Fields.names (propertyDocuments properties) = Fields.names properties := by
  rw [propertyDocuments, Fields.names, List.map_map]
  rfl

/-- The members of the interface of a record: one for each property, in
order, and not optional if its name is required. -/
theorem IsRecord.members {fields : Fields Json} {properties : Fields PropertySchema}
    {further : Option Bool} (hrecord : IsRecord fields properties further)
    {required : List String} (hrequired : JsonSchema.requiredNames [] fields = .ok required)
    {name : String} {d : Declarations}
    (h : JsonSchema.declare (.object fields) name = .ok d) :
    ∃ members rest, d.name = name ∧ d.body = .interface members rest ∧
      members.map (·.1.name) = Fields.names properties ∧
      ∀ member ∈ members, member.1.required = required.contains member.1.name := by
  obtain ⟨required', read, hrequired', hread, -, hname, hbody, -⟩ := hrecord.declare h
  obtain rfl := Except.ok.inj (hrequired.symm.trans hrequired')
  obtain ⟨hnames, hheads⟩ := JsonSchema.heads_of_isProperty hread
  have hfst := JsonSchema.membersOf_run_heads read []
  refine ⟨_, _, hname, hbody, ?_, ?_⟩
  · rw [← names_propertyDocuments, ← hnames, ← hfst, List.map_map]
    rfl
  · intro member hmember
    exact hheads member.1 (hfst ▸ List.mem_map_of_mem hmember)

/-- The schema of a record whose required names and properties are
read. -/
theorem IsRecord.ofRoot_eq {fields : Fields Json} {properties : Fields PropertySchema}
    {further : Option Bool} (hrecord : IsRecord fields properties further)
    {required : List String} (hrequired : JsonSchema.requiredNames [] fields = .ok required)
    {read : List (PropertyHead × Schema)}
    (hread : List.Forall₂ (JsonSchema.IsProperty ["properties"] required)
      (propertyDocuments properties) read) :
    JsonSchema.ofRoot fields = .ok (.object read (furtherOfRecord further)) := by
  rw [JsonSchema.ofRoot, if_pos hrecord.isObjectDocument]
  refine JsonSchema.ofObject_eq_ok_iff.mpr
    ⟨required, read, furtherOfRecord further, hrequired, ?_, hrecord.readFurther, rfl⟩
  rw [JsonSchema.readProperties, hrecord.properties]
  exact JsonSchema.ofProperties_eq_ok_iff.mpr hread

/-- What is read is declared under every identifier. -/
theorem JsonSchema.exists_declare {fields : Fields Json} {s : Schema}
    (hs : JsonSchema.ofRoot fields = .ok s) {name : String}
    (hname : TypeScript.isIdentifier name = true) :
    ∃ d, JsonSchema.declare (.object fields) name = .ok d :=
  ⟨_, JsonSchema.declare_eq_ok_iff.mpr ⟨hname, fields, s, rfl, hs, rfl⟩⟩

end TableMapper
