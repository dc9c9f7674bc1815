/-
TableMapper.Proofs.JsonSchema.ObjectMembers — what is written of an
object schema.

`ListsObject` says of an object type that its text lists the properties
of the fields, one member for each in written order, and then what
further members there may be. It is said in terms of what is read from
the text again. The type of every object schema that is read lists its
fields (`ofObject_lists`), and of `required` no more counts than which
properties it names (`ofObject_requiring`).
-/
import TableMapper.Proofs.JsonSchema.Enumerations
import TableMapper.Proofs.JsonSchema.Places
import TableMapper.Proofs.TypeScript.MemberLists

namespace TableMapper.JsonSchema

open TypeScript (TypeExpr ReadMember Enumeration readMembers? asRead)
open TypeScript.TypeExpr (braced memberList)

/-! ## 1. What is listed -/

/-- The fields require properties of the name. -/
def IsRequired (fields : Fields Json) (name : String) : Prop :=
  ∃ names, Requires fields names ∧ name ∈ names

/-- The names require the properties that the fields require. -/
def RequiresSame (fields : Fields Json) (names : List String) : Prop :=
  ∀ properties, HasProperties fields properties → ∀ property ∈ properties,
    (property.1 ∈ names ↔ IsRequired fields property.1)

/-- The document is described by a text. -/
def IsDescribed (document : Json) : Prop :=
  ∃ fields text, document = .object fields ∧
    Fields.get? "description" fields = some (.string text)

/-- The text is that of the type of a document under a hint. -/
def IsTypeText (hint : String) (document : Json) (level : Nat) (text : String) : Prop :=
  ∃ s known, (∀ place, ofJson place document = .ok s) ∧
    text = ((typeOf hint s).run known).1.text level

/-- What is read of a member is what the fields say of a property. -/
structure IsMember (fields : Fields Json) (level : Nat) (property : String × Json)
    (member : ReadMember) : Prop where
  name : member.name = property.1
  optional : member.optional = true ↔ ¬IsRequired fields property.1
  documented : member.documented = true ↔ IsDescribed property.2
  type : IsTypeText property.1 property.2 level member.type

/-- What is read of all further members is what the fields say of them:
nothing if there are none, and anything if nothing is said. -/
structure IsSignature (fields : Fields Json) (level : Nat) (signature : Option String) :
    Prop where
  closed : signature = none ↔ Fields.get? "additionalProperties" fields = some (.bool false)
  anything : Fields.get? "additionalProperties" fields = none ∨
    Fields.get? "additionalProperties" fields = some (.bool true) → signature = some "any"
  type : ∀ document type, Fields.get? "additionalProperties" fields = some document →
    signature = some type → IsTypeText "additional" document level type

/-- A list of pieces is read as the properties of the fields and what
they say of further members. -/
def ListsMembers (fields : Fields Json) (level : Nat) (pieces : List String) : Prop :=
  ∃ properties members signature, HasProperties fields properties ∧
    readMembers? false pieces = some (members, signature) ∧
    List.Forall₂ (IsMember fields level) properties members ∧ IsSignature fields level signature

/-- The text of a type is at every level the list of the members that
the fields have. -/
def ListsObject (fields : Fields Json) (e : TypeExpr) : Prop :=
  ∃ members further, e = .object members further ∧ ∀ level,
    e.text level = braced level (memberList (level + 1) members further) ∧
      ListsMembers fields (level + 1) (memberList (level + 1) members further)

/-! ## 2. Properties -/

theorem Requires.unique {fields : Fields Json} {names others : List String}
    (h : Requires fields names) (h' : Requires fields others) : names = others := by
  rcases h with ⟨hnone, rfl⟩ | hsome
  · rcases h' with ⟨-, rfl⟩ | hsome
    · rfl
    · cases hnone.symm.trans hsome
  · rcases h' with ⟨hnone, -⟩ | hsome'
    · cases hnone.symm.trans hsome
    · exact map_string_injective (Json.array.inj (Option.some.inj (hsome.symm.trans hsome')))

/-- The names that are read are those that are required. -/
theorem mem_requiredNames_iff {place : Pointer} {fields : Fields Json} {required : List String}
    (h : requiredNames place fields = .ok required) (name : String) :
    name ∈ required ↔ IsRequired fields name := by
  have hrequires := requires_of_requiredNames h
  constructor
  · intro hmem
    exact ⟨required, hrequires, hmem⟩
  · rintro ⟨names, hnames, hmem⟩
    rwa [hrequires.unique hnames]

theorem isSome_descriptionOf_iff (document : Json) :
    (descriptionOf document).isSome = true ↔ IsDescribed document := by
  unfold descriptionOf IsDescribed
  split
  · next fields =>
    split
    · next text htext => exact iff_of_true rfl ⟨fields, text, rfl, htext⟩
    · next hnot =>
      refine iff_of_false Bool.false_ne_true ?_
      rintro ⟨_, text, heq, htext⟩
      cases heq
      exact hnot text htext
  · next hnot =>
    refine iff_of_false Bool.false_ne_true ?_
    rintro ⟨fields, text, heq, -⟩
    exact hnot fields heq

theorem hasProperties_of_readProperties {place : Pointer} {required : List String}
    {fields : Fields Json} {read : List (PropertyHead × Schema)}
    (h : readProperties place required fields = .ok read) :
    ∃ properties, HasProperties fields properties ∧
      List.Forall₂ (IsProperty (place ++ ["properties"]) required) properties read := by
  unfold readProperties at h
  split at h
  · next hget =>
    cases h
    exact ⟨[], .inl ⟨hget, rfl⟩, .nil⟩
  · next properties hget => exact ⟨properties, .inr hget, ofProperties_eq_ok_iff.mp h⟩
  · cases h

/-- The members for properties are read as the properties. -/
theorem isMember_of_properties {place : Pointer} {fields : Fields Json} {required : List String}
    (hrequired : ∀ name, name ∈ required ↔ IsRequired fields name) (level : Nat)
    {properties : Fields Json} {read : List (PropertyHead × Schema)}
    (h : List.Forall₂ (IsProperty place required) properties read) (known : List Enumeration) :
    List.Forall₂ (IsMember fields level) properties
      (((membersOf read).run known).1.map (asRead level)) := by
  induction h generalizing known with
  | nil => exact .nil
  | @cons property p _ read hfirst _ ih =>
    obtain ⟨name, document⟩ := property
    obtain ⟨head, s⟩ := p
    obtain ⟨hhead, hread⟩ := hfirst
    rw [membersOf_cons, List.map_cons]
    simp only at hhead hread
    refine .cons ?_ (ih _)
    rw [hhead]
    constructor
    · rfl
    · simp [asRead, hrequired]
    · exact isSome_descriptionOf_iff document
    · exact ⟨s, known, fun other => readAnywhere _ _ other _ hread, rfl⟩

/-! ## 3. Objects -/

theorem isSignature_of_readFurther {place : Pointer} {fields : Fields Json}
    {further : Option Schema} (h : readFurther place fields = .ok further) (level : Nat)
    (known : List Enumeration) :
    IsSignature fields level (((furtherOf further).run known).1.map (TypeExpr.text level)) := by
  obtain ⟨hget, rfl⟩ | ⟨hget, rfl⟩ | ⟨document, s, hget, hopen, hs, rfl⟩ := readFurther_eq_ok h
  · refine ⟨by simp [hget], fun _ => rfl, fun document type hdocument _ => ?_⟩
    cases hget.symm.trans hdocument
  · refine ⟨by simp [hget], by simp [hget], fun document type _ htype => ?_⟩
    cases htype
  · refine ⟨by simpa [hget] using hopen, ?_, fun other type hother htype => ?_⟩
    · rintro (hnone | hany)
      · cases hget.symm.trans hnone
      · cases hget.symm.trans hany
        rw [ofJson] at hs
        cases hs
        rfl
    · cases hget.symm.trans hother
      cases htype
      exact ⟨s, known, fun place => readAnywhere _ _ place s hs, rfl⟩

/-- The type of an object schema that is read lists its members. -/
theorem ofObject_lists {place : Pointer} {fields : Fields Json} {s : Schema}
    (h : ofObject place fields = .ok s) (hint : String) (known : List Enumeration) :
    ListsObject fields ((typeOf hint s).run known).1 := by
  obtain ⟨required, read, further, hrequired, hread, hfurther, rfl⟩ := ofObject_eq_ok_iff.mp h
  obtain ⟨properties, hproperties, hall⟩ := hasProperties_of_readProperties hread
  rw [typeOf_object]
  refine ⟨_, _, rfl, fun level => ⟨TypeExpr.text_object level _ _, properties, _, _, hproperties,
    TypeScript.readMembers?_memberList _ _ _, ?_, isSignature_of_readFurther hfurther _ _⟩⟩
  exact isMember_of_properties (mem_requiredNames_iff hrequired) (level + 1) hall known

/-- Properties are read as the same where the same of them are
required. -/
theorem isProperty_congr {place : Pointer} {required names : List String} {properties : Fields Json}
    {read : List (PropertyHead × Schema)}
    (h : List.Forall₂ (IsProperty place required) properties read)
    (hnames : ∀ property ∈ properties, property.1 ∈ names ↔ property.1 ∈ required) :
    List.Forall₂ (IsProperty place names) properties read := by
  induction h with
  | nil => exact .nil
  | cons hfirst _ ih =>
    rw [List.forall_mem_cons] at hnames
    obtain ⟨hhead, hschema⟩ := hfirst
    refine .cons ⟨?_, hschema⟩ (ih hnames.2)
    rw [hhead, Bool.eq_iff_iff.mpr (List.contains_iff_mem.trans
      (hnames.1.symm.trans List.contains_iff_mem.symm))]

/-- Of the names that are required, only those of properties count, and
each of them once. -/
theorem ofObject_requiring {place : Pointer} {fields : Fields Json} {s : Schema}
    (h : ofObject place fields = .ok s) {names : List String}
    (hnames : RequiresSame fields names) :
    ofObject place (Fields.insert "required" (Json.strings names) fields) = .ok s := by
  obtain ⟨required, read, further, hrequired, hread, hfurther, rfl⟩ := ofObject_eq_ok_iff.mp h
  refine ofObject_eq_ok_iff.mpr
    ⟨names, read, further, requiredNames_insert place fields names, ?_, ?_, rfl⟩
  · rw [readProperties, Fields.get?_insert, if_neg (by decide)]
    unfold readProperties at hread
    split at hread
    · exact hread
    · next properties hget =>
      rw [ofProperties_eq_ok_iff] at hread ⊢
      refine isProperty_congr hread fun property hmem => ?_
      rw [hnames properties (.inr hget) property hmem, mem_requiredNames_iff hrequired]
    · cases hread
  · rw [readFurther, Fields.get?_insert, if_neg (by decide)]
    exact hfurther

end TableMapper.JsonSchema
