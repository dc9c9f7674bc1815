/-
TableMapper.Proofs.JsonSchema.Nesting — a schema declared and in place.

Whether a whole document is an interface is told by `isObjectDocument`,
and below the root the keywords decide in their order. Both find the
same unless an object document has a keyword that comes before its type:
then it is declared as an interface all the same, and in place it is
what the keyword says (`readApart_of_overriding`), as
`sourcedRecord_not_in_place` shows. Otherwise the type that is declared
is the one in place, with the same text up to indentation.
`declare_in_place` says both.
-/
import TableMapper.Proofs.JsonSchema.Meaning
import TableMapper.Proofs.JsonSchema.Places
import TableMapper.Proofs.JsonSchema.Renumbering
import TableMapper.Proofs.TypeScript.Indentation

namespace TableMapper

/-! ## 1. Unions of one branch -/

namespace TypeScript.TypeExpr

/-- A union of one branch is the branch. -/
def alone : TypeExpr → TypeExpr
  | .union [e] => e
  | e => e

/-- It is written as the branch, too. -/
theorem text_alone (level : Nat) (e : TypeExpr) : text level e.alone = text level e := by
  unfold alone
  split
  · rfl
  · rfl

end TypeScript.TypeExpr

namespace JsonSchema

open TypeScript (TypeExpr TypeBody Enumeration Declarations withoutIndent)
open TypeScript.TypeExpr (Renamed)

/-! ## 2. Object documents in place -/

/-- The keywords that are looked at before the type. -/
def overriding : List Keyword := [.tsType, .enum, .const, .anyOf, .oneOf, .allOf]

/-- A keyword with its value, where it is present. -/
def found? (fields : Fields Json) (keyword : Keyword) : Option (Keyword × Json) :=
  (Fields.get? keyword.text fields).map (keyword, ·)

theorem decision?_eq_or (fields : Fields Json) : decision? fields =
    (overriding.findSome? (found? fields)).or
      ([Keyword.type, .properties, .items].findSome? (found? fields)) := by
  rw [← List.findSome?_append]
  rfl

/-- Without one of these, the type or the properties decide. -/
theorem decision?_of_object {fields : Fields Json}
    (hplain : ∀ keyword ∈ overriding, Fields.get? keyword.text fields = none)
    (hobject : isObjectDocument fields = true) :
    decision? fields = some (.type, .string "object") ∨
      ∃ value, decision? fields = some (.properties, value) := by
  have hnone : overriding.findSome? (found? fields) = none :=
    List.findSome?_eq_none_iff.mpr fun keyword hkeyword => by
      rw [found?, hplain keyword hkeyword, Option.map_none]
  rw [decision?_eq_or, hnone, Option.none_or]
  unfold isObjectDocument at hobject
  split at hobject
  · next name htype =>
    refine .inl ?_
    rw [List.findSome?_cons, found?, Keyword.text, htype, beq_iff_eq.mp hobject]
    rfl
  · cases hobject
  · next htype =>
    obtain ⟨value, hvalue⟩ := Option.isSome_iff_exists.mp hobject
    refine .inr ⟨value, ?_⟩
    rw [List.findSome?_cons, found?, Keyword.text, htype, List.findSome?_cons, found?, Keyword.text,
      hvalue]
    rfl

/-- In place, an object document is read as the object that it is on its
own, or as a union of this alone. -/
theorem ofKeywords_of_object {fields : Fields Json} {s : Schema}
    (hplain : ∀ keyword ∈ overriding, Fields.get? keyword.text fields = none)
    (hobject : isObjectDocument fields = true) {place : Pointer}
    (h : ofObject place fields = .ok s) :
    ofKeywords place fields = .ok s ∨ ofKeywords place fields = .ok (.union [s]) := by
  rw [ofKeywords_eq]
  rcases decision?_of_object hplain hobject with hdecision | ⟨value, hdecision⟩
  · refine .inr ?_
    have hkind : TypeName.ofText? "object" = some .object := by decide
    have halternatives : alternatives (place ++ ["type"]) (ofArray place fields)
        (ofObject place fields) [] ["object"] = .ok [s] := by
      rw [alternatives_cons, hkind, alternatives_nil]
      exact bind_eq_ok_iff.mpr ⟨s, h, rfl⟩
    rw [hdecision]
    exact bind_eq_ok_iff.mpr ⟨["object"], rfl, bind_eq_ok_iff.mpr ⟨[s], halternatives, rfl⟩⟩
  · refine .inl ?_
    rw [hdecision]
    exact h

/-- What is declared for an object document, with the names that the
sites of the whole document have in the end. -/
theorem declare_object {fields : Fields Json} {name : String} {d : Declarations}
    (h : declare (.object fields) name = .ok d) (hobject : isObjectDocument fields = true) :
    ∃ required read further, requiredNames [] fields = .ok required ∧
      readProperties [] required fields = .ok read ∧ readFurther [] fields = .ok further ∧
      d.enumerations = declareSites [] (Schema.propertySites read ++ Schema.furtherSites further) ∧
      d.body = .interface (namedMembers (nameAmong d.enumerations) read)
        (namedFurther (nameAmong d.enumerations) further) := by
  obtain ⟨-, fields, s, hfields, hroot, rfl⟩ := declare_eq_ok_iff.mp h
  cases hfields
  rw [ofRoot, if_pos hobject] at hroot
  obtain ⟨required, read, further, hrequired, hread, hfurther, rfl⟩ := ofObject_eq_ok_iff.mp hroot
  have hsites := typeOf_run_sites (.object read further) name []
  have hnodup := declareSites_names_nodup (Schema.sites name (.object read further))
  rw [← hsites] at hnodup
  refine ⟨required, read, further, hrequired, hread, hfurther, hsites, ?_⟩
  show bodyOf fields ((typeOf name (.object read further)).run []).1 = _
  rw [typeOf_run_named hnodup _ name [] (List.prefix_refl _)]
  exact if_pos hobject

/-! ## 3. Object documents with other keywords -/

/-- Two objects have the same values under these names, or none. -/
def AgreeOn (names : List String) (fields others : Fields Json) : Prop :=
  ∀ name ∈ names, Fields.get? name others = Fields.get? name fields

/-- What an object document is declared by. -/
def objectNames : List String :=
  ["type", "properties", "required", "additionalProperties", "description"]

/-- What a schema is read by that has a keyword before its type. -/
def overridingNames : List String := "tsEnumNames" :: overriding.map Keyword.text

/-- An object document that is declared by what it says as an object,
and read in place by nothing of this. -/
structure ReadApart (fields : Fields Json) (name : String) (d : Declarations) : Prop where
  isInterface : ∃ members further, d.body = .interface members further
  declared : ∀ others, AgreeOn objectNames fields others → declare (.object others) name = .ok d
  inPlace : ∀ others, AgreeOn overridingNames fields others → ∀ place,
    ofJson place (.object others) = ofJson place (.object fields)

/-- An object that agrees with an object document is one, and is read as
the same object. -/
theorem ofRoot_agree {fields others : Fields Json} (hagree : AgreeOn objectNames fields others)
    (hobject : isObjectDocument fields = true) :
    isObjectDocument others = true ∧ ofRoot others = ofRoot fields := by
  have hisObject : isObjectDocument others = true := by
    unfold isObjectDocument Fields.contains at hobject ⊢
    rw [hagree "type" (by decide), hagree "properties" (by decide)]
    exact hobject
  refine ⟨hisObject, ?_⟩
  rw [ofRoot, ofRoot, if_pos hobject, if_pos hisObject, ofObject_eq, ofObject_eq]
  unfold requiredNames readProperties readFurther
  rw [hagree "required" (by decide), hagree "properties" (by decide),
    hagree "additionalProperties" (by decide)]

theorem declare_agree {fields others : Fields Json} {name : String} {d : Declarations}
    (h : declare (.object fields) name = .ok d) (hobject : isObjectDocument fields = true)
    (hagree : AgreeOn objectNames fields others) : declare (.object others) name = .ok d := by
  obtain ⟨hname, _, s, hfields, hroot, rfl⟩ := declare_eq_ok_iff.mp h
  cases hfields
  obtain ⟨hisObject, hsame⟩ := ofRoot_agree hagree hobject
  refine declare_eq_ok_iff.mpr ⟨hname, others, s, rfl, hsame.trans hroot, ?_⟩
  unfold descriptionOf bodyOf
  simp only [hagree "description" (by decide), hobject, hisObject]

theorem findSome?_found?_agree {fields others : Fields Json}
    (hagree : AgreeOn overridingNames fields others) :
    overriding.findSome? (found? others) = overriding.findSome? (found? fields) := by
  have hsame : overriding.map (found? others) = overriding.map (found? fields) :=
    List.map_congr_left fun keyword hkeyword => by
      rw [found?, found?, hagree _ (List.mem_cons_of_mem _ (List.mem_map_of_mem hkeyword))]
  have hfirst := congrArg (List.findSome? id) hsame
  rwa [List.findSome?_map, List.findSome?_map] at hfirst

/-- Where there is a keyword before the type, the first of these
decides. -/
theorem decision?_of_overriding {fields : Fields Json}
    (hpresent : ∃ keyword ∈ overriding, Fields.get? keyword.text fields ≠ none) :
    ∃ keyword ∈ overriding, ∃ value, decision? fields = some (keyword, value) ∧
      ∀ others, AgreeOn overridingNames fields others →
        decision? others = some (keyword, value) := by
  obtain ⟨present, hpresent, hget⟩ := hpresent
  cases hfirst : overriding.findSome? (found? fields) with
  | none =>
    have hnone := List.findSome?_eq_none_iff.mp hfirst present hpresent
    exact absurd (Option.map_eq_none_iff.mp hnone) hget
  | some decided =>
    obtain ⟨keyword, hkeyword, hdecided⟩ := List.exists_of_findSome?_eq_some hfirst
    obtain ⟨value, -, rfl⟩ := Option.map_eq_some_iff.mp hdecided
    refine ⟨keyword, hkeyword, value, ?_, fun others hagree => ?_⟩
    · rw [decision?_eq_or, hfirst, Option.some_or]
    · rw [decision?_eq_or, findSome?_found?_agree hagree, hfirst, Option.some_or]

/-- What such a keyword decides is read by it, and by the names of an
enumeration. -/
theorem readBy_agree {fields others : Fields Json} {keyword : Keyword}
    (hkeyword : keyword ∈ overriding) (hagree : AgreeOn overridingNames fields others)
    (place : Pointer) (value : Json) :
    readBy place others keyword value = readBy place fields keyword value := by
  cases keyword with
  | enum =>
    have hnames := hagree "tsEnumNames" List.mem_cons_self
    cases value <;> simp only [readBy, hnames]
  | type => exact absurd hkeyword (by decide)
  | properties => exact absurd hkeyword (by decide)
  | items => exact absurd hkeyword (by decide)
  | _ => cases value <;> rfl

/-- An object document with a keyword that comes before its type is
declared as an interface without regard to that, and in place the
keyword decides without regard to the rest. -/
theorem readApart_of_overriding {fields : Fields Json} {name : String} {d : Declarations}
    (h : declare (.object fields) name = .ok d) (hobject : isObjectDocument fields = true)
    (hpresent : ∃ keyword ∈ overriding, Fields.get? keyword.text fields ≠ none) :
    ReadApart fields name d where
  isInterface := by
    obtain ⟨_, _, _, _, _, _, _, hbody⟩ := declare_object h hobject
    exact ⟨_, _, hbody⟩
  declared := fun _ hagree => declare_agree h hobject hagree
  inPlace := fun others hagree place => by
    obtain ⟨keyword, hkeyword, value, hdecision, hothers⟩ := decision?_of_overriding hpresent
    rw [ofJson_object, ofJson_object, ofKeywords_eq, ofKeywords_eq, hdecision,
      hothers others hagree]
    exact readBy_agree hkeyword hagree place value

/-! ## 4. Declared and in place -/

/-- An expression in place is what a declaration declares: an inline
object with the members of an interface, or the type of an alias. -/
inductive InPlace : TypeBody → TypeExpr → Prop where
  | inline {e : TypeExpr} {members : List (PropertyHead × TypeExpr)} {further : Option TypeExpr} :
      e.alone = .object members further → InPlace (.interface members further) e
  | type (e : TypeExpr) : InPlace (.alias e) e

/-- The text in place is that of what is declared. -/
theorem InPlace.text_eq {body : TypeBody} {e : TypeExpr} (h : InPlace body e) (level : Nat) :
    e.text level = body.type.text level := by
  cases h with
  | inline halone =>
    rw [← TypeExpr.text_alone, halone]
    rfl
  | type => rfl

/-- What the type of a whole document is declared as and what it is in
place, both before anything else is declared. -/
theorem ofRoot_in_place {fields : Fields Json} {s : Schema} (h : ofRoot fields = .ok s)
    (hplain : isObjectDocument fields = true →
      ∀ keyword ∈ overriding, Fields.get? keyword.text fields = none)
    (place : Pointer) {name hint : String} (hhint : isObjectDocument fields = true ∨ hint = name) :
    ∃ t e, ofJson place (.object fields) = .ok t ∧ t.sites hint = s.sites name ∧
      (typeOf hint t).run [] = (e, ((typeOf name s).run []).2) ∧
      InPlace (bodyOf fields ((typeOf name s).run []).1) e := by
  have hchildren : ∀ sub, Child fields sub → ReadAnywhere sub := fun sub _ => readAnywhere sub
  unfold ofRoot at h
  simp only [ofJson_object]
  split at h
  · next hobject =>
    obtain ⟨required, properties, further, -, -, -, rfl⟩ := ofObject_eq_ok_iff.mp h
    have hbody : ∀ members rest, bodyOf fields (.object members rest) =
        .interface members rest := fun members rest => if_pos hobject
    rcases ofKeywords_of_object (hplain hobject) hobject (ofObject_anywhere hchildren place h)
      with hread | hread
    · refine ⟨_, _, hread, rfl, rfl, ?_⟩
      rw [typeOf_object, hbody]
      exact .inline rfl
    · refine ⟨_, _, hread, List.append_nil _, rfl, ?_⟩
      rw [typeOf_object, hbody]
      exact .inline rfl
  · next hobject =>
    obtain rfl : hint = name := hhint.resolve_left hobject
    refine ⟨s, _, ofKeywords_anywhere hchildren place h, rfl, rfl, ?_⟩
    have hbody : ∀ e, bodyOf fields e = .alias e := by
      intro e
      unfold bodyOf
      split
      · exact if_neg hobject
      · rfl
    rw [hbody]
    exact .type _

/-- A schema that is typed behind some sites and before others has the
names that its sites have in the end. -/
theorem typeOf_behind (s : Schema) (hint : String) (before after : List Site) :
    ((typeOf hint s).run (declareSites [] before)).1 =
      namedType (nameAmong (declareSites [] (before ++ s.sites hint ++ after))) hint s := by
  refine typeOf_run_named (declareSites_names_nodup _) s hint _ ?_
  rw [typeOf_run_sites, ← declareSites_append]
  exact declareSites_prefix [] (before ++ s.sites hint) after

/-- An interface has a member of the name, whose type is as said. -/
def HasMember (d : Declarations) (name : String) (p : TypeExpr → Prop) : Prop :=
  ∃ members further, d.body = .interface members further ∧
    ∃ member ∈ members, member.1.name = name ∧ p member.2

/-- A schema that is a property of an object document has a member there
with the names of the whole document. -/
theorem declare_hasMember {outer properties fields : Fields Json} {outerName hint : String}
    {whole : Declarations} (h : declare (.object outer) outerName = .ok whole)
    (hobject : isObjectDocument outer = true) (hproperties : HasProperties outer properties)
    (hmem : (hint, .object fields) ∈ properties) {place : Pointer} {t : Schema}
    (ht : ofJson place (.object fields) = .ok t) :
    ∃ sites, whole.enumerations = declareSites [] sites ∧ t.sites hint ⊆ sites ∧
      HasMember whole hint (· = namedType (nameAmong whole.enumerations) hint t) := by
  obtain ⟨required, read, further, -, hread, -, henums, hbody⟩ := declare_object h hobject
  rcases hproperties with ⟨-, rfl⟩ | hget
  · exact absurd hmem List.not_mem_nil
  · rw [readProperties, hget] at hread
    obtain ⟨p, hp, hhead, hschema⟩ :=
      exists_right_of_mem (ofProperties_eq_ok_iff.mp hread) _ hmem
    have hname : p.1.name = hint := by rw [hhead]
    have hp2 : p.2 = t :=
      Except.ok.inj ((readAnywhere _ _ place _ hschema).symm.trans ht)
    refine ⟨_, henums, fun site hsite => ?_, _, _, hbody, ?_⟩
    · rw [← hname, ← hp2] at hsite
      exact List.mem_append_left _ (mem_propertySites_iff.mpr ⟨p, hp, hsite⟩)
    · rw [namedMembers_eq_map]
      refine ⟨_, List.mem_map_of_mem hp, hname, ?_⟩
      rw [hname, hp2]

/-- A document that is declared is read in place as well, and is the
same type there, unless it is an object document with a keyword that
comes before the type. Before anything else is declared the expression is
that of the declaration, in place and on its own, and its text is the
same up to indentation; behind other sites it stands for the same,
whatever its enumerations are called. In the interface of an object
document that has it as a property, it is the type of a member. An
object document with such a keyword is an interface all the same, and in
place what the keyword says. -/
theorem declare_in_place {fields : Fields Json} {name : String} {d : Declarations}
    (h : declare (.object fields) name = .ok d)
    (place : Pointer) {hint : String} (hhint : isObjectDocument fields = true ∨ hint = name) :
    ((isObjectDocument fields = true →
        ∀ keyword ∈ overriding, Fields.get? keyword.text fields = none) →
      ∃ t e, ofJson place (.object fields) = .ok t ∧
        (typeOf hint t).run [] = (e, d.enumerations) ∧ InPlace d.body e ∧
        (∀ level, e.text level = d.body.type.text level ∧
          withoutIndent (e.text level) = withoutIndent (d.body.type.text 0)) ∧
        (∀ before after, Renamed (declareSites [] (before ++ t.sites hint ++ after)) d.enumerations
          ((typeOf hint t).run (declareSites [] before)).1 e) ∧
        ∀ outer outerName whole properties, declare (.object outer) outerName = .ok whole →
          isObjectDocument outer = true → HasProperties outer properties →
          (hint, .object fields) ∈ properties →
          HasMember whole hint fun type => Renamed whole.enumerations d.enumerations type e ∧
            (d.enumerations <+: whole.enumerations → type = e)) ∧
    (isObjectDocument fields = true →
      (∃ keyword ∈ overriding, Fields.get? keyword.text fields ≠ none) →
        ReadApart fields name d) := by
  refine ⟨fun hplain => ?_, readApart_of_overriding h⟩
  obtain ⟨-, _, s, hfields, hroot, rfl⟩ := declare_eq_ok_iff.mp h
  cases hfields
  obtain ⟨t, e, ht, hsites, hrun, hplace⟩ := ofRoot_in_place hroot hplain place hhint
  have henums : ((typeOf name s).run []).2 = declareSites [] (t.sites hint) := by
    rw [typeOf_run_sites, hsites]
  have he : e = namedType (nameAmong (declareSites [] (t.sites hint))) hint t := by
    have hnamed := typeOf_behind t hint [] []
    rw [List.nil_append, List.append_nil] at hnamed
    rw [← hnamed]
    exact (congrArg Prod.fst hrun).symm
  refine ⟨t, e, ht, hrun, hplace, fun level => ⟨hplace.text_eq level, ?_⟩, ?_, ?_⟩
  · rw [hplace.text_eq, TypeExpr.withoutIndent_text level 0]
  · intro before after
    rw [typeOf_behind t hint before after, he, henums]
    exact namedType_renamed t hint fun site hsite =>
      ⟨List.mem_append_left _ (List.mem_append_right _ hsite), hsite⟩
  · intro outer outerName whole properties hwhole hobject hproperties hmem
    obtain ⟨sites, hsites', hsub, members, further, hbody, member, hmember, hname, htype⟩ :=
      declare_hasMember hwhole hobject hproperties hmem ht
    refine ⟨members, further, hbody, member, hmember, hname, ?_⟩
    rw [htype, hsites']
    constructor
    · rw [he, henums]
      exact namedType_renamed t hint fun site hsite => ⟨hsub hsite, hsite⟩
    · intro hprefix
      rw [← typeOf_run_named (declareSites_names_nodup sites) t hint []]
      · rw [hrun]
      · rw [hrun]
        exact hprefix

/-- A closed record with one member. -/
def closedRecord : Fields Json :=
  [("properties", .object [("a", .object [("type", .string "string")])]),
    ("additionalProperties", .bool false)]

/-- In the place of a property it is an inline object, one level
deeper. -/
theorem closedRecord_in_place : ∃ d t e, declare (.object closedRecord) "Closed" = .ok d ∧
    ofJson ["properties", "p"] (.object closedRecord) = .ok t ∧ (typeOf "p" t).run [] = (e, []) ∧
      d.body.text "Closed" = "export interface Closed \x7b\n  a?: string;\n\x7d\n" ∧
      e.text 1 = "\x7b\n    a?: string;\n  \x7d" := by
  have hread : ofRoot closedRecord =
      .ok (.object [(⟨"a", none, false⟩, .union [.primitive .string])] none) := by
    simp [ofRoot, isObjectDocument, closedRecord, ofKeywords, ofObject, ofProperties, ofJson,
      Fields.get?, Fields.contains, typeNames, alternatives, TypeName.ofText?, TypeName.all,
      TypeName.text, TypeName.alternative, unionOf, primitiveOf?, requiredNames, descriptionOf,
      bind, Except.bind, pure, Except.pure]
  have hdeclare : declare (.object closedRecord) "Closed" = .ok ⟨"Closed", none,
      .interface [(⟨"a", none, false⟩, .union [.name "string"])] none, []⟩ :=
    declare_eq_ok_iff.mpr ⟨by decide, closedRecord, _, rfl, hread, rfl⟩
  have hobject : isObjectDocument closedRecord = true := by decide
  obtain ⟨t, e, ht, hrun, -, htext, -⟩ := (declare_in_place hdeclare ["properties", "p"]
    (show _ ∨ "p" = "Closed" from .inl hobject)).1 fun _ => by decide
  refine ⟨_, t, e, hdeclare, ht, hrun, by decide, ?_⟩
  rw [(htext 1).1]
  decide

/-- An object that has its type by source text. -/
def sourcedRecord : Fields Json := [("type", .string "object"), ("tsType", .string "Source")]

/-- It is declared as an interface, and is its source text in place. -/
theorem sourcedRecord_not_in_place : ∃ d, declare (.object sourcedRecord) "Record" = .ok d ∧
    d.body = .interface [] (some (.name "any")) ∧ ∀ place hint, ∃ t,
      ofJson place (.object sourcedRecord) = .ok t ∧
      (typeOf hint t).run [] = (.verbatim "Source", []) ∧
      ¬InPlace d.body (.verbatim "Source") ∧
      withoutIndent ((TypeExpr.verbatim "Source").text 1) ≠ withoutIndent (d.body.type.text 0) := by
  have hread : ofRoot sourcedRecord = .ok (.object [] (some (.primitive .any))) := by
    simp [ofRoot, isObjectDocument, sourcedRecord, ofObject, Fields.get?, requiredNames, bind,
      Except.bind, pure, Except.pure]
  have hdeclare : declare (.object sourcedRecord) "Record" = .ok ⟨"Record", none,
      .interface [] (some (.name "any")), []⟩ :=
    declare_eq_ok_iff.mpr ⟨by decide, sourcedRecord, _, rfl, hread, rfl⟩
  refine ⟨_, hdeclare, rfl, fun place hint => ⟨.verbatim "Source", ?_, rfl, ?_, by decide⟩⟩
  · simp [ofJson, ofKeywords, sourcedRecord, Fields.get?]
  · intro h
    cases h with
    | inline halone => cases halone

end JsonSchema

end TableMapper
