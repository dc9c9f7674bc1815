/-
TableMapper.Proofs.JsonSchema.Meaning — when a declared type is read as
what its document says.

`declare_meant_iff` puts the two halves together: the expression of a
declaration says what the document does, and its text and the texts of
all of its parts are read as the types that they stand for if and only
if the parts are sound. A sound array has one operand before its
brackets, and a sound intersection has no alternatives behind or before
its ampersands; what is put in parentheses depends on how the text
begins, so that not every declaration is sound: operands whose text
begins with a brace are left bare, and no others (`typeOf_operands`).
-/
import TableMapper.Proofs.Dictionary
import TableMapper.Proofs.JsonSchema.Expressed

namespace TableMapper

/-! ## 1. The type of a body -/

namespace TypeScript.TypeBody

/-- The expression that is declared. The members of an interface are
those of an object type. -/
def type : TypeBody → TypeExpr
  | .interface members further => .object members further
  | .alias type => type

/-- The text of the expression stands in the text of the declaration. -/
theorem text_eq (name : String) : ∀ body : TypeBody, ∃ before after : String,
    body.text name = before ++ body.type.text 0 ++ after
  | .interface _ _ => ⟨"export interface " ++ name ++ " ", "\n", rfl⟩
  | .alias _ => ⟨"export type " ++ name ++ " = ", ";\n", rfl⟩

end TypeScript.TypeBody

namespace JsonSchema

open TypeScript (TypeExpr Enumeration Declarations)

@[simp] theorem bodyOf_type (fields : Fields Json) (e : TypeExpr) : (bodyOf fields e).type = e := by
  unfold bodyOf
  split
  · split <;> rfl
  · rfl

/-! ## 2. Names that do not occur -/

mutual

/-- Whether a name is that of a field somewhere in a document. -/
def mentions (name : String) : Json → Bool
  | .array items => mentionsInItems name items
  | .object fields => mentionsInFields name fields
  | _ => false

/-- Whether a name is that of a field somewhere in one of the items. -/
def mentionsInItems (name : String) : List Json → Bool
  | [] => false
  | item :: rest => mentions name item || mentionsInItems name rest

/-- Whether a name is that of a field or of one further in. -/
def mentionsInFields (name : String) : Fields Json → Bool
  | [] => false
  | (other, value) :: rest => other == name || mentions name value || mentionsInFields name rest

end

theorem mentionsInItems_of_mem {name : String} {item : Json} {items : List Json}
    (hmem : item ∈ items) (h : mentions name item = true) : mentionsInItems name items = true := by
  induction items with
  | nil => exact absurd hmem List.not_mem_nil
  | cons first rest ih =>
    rw [mentionsInItems, Bool.or_eq_true]
    rcases List.mem_cons.mp hmem with rfl | hmem
    · exact .inl h
    · exact .inr (ih hmem)

theorem mentionsInFields_of_mem {name other : String} {value : Json} {fields : Fields Json}
    (hmem : (other, value) ∈ fields) (h : other = name ∨ mentions name value = true) :
    mentionsInFields name fields = true := by
  induction fields with
  | nil => exact absurd hmem List.not_mem_nil
  | cons first rest ih =>
    rw [mentionsInFields, Bool.or_eq_true, Bool.or_eq_true, beq_iff_eq]
    rcases List.mem_cons.mp hmem with rfl | hmem
    · exact .inl h
    · exact .inr (ih hmem)

theorem mentions_of_child {name : String} {fields : Fields Json} {sub : Json}
    (hchild : Child fields sub) (h : mentions name sub = true) :
    mentions name (.object fields) = true := by
  have hget : ∀ {keyword : String} {value : Json}, Fields.get? keyword fields = some value →
      mentions name value = true → mentions name (.object fields) = true :=
    fun hget hvalue => mentionsInFields_of_mem (Fields.mem_of_get? hget) (.inr hvalue)
  cases hchild with
  | branch _ hbranches hmem => exact hget hbranches (mentionsInItems_of_mem hmem h)
  | under _ hunder => exact hget hunder h
  | property hproperties hmem => exact hget hproperties (mentionsInFields_of_mem hmem (.inr h))

/-- A document in which the name does not occur has no schema with
source text. -/
theorem noSource_of_not_mentions {document : Json} (h : mentions "tsType" document = false) :
    NoSource document := by
  have hwithin : ∀ {inner document : Json}, Within inner document →
      mentions "tsType" inner = true → mentions "tsType" document = true := by
    intro inner document hinner hmentions
    induction hinner with
    | self => exact hmentions
    | child hchild _ ih => exact mentions_of_child hchild ih
  intro fields hfields
  cases hget : Fields.get? "tsType" fields with
  | none => rfl
  | some value =>
    have hmentions : mentions "tsType" (.object fields) = true :=
      mentionsInFields_of_mem (Fields.mem_of_get? hget) (.inl rfl)
    exact absurd ((hwithin hfields hmentions).symm.trans h) Bool.false_ne_true.symm

/-! ## 3. Operands -/

mutual

/-- In what a schema is typed as, the operands that are compound begin
with a brace. -/
theorem typeOf_operands : ∀ (s : Schema) (hint : String) (known : List Enumeration),
    TypeExpr.All TypeExpr.OperandsByBrace ((typeOf hint s).run known).1.parts
  | .primitive _, _, _ => List.forall_mem_singleton.mpr trivial
  | .never, _, _ => List.forall_mem_singleton.mpr trivial
  | .verbatim _, _, _ => List.forall_mem_singleton.mpr trivial
  | .constant _, _, _ => List.forall_mem_singleton.mpr trivial
  | .enumeration members, hint, known => by
    rw [typeOf_enumeration, declareEnumeration_run]
    exact List.forall_mem_singleton.mpr trivial
  | .choice values, _, _ =>
    List.forall_mem_cons.mpr ⟨trivial, all_literals (fun _ => trivial) values⟩
  | .union branches, hint, known =>
    List.forall_mem_cons.mpr ⟨trivial, typesOf_operands branches hint known⟩
  | .intersection branches, hint, known => by
    rw [typeOf_intersection, TypeExpr.parts, partsOf_map_operand]
    refine List.forall_mem_cons.mpr ⟨?_, typesOf_operands branches hint known⟩
    exact List.forall_mem_map.mpr fun e _ => TypeExpr.bareByBrace_operand e
  | .array element, hint, known => by
    rw [typeOf_array, TypeExpr.parts, parts_operand]
    exact List.forall_mem_cons.mpr
      ⟨TypeExpr.bareByBrace_operand _, typeOf_operands element hint known⟩
  | .tuple elements, hint, known =>
    List.forall_mem_cons.mpr ⟨trivial, typesOf_operands elements hint known⟩
  | .object properties further, _, known =>
    List.forall_mem_cons.mpr ⟨trivial, List.forall_mem_append.mpr
      ⟨membersOf_operands properties known, furtherOf_operands further _⟩⟩

theorem typesOf_operands : ∀ (schemas : List Schema) (hint : String) (known : List Enumeration),
    TypeExpr.All TypeExpr.OperandsByBrace
      (TypeExpr.partsOf ((typesOf hint schemas).run known).1)
  | [], _, _ => fun _ h => absurd h List.not_mem_nil
  | s :: rest, hint, known => List.forall_mem_append.mpr
      ⟨typeOf_operands s hint known, typesOf_operands rest hint _⟩

theorem membersOf_operands : ∀ (properties : List (PropertyHead × Schema))
    (known : List Enumeration), TypeExpr.All TypeExpr.OperandsByBrace
      (TypeExpr.partsOfMembers ((membersOf properties).run known).1)
  | [], _ => fun _ h => absurd h List.not_mem_nil
  | (head, s) :: rest, known => List.forall_mem_append.mpr
      ⟨typeOf_operands s head.name known, membersOf_operands rest _⟩

theorem furtherOf_operands : ∀ (further : Option Schema) (known : List Enumeration),
    TypeExpr.All TypeExpr.OperandsByBrace
      (TypeExpr.partsOfFurther ((furtherOf further).run known).1)
  | none, _ => fun _ h => absurd h List.not_mem_nil
  | some s, known => typeOf_operands s "additional" known

end

/-! ## 4. Declarations -/

/-- A whole document expresses a type: an object document as an object,
whatever other keywords it has. -/
def ExpressesRoot (enums : List Enumeration) (document : Json) (type : TypeExpr) : Prop :=
  match document with
  | .object fields =>
    if isObjectDocument fields then ExpressesAs enums (.object, fields) type
    else Expresses enums document type
  | _ => False

/-- The schema of a whole document is typed as what the document
says. -/
theorem ofRoot_typed {enums : List Enumeration} {fields : Fields Json} {s : Schema}
    (hsource : NoSource (.object fields)) (h : ofRoot fields = .ok s) :
    Typed enums (ExpressesRoot enums (.object fields)) s := by
  have hchildren : ∀ sub, Child fields sub → IsTyped enums sub :=
    fun sub hsub => isTyped_of_noSource sub (hsource.child hsub)
  unfold ofRoot at h
  intro hint known hknown
  rw [ExpressesRoot]
  split at h
  · next hobject =>
    rw [if_pos hobject]
    exact ofObject_typed hchildren h hint known hknown
  · next hobject =>
    rw [if_neg hobject]
    exact ofKeywords_typed hchildren (hsource fields .self) h hint known hknown

/-- The expression of a declaration says what the document does, and its
parts are read as they are meant if and only if they are sound. Where
they are not because operands are compound, these begin with a brace. -/
theorem declare_meant_iff {document : Json} {name : String} {d : Declarations}
    (hsource : NoSource document) (h : declare document name = .ok d)
    (levels : TypeExpr → Nat) :
    ExpressesRoot d.enumerations document d.body.type ∧
      (TypeExpr.All (fun e => e.IsMeant (levels e)) d.body.type.parts ↔
        TypeExpr.All TypeExpr.Sound d.body.type.parts) ∧
      TypeExpr.All TypeExpr.OperandsByBrace d.body.type.parts := by
  obtain ⟨-, fields, s, rfl, hroot, rfl⟩ := declare_eq_ok_iff.mp h
  simp only [bodyOf_type]
  obtain ⟨hexpresses, hverbatim⟩ := ofRoot_typed hsource hroot name [] (List.prefix_refl _)
  exact ⟨hexpresses, TypeExpr.isMeant_parts_iff hverbatim levels, typeOf_operands s name []⟩

/-- A list of closed records or texts. -/
def recordOrTextList : Fields Json :=
  [("items", .object [("anyOf", .array [
    .object [("type", .string "object"), ("additionalProperties", .bool false)],
    .object [("type", .string "string")]])])]

/-- Its text begins with a brace, so that the brackets are those of the
texts alone. -/
theorem recordOrTextList_not_meant : ∃ d,
    declare (.object recordOrTextList) "List" = .ok d ∧
      NoSource (.object recordOrTextList) ∧
        ¬TypeExpr.All (fun e => e.IsMeant 0) d.body.type.parts := by
  have hsource : NoSource (.object recordOrTextList) := noSource_of_not_mentions (by decide)
  have hread : ofRoot recordOrTextList = .ok (.array (.union
      [.union [.object [] none], .union [.primitive .string]])) := by
    simp [ofRoot, isObjectDocument, recordOrTextList, ofKeywords, ofArray, ofObject, ofJson,
      ofBranches, Fields.get?, Fields.contains, typeNames, alternatives, TypeName.ofText?,
      TypeName.all, TypeName.text, TypeName.alternative, unionOf, primitiveOf?, Except.map,
      requiredNames, bind, Except.bind, pure, Except.pure]
  have hdeclare : declare (.object recordOrTextList) "List" = .ok ⟨"List", none,
      .alias (.array (.union [.union [.object [] none], .union [.name "string"]])), []⟩ :=
    declare_eq_ok_iff.mpr ⟨by decide, recordOrTextList, _, rfl, hread, rfl⟩
  refine ⟨_, hdeclare, hsource, fun hmeant => ?_⟩
  have hsound := (declare_meant_iff hsource hdeclare fun _ => 0).2.1.mp hmeant
  have hgrouped := (hsound _ List.mem_cons_self).grouped
  exact absurd hgrouped Bool.false_ne_true.symm

end JsonSchema

end TableMapper
