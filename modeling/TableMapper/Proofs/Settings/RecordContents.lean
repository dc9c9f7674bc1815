/-
TableMapper.Proofs.Settings.RecordContents — what the records of a
configuration hold.

A record is described by one clause for each of its fields: a field that
must be there is `Given`, and one that may be left out has a default
(`GivenOr`). All other names are excluded, except in the schema of a
property, which keeps them as keywords.
-/
import Mathlib.Tactic.MkIffOfInductiveProp
import TableMapper.Proofs.Settings.Contents

namespace TableMapper

open JsonSchema (TypeName)
open Yaml (Node)

namespace Yaml.Node

/-- The entries under other names than the given one. -/
def without (name : String) : List (Node × Node) → List (Node × Node)
  | [] => []
  | (.text key, value) :: rest =>
    if key = name then without name rest else (.text key, value) :: without name rest
  | entry :: rest => entry :: without name rest

theorem without_sublist (name : String) (entries : List (Node × Node)) :
    (without name entries).Sublist entries := by
  induction entries using textKeys.induct with
  | case1 => exact .slnil
  | case2 key value rest ih =>
    rw [without]
    split
    · exact .cons _ ih
    · exact .cons_cons _ ih
  | case3 first rest hkey ih =>
    rw [without.eq_3 _ _ _ hkey]
    exact .cons_cons _ ih

theorem textKeys_sublist {entries others : List (Node × Node)} (h : entries.Sublist others) :
    (textKeys entries).Sublist (textKeys others) := by
  induction h with
  | slnil => exact .slnil
  | @cons _ _ entry h ih =>
    obtain ⟨key, value⟩ := entry
    cases key with
    | text key => exact .cons _ ih
    | _ => exact ih
  | @cons_cons _ _ entry h ih =>
    obtain ⟨key, value⟩ := entry
    cases key with
    | text key => exact .cons_cons _ ih
    | _ => exact ih

end Yaml.Node

namespace Settings

/-! ## 1. Fields -/

section Fields

variable {α : Type}

/-- A field that must be there stands for a value. -/
inductive Given (means : Node → α → Prop) : Option Node → α → Prop where
  | intro {node : Node} {a : α} (h : means node a) : Given means (some node) a

theorem Given.exists_node {means : Node → α → Prop} {field : Option Node} {a : α}
    (h : Given means field a) : ∃ node, field = some node ∧ means node a := by
  cases h with
  | intro h => exact ⟨_, rfl, h⟩

/-- A field stands for a value, or is left out for the default. -/
inductive GivenOr (default : α) (means : Node → α → Prop) : Option Node → α → Prop where
  | absent : GivenOr default means none default
  | given {node : Node} {a : α} (h : means node a) : GivenOr default means (some node) a

variable {read : Node → Outcome α} {means : Node → α → Prop} {node : Node} {name : String}

theorem valueIn_eq_some_iff (h : Exact read means) (hnode : node.Distinct) {a : α} :
    valueIn read node name = .ok (some a) ↔ Given means (node.field? name) a := by
  unfold valueIn
  cases hfield : node.field? name with
  | none => exact ⟨nofun, nofun⟩
  | some value =>
    dsimp only
    rw [map_eq_ok_iff]
    constructor
    · rintro ⟨_, hread, ⟨⟩⟩
      exact .intro ((h (hnode.field hfield)).mp hread)
    · rintro ⟨hmeans⟩
      exact ⟨a, (h (hnode.field hfield)).mpr hmeans, rfl⟩

theorem givenOr_iff (h : Exact read means) (hnode : node.Distinct) {default a : α} :
    GivenOr default means (node.field? name) a ↔
      ∃ value, valueIn read node name = .ok value ∧ value.getD default = a := by
  cases hfield : node.field? name with
  | none =>
    have hvalue : valueIn read node name = .ok none := by rw [valueIn, hfield]
    rw [hvalue]
    constructor
    · rintro ⟨⟩
      exact ⟨none, rfl, rfl⟩
    · rintro ⟨_, ⟨⟩, rfl⟩
      exact .absent
  | some value =>
    constructor
    · rintro (_ | hmeans)
      refine ⟨some a, (valueIn_eq_some_iff h hnode).mpr ?_, rfl⟩
      rw [hfield]
      exact .intro hmeans
    · rintro ⟨o, ho, rfl⟩
      cases o with
      | none =>
        rw [valueIn, hfield] at ho
        obtain ⟨_, -, ⟨⟩⟩ := map_eq_ok_iff.mp ho
      | some a =>
        have hgiven := (valueIn_eq_some_iff h hnode).mp ho
        rw [hfield] at hgiven
        cases hgiven with
        | intro hmeans => exact .given hmeans

end Fields

/-! ## 2. Types of properties -/

/-- A value stands for a type name: its word, or a mapping from its word
or its number to a null. -/
inductive IsTypeName : Node → TypeName → Prop where
  | word (name : TypeName) : IsTypeName (.text name.text) name
  | tagged (name : TypeName) : IsTypeName (.mapping [(.text name.text, .null)]) name
  | numbered {n : Nat} {name : TypeName} (h : TypeName.all[n]? = some name) :
    IsTypeName (.mapping [(.whole n, .null)]) name

/-- A value stands for a type: a name, or a list of names. -/
inductive IsSchemaType : Node → SchemaType → Prop where
  | single {node : Node} {name : TypeName} (h : IsTypeName node name) :
    IsSchemaType node (.single name)
  | union {nodes : List Node} {names : List TypeName} (h : List.Forall₂ IsTypeName nodes names) :
    IsSchemaType (.sequence nodes) (.union names)

theorem ofText?_eq_some_iff {s : String} {name : TypeName} :
    TypeName.ofText? s = some name ↔ s = name.text := by
  constructor
  · intro h
    exact (beq_iff_eq.mp (List.find?_some (p := fun name : TypeName => name.text == s) h)).symm
  · rintro rfl
    exact typeName?_text name

theorem typeName?_eq_some_iff {node : Node} {name : TypeName} :
    typeName? node = some name ↔ IsTypeName node name := by
  constructor
  · intro h
    unfold typeName? at h
    split at h
    · rw [ofText?_eq_some_iff.mp h]
      exact .word name
    · rw [ofText?_eq_some_iff.mp h]
      exact .tagged name
    · next n =>
      split at h
      · cases h
      · next hn =>
        obtain ⟨k, rfl⟩ := Int.eq_ofNat_of_zero_le (Int.not_lt.mp hn)
        exact .numbered h
    · cases h
  · intro h
    cases h with
    | word => exact typeName?_text name
    | tagged => exact typeName?_text name
    | @numbered n _ h =>
      rw [typeName?, if_neg (Int.not_lt.mpr (Int.natCast_nonneg n))]
      exact h

theorem mapM_eq_some_iff {β γ : Type} {f : β → Option γ} {xs : List β} {ys : List γ} :
    xs.mapM f = some ys ↔ List.Forall₂ (fun x y => f x = some y) xs ys := by
  induction xs generalizing ys with
  | nil => simp [eq_comm]
  | cons x rest ih =>
    rw [List.mapM_cons, List.forall₂_cons_left_iff]
    simp [Option.bind_eq_some_iff, ih, @eq_comm _ ys]

theorem exact_schemaType : Exact readSchemaType IsSchemaType := by
  intro node _ type
  constructor
  · intro h
    unfold readSchemaType at h
    split at h
    · next name hname =>
      cases h
      exact .single (typeName?_eq_some_iff.mp hname)
    · split at h
      · split at h
        · next names hnames =>
          cases h
          exact .union (List.Forall₂.imp (fun _ _ => typeName?_eq_some_iff.mp)
            (mapM_eq_some_iff.mp hnames))
        · cases h
      · cases h
  · intro h
    cases h with
    | single h =>
      unfold readSchemaType
      rw [typeName?_eq_some_iff.mpr h]
    | @union nodes names h =>
      have hnames : nodes.mapM typeName? = some names :=
        mapM_eq_some_iff.mpr (List.Forall₂.imp (fun _ _ => typeName?_eq_some_iff.mpr) h)
      have hnone : typeName? (.sequence nodes) = none := rfl
      unfold readSchemaType
      rw [hnone]
      simp only [hnames]

/-! ## 3. Properties -/

/-- A mapping stands for the schema of a property: one entry is its
type, and all others are keywords, in order. -/
inductive IsProperty : Node → PropertySchema → Prop where
  | mapping {entries : List (Node × Node)} {p : PropertySchema}
    (htype : Given IsSchemaType (Node.lookup? "type" entries) p.type)
    (h : List.Forall₂ (IsEntry IsDocument) (Node.without "type" entries) p.keywords.entries) :
    IsProperty (.mapping entries) p

/-- Names with values, as entries. -/
def asEntries (others : List (String × Node)) : List (Node × Node) :=
  others.map fun (name, v) => (.text name, v)

theorem cons_ne_asEntries {key v : Node} {rest : List (Node × Node)}
    {others : List (String × Node)} (h : ∀ name, key ≠ .text name) :
    (key, v) :: rest ≠ asEntries others := by
  cases others with
  | nil => exact List.cons_ne_nil _ _
  | cons other others =>
    intro heq
    obtain ⟨hfirst, -⟩ := List.cons.inj heq
    exact h other.1 (congrArg Prod.fst hfirst)

/-- The type is what stands under its name, and the other keywords are
kept in order. -/
theorem readPropertyEntries_eq_ok_iff {entries : List (Node × Node)}
    (hkeys : (Node.textKeys entries).Nodup) {draft last : PropertyDraft} :
    readPropertyEntries draft entries = .ok last ↔ ∃ type others,
      valueIn readSchemaType (.mapping entries) "type" = .ok type ∧
        Node.without "type" entries = asEntries others ∧
        last = ⟨type.or draft.type, draft.others ++ others⟩ := by
  induction entries generalizing draft last with
  | nil =>
    constructor
    · rintro ⟨⟩
      exact ⟨none, [], rfl, rfl, by simp⟩
    · rintro ⟨_, others, ⟨⟩, hothers, rfl⟩
      rw [List.map_eq_nil_iff.mp hothers.symm]
      simp [readPropertyEntries]
  | cons entry rest ih =>
    obtain ⟨key, node⟩ := entry
    cases key with
    | text name =>
      rw [Node.textKeys, List.nodup_cons] at hkeys
      rw [readPropertyEntries, Node.without, valueIn, Node.field?, Node.lookup?_cons_text]
      by_cases hname : name = "type"
      · have hnone : valueIn readSchemaType (.mapping rest) "type" = .ok none := by
          rw [valueIn, Node.field?, Node.lookup?_of_notMem (hname ▸ hkeys.1)]
        rw [if_pos hname, if_pos hname, if_pos hname, bind_eq_ok_iff]
        constructor
        · rintro ⟨type, htype, h⟩
          obtain ⟨_, others, hvalue, hothers, rfl⟩ := (ih hkeys.2).mp h
          cases hnone.symm.trans hvalue
          exact ⟨some type, others, map_eq_ok_iff.mpr ⟨type, htype, rfl⟩, hothers, rfl⟩
        · rintro ⟨_, others, hvalue, hothers, rfl⟩
          obtain ⟨type, htype, rfl⟩ := map_eq_ok_iff.mp hvalue
          exact ⟨type, htype, (ih hkeys.2).mpr ⟨none, others, hnone, hothers, rfl⟩⟩
      · rw [if_neg hname, if_neg hname, if_neg hname, ih hkeys.2]
        constructor
        · rintro ⟨type, others, hvalue, hothers, rfl⟩
          refine ⟨type, (name, node) :: others, hvalue, congrArg _ hothers, ?_⟩
          simp
        · rintro ⟨type, others, hvalue, hothers, rfl⟩
          cases others with
          | nil => cases hothers
          | cons other others =>
            obtain ⟨hfirst, htail⟩ := List.cons.inj hothers
            cases hfirst
            refine ⟨type, others, hvalue, htail, ?_⟩
            simp
    | _ =>
      constructor
      · intro h
        cases h
      · rintro ⟨_, _, _, hothers, _⟩
        exact absurd hothers (cons_ne_asEntries fun _ h => by cases h)

/-- Entries that stand for fields have texts for keys. -/
theorem exists_asEntries {α : Type} {means : Node → α → Prop} {entries : List (Node × Node)}
    {fields : Fields α} (h : List.Forall₂ (IsEntry means) entries fields) :
    ∃ others, entries = asEntries others := by
  induction h with
  | nil => exact ⟨[], rfl⟩
  | @cons entry field _ _ hentry _ ih =>
    obtain ⟨others, rfl⟩ := ih
    exact ⟨(field.1, entry.2) :: others, congrArg (· :: _) (Prod.ext hentry.key rfl)⟩

theorem exact_property : Exact readProperty IsProperty := by
  intro node hnode p
  cases hnode with
  | null => exact ⟨nofun, nofun⟩
  | @mapping entries hkeys hvalues =>
    have hothers : ∀ entry ∈ Node.without "type" entries, ∀ v,
        readDocument entry.2 = .ok v ↔ IsDocument entry.2 v := fun entry hentry v =>
      exact_document (hvalues entry ((Node.without_sublist _ _).subset hentry))
    have hnames := (Node.textKeys_sublist (Node.without_sublist "type" entries)).nodup hkeys
    have hkeywords := fun d => @readEntries_eq_ok_iff _ _ _ _ hothers hnames .empty d
      fun _ _ => List.not_mem_nil
    have hdistinct : (Node.mapping entries).Distinct := .mapping hkeys hvalues
    rw [readProperty, bind_eq_ok_iff]
    constructor
    · rintro ⟨draft, hdraft, h⟩
      obtain ⟨type?, others, hvalue, hentries, rfl⟩ :=
        (readPropertyEntries_eq_ok_iff hkeys).mp hdraft
      obtain ⟨type, htype, h⟩ := bind_eq_ok_iff.mp h
      obtain ⟨keywords, hread, ⟨⟩⟩ := bind_eq_ok_iff.mp h
      have htype : type? = some type := (Option.or_none).symm.trans (demand_eq_ok_iff.mp htype)
      have hread : readEntries readDocument .empty (asEntries others) = .ok keywords :=
        (readKeywords_eq others .empty).symm.trans hread
      rw [htype] at hvalue
      rw [← hentries] at hread
      obtain ⟨_, hfields, rfl⟩ := (hkeywords keywords).mp hread
      exact .mapping ((valueIn_eq_some_iff exact_schemaType hdistinct).mp hvalue) hfields
    · rintro ⟨htype, hfields⟩
      obtain ⟨others, hentries⟩ := exists_asEntries hfields
      have hread := (hkeywords p.keywords).mpr ⟨_, hfields, rfl⟩
      rw [hentries] at hread
      have hread : readKeywords .empty others = .ok p.keywords :=
        (readKeywords_eq others .empty).trans hread
      have hvalue : valueIn readSchemaType (.mapping entries) "type" = .ok (some p.type) :=
        (valueIn_eq_some_iff exact_schemaType hdistinct).mpr htype
      refine ⟨⟨some p.type, others⟩,
        (readPropertyEntries_eq_ok_iff hkeys).mpr ⟨_, others, hvalue, hentries, rfl⟩, ?_⟩
      exact bind_eq_ok_iff.mpr ⟨_, rfl, bind_eq_ok_iff.mpr ⟨_, hread, rfl⟩⟩
  | _ => exact ⟨nofun, nofun⟩

/-! ## 4. Record schemas -/

/-- The type of a record schema says nothing new. -/
def IsObjectTag (node : Node) (_ : Unit) : Prop := node = .text "object"

theorem exact_objectTag : Exact readObjectTag IsObjectTag := by
  intro node _ _
  cases node with
  | text s => by_cases hs : s = "object" <;> simp [readObjectTag, IsObjectTag, hs]
  | _ => simp [readObjectTag, IsObjectTag]

theorem exact_texts : Exact (readOptional (readList readText)) (IsOptional (IsList IsText)) :=
  exact_optional (exact_list exact_text)

/-- A value stands for the schema of a record. -/
@[mk_iff]
structure IsRecordSchema (node : Node) (r : RecordSchema) : Prop where
  only : node.HasOnly ["name", "type", "required", "properties", "additionalProperties"]
  name : Given IsText (node.field? "name") r.name
  type : Given IsObjectTag (node.field? "type") ()
  required : GivenOr none (IsOptional (IsList IsText)) (node.field? "required") r.required
  properties : GivenOr .empty (IsMap IsProperty) (node.field? "properties") r.properties
  additionalProperties :
    GivenOr none (IsOptional IsBool) (node.field? "additionalProperties") r.additionalProperties

theorem recordFields_independent : Independent recordFields where
  names := by decide
  commute := by simp [recordFields, Field.Commutes.reading]

theorem readDeclared_recordFields (node : Node) : readDeclared node recordFields {} = do
    let name ← valueIn readText node "name"
    let tag ← valueIn readObjectTag node "type"
    let required ← valueIn (readOptional (readList readText)) node "required"
    let properties ← valueIn (readMap readProperty) node "properties"
    let further ← valueIn (readOptional readBool) node "additionalProperties"
    return ⟨name, tag, required.getD none, properties.getD .empty, further.getD none⟩ :=
  readDeclared_reading (fun v => ⟨v, none, none, .empty, none⟩) rfl (fun _ => rfl) fun name =>
  readDeclared_reading (fun v => ⟨name, v, none, .empty, none⟩) rfl (fun _ => rfl) fun tag =>
  readDeclared_reading (fun v => ⟨name, tag, v.getD none, .empty, none⟩) rfl (fun _ => rfl)
    fun required =>
  readDeclared_reading (fun v => ⟨name, tag, required.getD none, v.getD .empty, none⟩) rfl
    (fun _ => rfl) fun properties =>
  readDeclared_reading
    (fun v => ⟨name, tag, required.getD none, properties.getD .empty, v.getD none⟩) rfl
    (fun _ => rfl) fun _ => rfl

theorem exact_recordSchema : Exact readRecordSchema IsRecordSchema := by
  intro node hnode r
  rw [readRecordSchema, bind_eq_ok_iff, isRecordSchema_iff]
  simp only [readRecord_eq_ok_iff recordFields_independent hnode, readDeclared_recordFields,
    bind_eq_ok_iff, demand_eq_ok_iff, ← valueIn_eq_some_iff exact_text hnode,
    ← valueIn_eq_some_iff exact_objectTag hnode, givenOr_iff exact_texts hnode,
    givenOr_iff (exact_map exact_property) hnode, givenOr_iff (exact_optional exact_bool) hnode]
  constructor
  · rintro ⟨_, ⟨honly, _, hname, _, htag, required, hrequired, properties, hproperties,
      further, hfurther, ⟨⟩⟩, _, ⟨⟩, _, ⟨⟩, ⟨⟩⟩
    exact ⟨honly, hname, htag, ⟨required, hrequired, rfl⟩, ⟨properties, hproperties, rfl⟩,
      ⟨further, hfurther, rfl⟩⟩
  · obtain ⟨name, required, properties, further⟩ := r
    rintro ⟨honly, hname, htag, ⟨_, hrequired, rfl⟩, ⟨_, hproperties, rfl⟩,
      ⟨_, hfurther, rfl⟩⟩
    exact ⟨_, ⟨honly, _, hname, _, htag, _, hrequired, _, hproperties, _, hfurther, rfl⟩,
      _, rfl, _, rfl, rfl⟩

/-! ## 5. Indexes -/

/-- A value stands for a global index. -/
@[mk_iff]
structure IsGlobalIndex (node : Node) (i : GlobalIndex) : Prop where
  only : node.HasOnly ["name", "hashKey", "rangeKey", "projectionType", "nonKeyAttributes"]
  name : Given IsText (node.field? "name") i.name
  hashKey : Given IsText (node.field? "hashKey") i.hashKey
  rangeKey : GivenOr none (IsOptional IsText) (node.field? "rangeKey") i.rangeKey
  projectionType : Given IsText (node.field? "projectionType") i.projectionType
  nonKeyAttributes : GivenOr none (IsOptional (IsList IsText)) (node.field? "nonKeyAttributes")
    i.nonKeyAttributes

/-- A value stands for a local index. -/
@[mk_iff]
structure IsLocalIndex (node : Node) (i : LocalIndex) : Prop where
  only : node.HasOnly ["name", "rangeKey", "projectionType", "nonKeyAttributes"]
  name : Given IsText (node.field? "name") i.name
  rangeKey : Given IsText (node.field? "rangeKey") i.rangeKey
  projectionType : Given IsText (node.field? "projectionType") i.projectionType
  nonKeyAttributes : GivenOr none (IsOptional (IsList IsText)) (node.field? "nonKeyAttributes")
    i.nonKeyAttributes

theorem globalIndexFields_independent : Independent globalIndexFields where
  names := by decide
  commute := by simp [globalIndexFields, indexName, projectionFields, Field.Commutes.reading]

theorem localIndexFields_independent : Independent localIndexFields where
  names := by decide
  commute := by simp [localIndexFields, indexName, projectionFields, Field.Commutes.reading]

theorem readDeclared_globalIndexFields (node : Node) : readDeclared node globalIndexFields {} = do
    let name ← valueIn readText node "name"
    let hashKey ← valueIn readText node "hashKey"
    let rangeKey ← valueIn (readOptional readText) node "rangeKey"
    let projection ← valueIn readText node "projectionType"
    let attributes ← valueIn (readOptional (readList readText)) node "nonKeyAttributes"
    return ⟨name, hashKey, rangeKey.getD none, projection, attributes.getD none⟩ :=
  readDeclared_reading (fun v => ⟨v, none, none, none, none⟩) rfl (fun _ => rfl) fun name =>
  readDeclared_reading (fun v => ⟨name, v, none, none, none⟩) rfl (fun _ => rfl) fun hashKey =>
  readDeclared_reading (fun v => ⟨name, hashKey, v.getD none, none, none⟩) rfl (fun _ => rfl)
    fun rangeKey =>
  readDeclared_reading (fun v => ⟨name, hashKey, rangeKey.getD none, v, none⟩) rfl (fun _ => rfl)
    fun projection =>
  readDeclared_reading (fun v => ⟨name, hashKey, rangeKey.getD none, projection, v.getD none⟩) rfl
    (fun _ => rfl) fun _ => rfl

theorem readDeclared_localIndexFields (node : Node) : readDeclared node localIndexFields {} = do
    let name ← valueIn readText node "name"
    let rangeKey ← valueIn readText node "rangeKey"
    let projection ← valueIn readText node "projectionType"
    let attributes ← valueIn (readOptional (readList readText)) node "nonKeyAttributes"
    return ⟨name, none, rangeKey, projection, attributes.getD none⟩ :=
  readDeclared_reading (fun v => ⟨v, none, none, none, none⟩) rfl (fun _ => rfl) fun name =>
  readDeclared_reading (fun v => ⟨name, none, v, none, none⟩) rfl (fun _ => rfl) fun rangeKey =>
  readDeclared_reading (fun v => ⟨name, none, rangeKey, v, none⟩) rfl (fun _ => rfl)
    fun projection =>
  readDeclared_reading (fun v => ⟨name, none, rangeKey, projection, v.getD none⟩) rfl
    (fun _ => rfl) fun _ => rfl

theorem exact_globalIndex : Exact readGlobalIndex IsGlobalIndex := by
  intro node hnode i
  rw [readGlobalIndex, bind_eq_ok_iff, isGlobalIndex_iff]
  simp only [readRecord_eq_ok_iff globalIndexFields_independent hnode,
    readDeclared_globalIndexFields, bind_eq_ok_iff, demand_eq_ok_iff,
    ← valueIn_eq_some_iff exact_text hnode, givenOr_iff (exact_optional exact_text) hnode,
    givenOr_iff exact_texts hnode]
  constructor
  · rintro ⟨_, ⟨honly, _, hname, _, hhashKey, rangeKey, hrangeKey, _, hprojection,
      attributes, hattributes, ⟨⟩⟩, _, ⟨⟩, _, ⟨⟩, _, ⟨⟩, ⟨⟩⟩
    exact ⟨honly, hname, hhashKey, ⟨rangeKey, hrangeKey, rfl⟩, hprojection,
      ⟨attributes, hattributes, rfl⟩⟩
  · obtain ⟨name, hashKey, rangeKey, projection, attributes⟩ := i
    rintro ⟨honly, hname, hhashKey, ⟨_, hrangeKey, rfl⟩, hprojection, ⟨_, hattributes, rfl⟩⟩
    exact ⟨_, ⟨honly, _, hname, _, hhashKey, _, hrangeKey, _, hprojection, _, hattributes, rfl⟩,
      _, rfl, _, rfl, _, rfl, rfl⟩

theorem exact_localIndex : Exact readLocalIndex IsLocalIndex := by
  intro node hnode i
  rw [readLocalIndex, bind_eq_ok_iff, isLocalIndex_iff]
  simp only [readRecord_eq_ok_iff localIndexFields_independent hnode,
    readDeclared_localIndexFields, bind_eq_ok_iff, demand_eq_ok_iff,
    ← valueIn_eq_some_iff exact_text hnode, givenOr_iff exact_texts hnode]
  constructor
  · rintro ⟨_, ⟨honly, _, hname, _, hrangeKey, _, hprojection, attributes, hattributes, ⟨⟩⟩,
      _, ⟨⟩, _, ⟨⟩, _, ⟨⟩, ⟨⟩⟩
    exact ⟨honly, hname, hrangeKey, hprojection, ⟨attributes, hattributes, rfl⟩⟩
  · obtain ⟨name, rangeKey, projection, attributes⟩ := i
    rintro ⟨honly, hname, hrangeKey, hprojection, ⟨_, hattributes, rfl⟩⟩
    exact ⟨_, ⟨honly, _, hname, _, hrangeKey, _, hprojection, _, hattributes, rfl⟩,
      _, rfl, _, rfl, _, rfl, rfl⟩

/-! ## 6. Items, mappers, configurations -/

/-- A value stands for the settings of an item. -/
@[mk_iff]
structure IsItem (node : Node) (s : ItemSettings) : Prop where
  only : node.HasOnly ["outPath", "overwrite", "schema", "defaultProviders"]
  outPath : Given IsText (node.field? "outPath") s.outPath
  overwrite : GivenOr none (IsOptional IsBool) (node.field? "overwrite") s.overwrite
  schema : Given IsRecordSchema (node.field? "schema") s.schema
  defaultProviders :
    GivenOr .empty (IsMap IsText) (node.field? "defaultProviders") s.defaultProviders

/-- A value stands for the settings of a mapper. -/
@[mk_iff]
structure IsMapper (node : Node) (s : MapperSettings) : Prop where
  only : node.HasOnly ["outPath", "overwrite", "tableName", "hashKey", "rangeKey",
    "globalSecondaryIndexes", "localSecondaryIndexes", "item"]
  outPath : Given IsText (node.field? "outPath") s.outPath
  overwrite : GivenOr none (IsOptional IsBool) (node.field? "overwrite") s.overwrite
  tableName : Given IsText (node.field? "tableName") s.tableName
  hashKey : Given IsText (node.field? "hashKey") s.hashKey
  rangeKey : GivenOr none (IsOptional IsText) (node.field? "rangeKey") s.rangeKey
  globalIndexes :
    GivenOr [] (IsList IsGlobalIndex) (node.field? "globalSecondaryIndexes") s.globalIndexes
  localIndexes :
    GivenOr [] (IsList IsLocalIndex) (node.field? "localSecondaryIndexes") s.localIndexes
  item : Given IsItem (node.field? "item") s.item

/-- A value stands for a configuration. -/
@[mk_iff]
structure IsSettings (node : Node) (s : Settings) : Prop where
  only : node.HasOnly ["mappers"]
  mappers : GivenOr .empty (IsMap IsMapper) (node.field? "mappers") s.mappers

theorem itemFields_independent : Independent itemFields where
  names := by decide
  commute := by simp [itemFields, Field.Commutes.reading]

theorem mapperFields_independent : Independent mapperFields where
  names := by decide
  commute := by simp [mapperFields, Field.Commutes.reading]

theorem settingsFields_independent : Independent settingsFields where
  names := by decide
  commute := by simp [settingsFields]

theorem readDeclared_itemFields (node : Node) : readDeclared node itemFields {} = do
    let outPath ← valueIn readText node "outPath"
    let overwrite ← valueIn (readOptional readBool) node "overwrite"
    let schema ← valueIn readRecordSchema node "schema"
    let providers ← valueIn (readMap readText) node "defaultProviders"
    return ⟨outPath, overwrite.getD none, schema, providers.getD .empty⟩ :=
  readDeclared_reading (fun v => ⟨v, none, none, .empty⟩) rfl (fun _ => rfl) fun outPath =>
  readDeclared_reading (fun v => ⟨outPath, v.getD none, none, .empty⟩) rfl (fun _ => rfl)
    fun overwrite =>
  readDeclared_reading (fun v => ⟨outPath, overwrite.getD none, v, .empty⟩) rfl (fun _ => rfl)
    fun schema =>
  readDeclared_reading (fun v => ⟨outPath, overwrite.getD none, schema, v.getD .empty⟩) rfl
    (fun _ => rfl) fun _ => rfl

theorem readDeclared_mapperFields (node : Node) : readDeclared node mapperFields {} = do
    let outPath ← valueIn readText node "outPath"
    let overwrite ← valueIn (readOptional readBool) node "overwrite"
    let tableName ← valueIn readText node "tableName"
    let hashKey ← valueIn readText node "hashKey"
    let rangeKey ← valueIn (readOptional readText) node "rangeKey"
    let globals ← valueIn (readList readGlobalIndex) node "globalSecondaryIndexes"
    let locals ← valueIn (readList readLocalIndex) node "localSecondaryIndexes"
    let item ← valueIn readItem node "item"
    return ⟨outPath, overwrite.getD none, tableName, hashKey, rangeKey.getD none,
      globals.getD [], locals.getD [], item⟩ :=
  readDeclared_reading (fun v => ⟨v, none, none, none, none, [], [], none⟩) rfl (fun _ => rfl)
    fun outPath =>
  readDeclared_reading (fun v => ⟨outPath, v.getD none, none, none, none, [], [], none⟩) rfl
    (fun _ => rfl) fun overwrite =>
  readDeclared_reading
    (fun v => ⟨outPath, overwrite.getD none, v, none, none, [], [], none⟩) rfl
    (fun _ => rfl) fun tableName =>
  readDeclared_reading
    (fun v => ⟨outPath, overwrite.getD none, tableName, v, none, [], [], none⟩) rfl
    (fun _ => rfl) fun hashKey =>
  readDeclared_reading
    (fun v => ⟨outPath, overwrite.getD none, tableName, hashKey, v.getD none, [], [], none⟩) rfl
    (fun _ => rfl) fun rangeKey =>
  readDeclared_reading
    (fun v => ⟨outPath, overwrite.getD none, tableName, hashKey, rangeKey.getD none, v.getD [],
      [], none⟩) rfl (fun _ => rfl) fun globals =>
  readDeclared_reading
    (fun v => ⟨outPath, overwrite.getD none, tableName, hashKey, rangeKey.getD none,
      globals.getD [], v.getD [], none⟩) rfl (fun _ => rfl) fun locals =>
  readDeclared_reading
    (fun v => ⟨outPath, overwrite.getD none, tableName, hashKey, rangeKey.getD none,
      globals.getD [], locals.getD [], v⟩) rfl (fun _ => rfl) fun _ => rfl

theorem readDeclared_settingsFields (node : Node) :
    readDeclared node settingsFields .empty = do
      let mappers ← valueIn (readMap readMapper) node "mappers"
      return ⟨mappers.getD .empty⟩ :=
  readDeclared_reading (fun v => ⟨v.getD .empty⟩) rfl (fun _ => rfl) fun _ => rfl

theorem exact_item : Exact readItem IsItem := by
  intro node hnode s
  rw [readItem, bind_eq_ok_iff, isItem_iff]
  simp only [readRecord_eq_ok_iff itemFields_independent hnode, readDeclared_itemFields,
    bind_eq_ok_iff, demand_eq_ok_iff, ← valueIn_eq_some_iff exact_text hnode,
    ← valueIn_eq_some_iff exact_recordSchema hnode,
    givenOr_iff (exact_optional exact_bool) hnode, givenOr_iff (exact_map exact_text) hnode]
  constructor
  · rintro ⟨_, ⟨honly, _, houtPath, overwrite, hoverwrite, _, hschema, providers, hproviders,
      ⟨⟩⟩, _, ⟨⟩, _, ⟨⟩, ⟨⟩⟩
    exact ⟨honly, houtPath, ⟨overwrite, hoverwrite, rfl⟩, hschema, ⟨providers, hproviders, rfl⟩⟩
  · obtain ⟨outPath, overwrite, schema, providers⟩ := s
    rintro ⟨honly, houtPath, ⟨_, hoverwrite, rfl⟩, hschema, ⟨_, hproviders, rfl⟩⟩
    exact ⟨_, ⟨honly, _, houtPath, _, hoverwrite, _, hschema, _, hproviders, rfl⟩,
      _, rfl, _, rfl, rfl⟩

theorem exact_mapper : Exact readMapper IsMapper := by
  intro node hnode s
  rw [readMapper, bind_eq_ok_iff, isMapper_iff]
  simp only [readRecord_eq_ok_iff mapperFields_independent hnode, readDeclared_mapperFields,
    bind_eq_ok_iff, demand_eq_ok_iff, ← valueIn_eq_some_iff exact_text hnode,
    ← valueIn_eq_some_iff exact_item hnode, givenOr_iff (exact_optional exact_bool) hnode,
    givenOr_iff (exact_optional exact_text) hnode,
    givenOr_iff (exact_list exact_globalIndex) hnode,
    givenOr_iff (exact_list exact_localIndex) hnode]
  constructor
  · rintro ⟨_, ⟨honly, _, houtPath, overwrite, hoverwrite, _, htableName, _, hhashKey,
      rangeKey, hrangeKey, globals, hglobals, locals, hlocals, _, hitem, ⟨⟩⟩,
      _, ⟨⟩, _, ⟨⟩, _, ⟨⟩, _, ⟨⟩, ⟨⟩⟩
    exact ⟨honly, houtPath, ⟨overwrite, hoverwrite, rfl⟩, htableName, hhashKey,
      ⟨rangeKey, hrangeKey, rfl⟩, ⟨globals, hglobals, rfl⟩, ⟨locals, hlocals, rfl⟩, hitem⟩
  · obtain ⟨outPath, overwrite, tableName, hashKey, rangeKey, globals, locals, item⟩ := s
    rintro ⟨honly, houtPath, ⟨_, hoverwrite, rfl⟩, htableName, hhashKey, ⟨_, hrangeKey, rfl⟩,
      ⟨_, hglobals, rfl⟩, ⟨_, hlocals, rfl⟩, hitem⟩
    exact ⟨_, ⟨honly, _, houtPath, _, hoverwrite, _, htableName, _, hhashKey, _, hrangeKey,
      _, hglobals, _, hlocals, _, hitem, rfl⟩, _, rfl, _, rfl, _, rfl, _, rfl, rfl⟩

theorem exact_settings : Exact ofNode IsSettings := by
  intro node hnode s
  rw [isSettings_iff]
  simp only [ofNode, readRecord_eq_ok_iff settingsFields_independent hnode,
    readDeclared_settingsFields, bind_eq_ok_iff, givenOr_iff (exact_map exact_mapper) hnode]
  constructor
  · rintro ⟨honly, mappers, hmappers, ⟨⟩⟩
    exact ⟨honly, mappers, hmappers, rfl⟩
  · obtain ⟨mappers⟩ := s
    rintro ⟨honly, _, hmappers, rfl⟩
    exact ⟨honly, _, hmappers, rfl⟩

end Settings

end TableMapper
