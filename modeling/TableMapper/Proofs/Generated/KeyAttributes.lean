/-
TableMapper.Proofs.Generated.KeyAttributes — key attributes agree in
everything that a mapper says of them.

The keys are collected several times: for the definitions of attributes,
for the lists of keys of the table and its indexes, and for the type of
keys. `defineAttributes_spec` tells which attributes are defined, after
any others; all agreement follows from it.
-/
import TableMapper.Proofs.Dictionary
import TableMapper.Proofs.Generated.RecordDocuments
import TableMapper.Proofs.Generated.TableReading
import TableMapper.Proofs.TypeScript.Statements

namespace TableMapper

open TypeScript (Declarations ReadMember asRead)

namespace Mapper

/-! ## 1. The definitions of attributes -/

/-- The attribute type of a key goes with the type of its property. -/
def Fits (m : Mapper) (key : String) (type : AttributeType) : Prop :=
  ∃ p, m.item.schema.property? key = some p ∧
    ((type = .text ∧ p.type = .single .string) ∨
      (type = .number ∧ (p.type = .single .number ∨ p.type = .single .integer)))

/-- A key has an attribute type only by its property. -/
theorem fits_of_attributeType {m : Mapper} {key : String} {type : AttributeType}
    (h : m.attributeType key = .ok type) : m.Fits key type := by
  unfold attributeType Item.fieldType at h
  cases hp : m.item.schema.property? key with
  | none => simp [hp] at h
  | some p =>
    simp only [hp] at h
    refine ⟨p, hp, ?_⟩
    match hname : p.type, h with
    | .single .string, h => exact .inl ⟨(Except.ok.inj h).symm, rfl⟩
    | .single .number, h => exact .inr ⟨(Except.ok.inj h).symm, .inl rfl⟩
    | .single .integer, h => exact .inr ⟨(Except.ok.inj h).symm, .inr rfl⟩

theorem filter_contains_insert {α : Type} {d : Dictionary α} {key : String} (hnew : key ∉ d.names)
    (value : α) (keys : List String) :
    keys.filter (!(d.insert key value).contains ·) =
      (keys.filter (!d.contains ·)).filter (!· == key) := by
  rw [List.filter_filter]
  congr 1
  funext other
  have hinsert : (d.insert key value).contains other = (other == key || d.contains other) := by
    rw [Bool.eq_iff_iff, Bool.or_eq_true, beq_iff_eq, Dictionary.contains_iff_mem_names,
      Dictionary.contains_iff_mem_names, Dictionary.names_insert_of_notMem hnew,
      List.mem_append, List.mem_singleton, or_comm]
  rw [hinsert, Bool.not_or]

/-- The attributes that are defined: those that were, and behind them
the new keys at their first use, each with a type that fits. -/
theorem defineAttributes_spec {m : Mapper} {keys : List String}
    {d result : Dictionary AttributeType} (h : m.defineAttributes d keys = .ok result) :
    result.names = d.names ++ (keys.filter (!d.contains ·)).eraseDups ∧
      ∀ a ∈ result.entries, a ∈ d.entries ∨ m.Fits a.1 a.2 := by
  induction keys generalizing d with
  | nil =>
    obtain rfl := Except.ok.inj h
    exact ⟨by simp, fun a ha => .inl ha⟩
  | cons key keys ih =>
    rw [defineAttributes] at h
    by_cases hkey : d.contains key = true
    · rw [if_pos hkey] at h
      obtain ⟨hnames, hfits⟩ := ih h
      refine ⟨?_, hfits⟩
      rw [hnames, List.filter_cons_of_neg (by simp [hkey])]
    · rw [if_neg hkey] at h
      obtain ⟨type, htype, h⟩ := bind_eq_ok_iff.mp h
      obtain ⟨hnames, hfits⟩ := ih h
      have hnew : key ∉ d.names := mt Dictionary.contains_iff_mem_names.mpr hkey
      constructor
      · rw [hnames, Dictionary.names_insert_of_notMem hnew, filter_contains_insert hnew,
          List.filter_cons_of_pos (by simp [hkey]), List.eraseDups_cons, List.append_assoc]
        rfl
      · intro a ha
        rcases hfits a ha with ha | hfit
        · rcases Fields.mem_insert ha with rfl | ha
          · exact .inr (fits_of_attributeType htype)
          · exact .inl ha
        · exact .inr hfit

/-- The description of a table that has one. -/
theorem describeTable_spec {m : Mapper} {t : TableDescription} (h : m.describeTable = .ok t) :
    t.attributes.map Prod.fst = m.tableKeys.eraseDups ∧
      (t.attributes.map Prod.fst).Nodup ∧ (∀ a ∈ t.attributes, m.Fits a.1 a.2) ∧
      t.keys = m.keys ∧ t.globalIndexes = m.globalIndexes.map GlobalIndex.describe ∧
      t.localIndexes = m.localIndexes.map (LocalIndex.describe m.keys.hash) := by
  obtain ⟨attributes, hattributes, h⟩ := bind_eq_ok_iff.mp h
  obtain rfl := Except.ok.inj h
  obtain ⟨hnames, hfits⟩ := defineAttributes_spec hattributes
  refine ⟨?_, attributes.distinct, ?_, rfl, rfl, rfl⟩
  · have hnone : m.tableKeys.filter (!(Dictionary.empty : Dictionary AttributeType).contains ·) =
        m.tableKeys := List.filter_eq_self.mpr fun _ _ => rfl
    rw [hnone] at hnames
    exact hnames
  · intro a ha
    rcases hfits a ha with ha | hfit
    · exact absurd ha List.not_mem_nil
    · exact hfit

/-! ## 2. Agreement -/

/-- A table that is asked for agrees with the keys of a mapper. -/
structure KeysAgree (m : Mapper) (t : TableRequest) : Prop where
  /-- The attributes are defined in the order of their first use: by the
  table, by the global indexes, by the local ones. -/
  firstUses : t.defined =
    (m.keys.hash :: m.keys.range.toList
      ++ m.globalIndexes.flatMap (fun i => i.hashKey :: i.rangeKey.toList)
      ++ m.localIndexes.map (·.rangeKey)).eraseDups
  /-- No attribute is defined twice. -/
  nodup : t.defined.Nodup
  /-- What is defined is used as a key, and the other way round. -/
  used : ∀ name, name ∈ t.defined ↔ ∃ keys ∈ t.keyLists, name ∈ keys.map KeyElement.name
  /-- What is defined are the keys that are collected for the indexes. -/
  indexKeys : ∀ name, name ∈ t.defined ↔ name ∈ m.indexKeys
  /-- A list of keys is a hash key and at most one range key. -/
  roles : ∀ keys ∈ t.keyLists,
    keys.map KeyElement.role = ["HASH"] ∨ keys.map KeyElement.role = ["HASH", "RANGE"]
  /-- The hash key of the table is its own. -/
  table : t.keys.head? = some ⟨m.keys.hash, "HASH"⟩
  /-- The hash key of a local index is that of the table. -/
  locals : ∀ i ∈ t.localIndexes, i.keys.head? = some ⟨m.keys.hash, "HASH"⟩
  /-- Attributes are texts or numbers, as their properties are. -/
  types : ∀ a ∈ t.definitions, ∃ p, m.item.schema.property? a.name = some p ∧
    ((a.type = "S" ∧ p.type = .single .string) ∨
      (a.type = "N" ∧ (p.type = .single .number ∨ p.type = .single .integer)))

theorem mem_indexKeys_iff {m : Mapper} {name : String} :
    name ∈ m.indexKeys ↔ name ∈ m.tableKeys := by
  rw [indexKeys, tableKeys, List.mem_append, List.mem_append, List.mem_append, List.mem_append]
  constructor
  · rintro ((h | h) | h)
    · exact .inl (.inr h)
    · exact .inr h
    · exact .inl (.inl h)
  · rintro ((h | h) | h)
    · exact .inr h
    · exact .inl (.inl h)
    · exact .inl (.inr h)

theorem roles_elements : ∀ k : KeySchema,
    k.elements.map KeyElement.role = ["HASH"] ∨ k.elements.map KeyElement.role = ["HASH", "RANGE"]
  | ⟨_, none⟩ => .inl rfl
  | ⟨_, some _⟩ => .inr rfl

theorem names_elements : ∀ k : KeySchema, k.elements.map KeyElement.name = k.attributes
  | ⟨_, none⟩ => rfl
  | ⟨_, some _⟩ => rfl

/-- The lists of keys of a description are those of keys of the table
and of the indexes. -/
theorem keyLists_request (t : TableDescription) :
    t.request.keyLists = (t.keys :: (t.globalIndexes.map SecondaryIndex.keys ++
      t.localIndexes.map SecondaryIndex.keys)).map KeySchema.elements := by
  simp only [TableRequest.keyLists, TableDescription.request, List.map_cons, List.map_append,
    List.map_map]
  rfl

/-- The keys that are used by the table and its indexes. -/
theorem mem_tableKeys_iff {m : Mapper} {name : String} :
    name ∈ m.tableKeys ↔ ∃ k ∈ m.keys ::
      ((m.globalIndexes.map GlobalIndex.describe).map SecondaryIndex.keys ++
        (m.localIndexes.map (LocalIndex.describe m.keys.hash)).map SecondaryIndex.keys),
      name ∈ k.attributes := by
  rw [tableKeys, List.mem_append, List.mem_append]
  constructor
  · rintro ((h | h) | h)
    · exact ⟨m.keys, List.mem_cons_self, h⟩
    · obtain ⟨i, hi, h⟩ := List.mem_flatMap.mp h
      refine ⟨i.describe.keys, List.mem_cons_of_mem _ (List.mem_append_left _ ?_), h⟩
      exact List.mem_map_of_mem (List.mem_map_of_mem hi)
    · obtain ⟨i, hi, rfl⟩ := List.mem_map.mp h
      refine ⟨(i.describe m.keys.hash).keys, List.mem_cons_of_mem _ (List.mem_append_right _ ?_), ?_⟩
      · exact List.mem_map_of_mem (List.mem_map_of_mem hi)
      · exact List.mem_cons_of_mem _ (List.mem_singleton.mpr rfl)
  · rintro ⟨k, hk, h⟩
    rcases List.mem_cons.mp hk with rfl | hk
    · exact .inl (.inl h)
    rcases List.mem_append.mp hk with hk | hk
    · rw [List.map_map] at hk
      obtain ⟨i, hi, rfl⟩ := List.mem_map.mp hk
      exact .inl (.inr (List.mem_flatMap.mpr ⟨i, hi, h⟩))
    · rw [List.map_map] at hk
      obtain ⟨i, hi, rfl⟩ := List.mem_map.mp hk
      -- the hash key of a local index is one of the table's keys
      rcases List.mem_cons.mp h with rfl | h
      · exact .inl (.inl List.mem_cons_self)
      · obtain rfl := List.mem_singleton.mp h
        exact .inr (List.mem_map_of_mem hi)

/-- The description of a table agrees with the keys of its mapper. -/
theorem keysAgree_request {m : Mapper} {t : TableDescription} (h : m.describeTable = .ok t) :
    m.KeysAgree t.request := by
  obtain ⟨huses, hnodup, hfits, hkeys, hglobal, hlocal⟩ := describeTable_spec h
  have hdefined : t.request.defined = t.attributes.map Prod.fst := by
    simp [TableRequest.defined, TableDescription.request, AttributeDefinition.ofType]
  have hmem : ∀ name, name ∈ t.request.defined ↔ name ∈ m.tableKeys := fun name => by
    rw [hdefined, huses, List.mem_eraseDups]
  constructor
  · rw [hdefined, huses]
    rfl
  · rw [hdefined]
    exact hnodup
  · intro name
    rw [hmem, mem_tableKeys_iff, keyLists_request, hkeys, hglobal, hlocal]
    constructor
    · rintro ⟨k, hk, hname⟩
      exact ⟨k.elements, List.mem_map_of_mem hk, names_elements k ▸ hname⟩
    · rintro ⟨keys, hkeys, hname⟩
      obtain ⟨k, hk, rfl⟩ := List.mem_map.mp hkeys
      exact ⟨k, hk, names_elements k ▸ hname⟩
  · intro name
    rw [hmem, mem_indexKeys_iff]
  · intro keys hmem
    rw [keyLists_request] at hmem
    obtain ⟨k, -, rfl⟩ := List.mem_map.mp hmem
    exact roles_elements k
  · rw [← hkeys]
    rfl
  · intro i hi
    simp only [TableDescription.request, hlocal, List.map_map, List.mem_map] at hi
    obtain ⟨j, -, rfl⟩ := hi
    rfl
  · intro a ha
    obtain ⟨d, hd, rfl⟩ := List.mem_map.mp ha
    obtain ⟨p, hp, hfit⟩ := hfits d hd
    refine ⟨p, hp, ?_⟩
    rcases hfit with ⟨htype, hp⟩ | ⟨htype, hp⟩
    · exact .inl ⟨congrArg AttributeType.letter htype, hp⟩
    · exact .inr ⟨congrArg AttributeType.letter htype, hp⟩

/-! ## 3. The type of keys -/

/-- The schema of keys is a record of the properties that are keys. -/
theorem keyDocument_isRecord (m : Mapper) :
    ∃ fields, m.keyDocument = .object fields ∧ JsonSchema.requiredNames [] fields = .ok [] ∧
      IsRecord fields (m.item.propertiesWhere m.indexKeys.contains)
        m.item.schema.additionalProperties := by
  refine ⟨_, rfl, JsonSchema.requiredNames_of_get? ?_, ?_⟩
  · rw [Fields.get?_insert, if_neg (by decide), Item.fieldsRequiring, Fields.get?_insert, if_pos rfl]
  · exact (m.item.schema.toFields_isRecord.requiring []).withProperties _

/-- The names of the properties that pass a test. -/
theorem names_propertiesWhere (i : Item) (test : String → Bool) :
    Fields.names (i.propertiesWhere test) = i.schema.properties.names.filter test := by
  rw [Item.propertiesWhere, Fields.names, Dictionary.names, Fields.names, List.filter_map]
  rfl

/-- Key attributes agree in all that a mapper emits: in the description
of the table, read back from its text, and in the type of keys, whose
members, read back from its text as well, are the attributes that are
defined, each once, none required, in the order of the schema's
properties. -/
theorem keys_agree {m : Mapper} {text : String} (h : m.tableSchemaText = .ok text) :
    ∃ t, TableRequest.read? text = some t ∧ m.KeysAgree t ∧
      ∀ style source, m.keyTypeText style = .ok source →
        ∃ (d : Declarations) (members : List ReadMember) (signature : Option String),
        m.keyType = .ok d ∧ d.name = m.keyTypeName ∧
        d.ReadsAs style source members signature ∧
        (members.map (·.name)).Perm t.defined ∧
        (members.map (·.name)).Sublist m.item.schema.properties.names ∧
        ∀ member ∈ members, member.optional = true := by
  obtain ⟨t, ht, h⟩ := bind_eq_ok_iff.mp h
  obtain rfl := Except.ok.inj h
  have hagree := keysAgree_request ht
  refine ⟨t.request, read?_render t ⟨1, true⟩, hagree, ?_⟩
  intro style source hsource
  obtain ⟨d, hkeyType, hsource⟩ := bind_eq_ok_iff.mp hsource
  obtain rfl := Except.ok.inj hsource
  have hd := mapError_eq_ok_iff.mp (mapError_eq_ok_iff.mp hkeyType)
  obtain ⟨fields, hfields, hrequired, hrecord⟩ := m.keyDocument_isRecord
  rw [hfields] at hd
  obtain ⟨typed, further, hname, hbody, hnames, hoptional⟩ := hrecord.members hrequired hd
  rw [names_propertiesWhere] at hnames
  have hread : (typed.map (asRead 1)).map (·.name) = typed.map (·.1.name) := by
    rw [List.map_map]
    rfl
  refine ⟨d, _, _, hkeyType, hname, Declarations.readsAs_trimmed_text hbody style, ?_, ?_, ?_⟩
  · rw [hread, hnames]
    refine (List.perm_ext_iff_of_nodup ?_ hagree.nodup).mpr fun name => ?_
    · exact m.item.schema.properties.distinct.filter _
    · rw [List.mem_filter, hagree.indexKeys, List.contains_iff_mem]
      constructor
      · exact And.right
      · intro hkey
        refine ⟨?_, hkey⟩
        -- a key that is defined has a property of its name
        obtain ⟨a, ha, rfl⟩ := List.mem_map.mp ((hagree.indexKeys name).mpr hkey)
        obtain ⟨p, hp, -⟩ := hagree.types a ha
        exact List.mem_map_of_mem (Fields.mem_of_get? hp)
  · rw [hread, hnames]
    exact List.filter_sublist
  · rw [List.forall_mem_map]
    intro member hmember
    rw [asRead, hoptional member hmember]
    rfl

/-- Orders by customer and number, with a global index by state and
number and a local one by amount. -/
def orders : Mapper where
  name := "OrderMapper"
  item :=
    { schema :=
        { name := "Order"
          required := some ["customer"]
          properties := .ofFields [("amount", .ofType (.single .integer)),
            ("customer", .ofType (.single .string)), ("number", .ofType (.single .number)),
            ("state", .ofType (.single .string)), ("note", .ofType (.single .boolean))]
          additionalProperties := some false }
      outPath := "./src/Order.ts"
      overwrite := true
      providers := .empty }
  tableName := "Orders"
  keys := ⟨"customer", some "number"⟩
  globalIndexes := [⟨"ByState", "state", some "number", "all", none⟩]
  localIndexes := [⟨"ByAmount", "amount", "keys_only", none⟩]
  outPath := "./src/OrderMapper.ts"
  overwrite := true

/-- A property of one type is read as that type. -/
theorem ofJson_ofType (place : JsonSchema.Pointer) :
    JsonSchema.ofJson place (PropertySchema.ofType (.single .string)).toJson =
        .ok (.union [.primitive .string]) ∧
      JsonSchema.ofJson place (PropertySchema.ofType (.single .number)).toJson =
        .ok (.union [.primitive .number]) ∧
      JsonSchema.ofJson place (PropertySchema.ofType (.single .integer)).toJson =
        .ok (.union [.primitive .number]) := by
  refine ⟨?_, ?_, ?_⟩
  all_goals
    rw [PropertySchema.toJson, JsonSchema.ofJson_object, JsonSchema.ofKeywords]
    rfl

/-- The keys of orders, in the description of their table and in the
text of their type. -/
theorem keys_agree_orders :
    ∃ text t d source, orders.tableSchemaText = .ok text ∧ TableRequest.read? text = some t ∧
      t.defined = ["customer", "number", "state", "amount"] ∧
      orders.keyType = .ok d ∧ orders.keyTypeText {} = .ok source ∧
      ∃ (members : List ReadMember) (signature : Option String),
        d.ReadsAs {} source members signature ∧ (members.map (·.name)).Perm t.defined := by
  have htext : orders.tableSchemaText = .ok _ := rfl
  obtain ⟨t, ht, hagree, hmembers⟩ := keys_agree htext
  obtain ⟨fields, hfields, hrequired, hrecord⟩ := orders.keyDocument_isRecord
  have hread : List.Forall₂ (JsonSchema.IsProperty ["properties"] [])
      (propertyDocuments (orders.item.propertiesWhere orders.indexKeys.contains))
      [(⟨"amount", none, false⟩, .union [.primitive .number]),
        (⟨"customer", none, false⟩, .union [.primitive .string]),
        (⟨"number", none, false⟩, .union [.primitive .number]),
        (⟨"state", none, false⟩, .union [.primitive .string])] :=
    .cons ⟨rfl, (ofJson_ofType _).2.2⟩ (.cons ⟨rfl, (ofJson_ofType _).1⟩
      (.cons ⟨rfl, (ofJson_ofType _).2.1⟩ (.cons ⟨rfl, (ofJson_ofType _).1⟩ .nil)))
  obtain ⟨d, hd⟩ := JsonSchema.exists_declare (hrecord.ofRoot_eq hrequired hread)
    (show TypeScript.isIdentifier orders.keyTypeName = true by decide)
  have hkeyType : orders.keyType = .ok d :=
    mapError_eq_ok_iff.mpr (mapError_eq_ok_iff.mpr (hfields ▸ hd))
  have hsource : orders.keyTypeText {} = .ok _ := bind_eq_ok_iff.mpr ⟨d, hkeyType, rfl⟩
  obtain ⟨d, members, signature, hkeyType, -, hreads, hperm, -, -⟩ := hmembers {} _ hsource
  refine ⟨_, t, d, _, htext, ht, ?_, hkeyType, hsource, members, signature, hreads, hperm⟩
  rw [hagree.firstUses]
  decide

end Mapper

end TableMapper
