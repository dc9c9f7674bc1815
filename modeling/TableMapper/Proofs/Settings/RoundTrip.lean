/-
TableMapper.Proofs.Settings.RoundTrip — a configuration read back from
its serialization.

A record is serialized by its declared fields (`serialized`). What the
readers accept has no second `type` among the keywords of a property,
and no two fields of one name inside of them (`Accepted`). Then the
documents that are put together by hand are the serializations, and the
readers give back what was serialized.
-/
import TableMapper.Proofs.Json.Compact
import TableMapper.Proofs.Settings.Serialization

namespace TableMapper

open Settings SerializedField
open Yaml (Node)
open JsonSchema (TypeName)

/-! ## 1. Records as they are serialized -/

/-- The type, and the other keywords as they stand. -/
def PropertySchema.serialized (p : PropertySchema) : Json :=
  .object (("type", p.type.toJson) :: p.keywords.entries)

namespace RecordSchema

/-- The fields of the schema of a record. -/
def shape : List (SerializedField RecordSchema) :=
  [always "name" fun r => .string r.name,
   always "type" fun _ => .string "object",
   unlessNone "required" (·.required) Json.strings,
   always "properties" fun r =>
     .object (writtenEntries PropertySchema.serialized r.properties.entries),
   unlessNone "additionalProperties" (·.additionalProperties) .bool]

/-- The schema as it is serialized. -/
def serialized : RecordSchema → Json := serialize shape

end RecordSchema

namespace GlobalIndex

/-- The fields of a global index. -/
def shape : List (SerializedField GlobalIndex) :=
  [always "name" fun i => .string i.name,
   always "hashKey" fun i => .string i.hashKey,
   unlessNone "rangeKey" (·.rangeKey) .string,
   always "projectionType" fun i => .string i.projectionType,
   unlessNone "nonKeyAttributes" (·.nonKeyAttributes) Json.strings]

/-- The index as it is serialized. -/
def serialized : GlobalIndex → Json := serialize shape

end GlobalIndex

namespace LocalIndex

/-- The fields of a local index. -/
def shape : List (SerializedField LocalIndex) :=
  [always "name" fun i => .string i.name,
   always "rangeKey" fun i => .string i.rangeKey,
   always "projectionType" fun i => .string i.projectionType,
   unlessNone "nonKeyAttributes" (·.nonKeyAttributes) Json.strings]

/-- The index as it is serialized. -/
def serialized : LocalIndex → Json := serialize shape

end LocalIndex

namespace ItemSettings

/-- The fields of the settings of an item. -/
def shape : List (SerializedField ItemSettings) :=
  [always "outPath" fun s => .string s.outPath,
   unlessNone "overwrite" (·.overwrite) .bool,
   always "schema" fun s => s.schema.serialized,
   unlessEmpty "defaultProviders" (·.defaultProviders.isEmpty) fun s =>
     .object (writtenEntries .string s.defaultProviders.entries)]

/-- The settings as they are serialized. -/
def serialized : ItemSettings → Json := serialize shape

end ItemSettings

namespace MapperSettings

/-- The fields of the settings of a mapper. -/
def shape : List (SerializedField MapperSettings) :=
  [always "outPath" fun s => .string s.outPath,
   unlessNone "overwrite" (·.overwrite) .bool,
   always "tableName" fun s => .string s.tableName,
   always "hashKey" fun s => .string s.hashKey,
   unlessNone "rangeKey" (·.rangeKey) .string,
   unlessEmpty "globalSecondaryIndexes" (·.globalIndexes.isEmpty) fun s =>
     .array (s.globalIndexes.map GlobalIndex.serialized),
   unlessEmpty "localSecondaryIndexes" (·.localIndexes.isEmpty) fun s =>
     .array (s.localIndexes.map LocalIndex.serialized),
   always "item" fun s => s.item.serialized]

/-- The settings as they are serialized. -/
def serialized : MapperSettings → Json := serialize shape

end MapperSettings

namespace Settings

/-- The field of a configuration. -/
def shape : List (SerializedField Settings) :=
  [always "mappers" fun s => .object (writtenEntries MapperSettings.serialized s.mappers.entries)]

/-- The configuration as it is serialized. -/
def serialized : Settings → Json := serialize shape

end Settings

/-! ## 2. What the readers accept -/

/-- No other keyword is called `type`, and all are documents with
distinct names. -/
def PropertySchema.Accepted (p : PropertySchema) : Prop :=
  ∀ field ∈ p.keywords.entries, field.1 ≠ "type" ∧ field.2.Plain

/-- All properties are as they are accepted. -/
def RecordSchema.Accepted (r : RecordSchema) : Prop :=
  ∀ entry ∈ r.properties.entries, entry.2.Accepted

/-- The records of all mappers are as they are accepted. -/
def Settings.Accepted (s : Settings) : Prop :=
  ∀ entry ∈ s.mappers.entries, entry.2.item.schema.Accepted

namespace Settings

theorem demand_eq_ok_iff {α : Type} {name : String} {o : Option α} {a : α} :
    demand name o = .ok a ↔ o = some a := by
  cases o with
  | none => simp [demand]
  | some b => simp [demand]

/-- The type is not among the other keywords of a draft. -/
theorem readPropertyEntries_others : ∀ {entries : List (Node × Node)} {draft last : PropertyDraft},
    (∀ other ∈ draft.others, other.1 ≠ "type") → readPropertyEntries draft entries = .ok last →
      ∀ other ∈ last.others, other.1 ≠ "type"
  | [], _, _, hothers, h => by cases h; exact hothers
  | (.text name, node) :: rest, draft, last, hothers, h => by
    rw [readPropertyEntries] at h
    split at h
    · obtain ⟨type, -, h⟩ := bind_eq_ok_iff.mp h
      refine readPropertyEntries_others ?_ h
      exact hothers
    · next hname =>
      refine readPropertyEntries_others ?_ h
      intro other hother
      rcases List.mem_append.mp hother with hother | hother
      · exact hothers other hother
      · rw [List.mem_singleton.mp hother]
        exact hname
  | (.null, _) :: _, _, _, _, h => by cases h
  | (.bool _, _) :: _, _, _, _, h => by cases h
  | (.whole _, _) :: _, _, _, _, h => by cases h
  | (.real _, _) :: _, _, _, _, h => by cases h
  | (.sequence _, _) :: _, _, _, _, h => by cases h
  | (.mapping _, _) :: _, _, _, _, h => by cases h

theorem readKeywords_all : ∀ {others : List (String × Node)} {before keywords : Dictionary Json},
    (∀ other ∈ others, other.1 ≠ "type") →
    (∀ field ∈ before.entries, field.1 ≠ "type" ∧ field.2.Plain) →
      readKeywords before others = .ok keywords →
        ∀ field ∈ keywords.entries, field.1 ≠ "type" ∧ field.2.Plain
  | [], _, _, _, hbefore, h => by cases h; exact hbefore
  | (name, node) :: rest, before, _, hothers, hbefore, h => by
    obtain ⟨hname, hrest⟩ := List.forall_mem_cons.mp hothers
    rw [readKeywords] at h
    obtain ⟨v, hv, h⟩ := bind_eq_ok_iff.mp h
    refine readKeywords_all hrest ?_ h
    intro field hfield
    rcases Fields.mem_insert hfield with rfl | hfield
    · exact ⟨hname, plain_of_readDocument hv⟩
    · exact hbefore field hfield

theorem accepted_of_finish {draft : PropertyDraft} {p : PropertySchema}
    (hothers : ∀ other ∈ draft.others, other.1 ≠ "type") (h : draft.finish = .ok p) :
    p.Accepted := by
  obtain ⟨type, -, h⟩ := bind_eq_ok_iff.mp h
  obtain ⟨keywords, hkeywords, h⟩ := bind_eq_ok_iff.mp h
  cases h
  exact readKeywords_all hothers (fun _ h => absurd h List.not_mem_nil) hkeywords

theorem accepted_of_readProperty {node : Node} {p : PropertySchema}
    (h : readProperty node = .ok p) : p.Accepted := by
  have hblank : ∀ other ∈ ({} : PropertyDraft).others, other.1 ≠ "type" :=
    fun _ h => absurd h List.not_mem_nil
  unfold readProperty at h
  split at h
  · exact accepted_of_finish hblank h
  · obtain ⟨draft, hdraft, h⟩ := bind_eq_ok_iff.mp h
    exact accepted_of_finish (readPropertyEntries_others hblank hdraft) h
  · cases h

theorem accepted_of_readRecordSchema {node : Node} {r : RecordSchema}
    (h : readRecordSchema node = .ok r) : r.Accepted := by
  obtain ⟨draft, hdraft, h⟩ := bind_eq_ok_iff.mp h
  obtain ⟨name, -, h⟩ := bind_eq_ok_iff.mp h
  obtain ⟨_, -, h⟩ := bind_eq_ok_iff.mp h
  cases h
  -- a step for each declared field; only the properties bring anything new
  have hkeeps : AllKeep (fun draft => ∀ entry ∈ draft.properties.entries, entry.2.Accepted)
      recordFields :=
    .cons (.reading fun hp _ => hp) <|
    .cons (.reading fun hp _ => hp) <|
    .cons (.reading fun hp _ => hp) <|
    .cons (.reading fun _ hv => readMap_all accepted_of_readProperty hv) <|
    .cons (.reading fun hp _ => hp) .nil
  exact readRecord_keeps hkeeps (fun _ h => absurd h List.not_mem_nil) hdraft

theorem accepted_of_readItem {node : Node} {s : ItemSettings} (h : readItem node = .ok s) :
    s.schema.Accepted := by
  obtain ⟨draft, hdraft, h⟩ := bind_eq_ok_iff.mp h
  obtain ⟨outPath, -, h⟩ := bind_eq_ok_iff.mp h
  obtain ⟨schema, hschema, h⟩ := bind_eq_ok_iff.mp h
  cases h
  have hkeeps : AllKeep (fun draft => ∀ r, draft.schema = some r → r.Accepted) itemFields :=
    .cons (.reading fun hp _ => hp) <|
    .cons (.reading fun hp _ => hp) <|
    .cons (.reading fun _ hv _ hr => Option.some.inj hr ▸ accepted_of_readRecordSchema hv) <|
    .cons (.reading fun hp _ => hp) .nil
  exact readRecord_keeps hkeeps (fun _ h => by cases h) hdraft schema (demand_eq_ok_iff.mp hschema)

theorem accepted_of_readMapper {node : Node} {s : MapperSettings} (h : readMapper node = .ok s) :
    s.item.schema.Accepted := by
  obtain ⟨draft, hdraft, h⟩ := bind_eq_ok_iff.mp h
  obtain ⟨outPath, -, h⟩ := bind_eq_ok_iff.mp h
  obtain ⟨tableName, -, h⟩ := bind_eq_ok_iff.mp h
  obtain ⟨hashKey, -, h⟩ := bind_eq_ok_iff.mp h
  obtain ⟨item, hitem, h⟩ := bind_eq_ok_iff.mp h
  cases h
  have hkeeps : AllKeep (fun draft => ∀ i, draft.item = some i → i.schema.Accepted)
      mapperFields :=
    .cons (.reading fun hp _ => hp) <|
    .cons (.reading fun hp _ => hp) <|
    .cons (.reading fun hp _ => hp) <|
    .cons (.reading fun hp _ => hp) <|
    .cons (.reading fun hp _ => hp) <|
    .cons (.reading fun hp _ => hp) <|
    .cons (.reading fun hp _ => hp) <|
    .cons (.reading fun _ hv _ hi => Option.some.inj hi ▸ accepted_of_readItem hv) .nil
  exact readRecord_keeps hkeeps (fun _ h => by cases h) hdraft item (demand_eq_ok_iff.mp hitem)

theorem accepted_of_ofNode {node : Node} {s : Settings} (h : ofNode node = .ok s) :
    s.Accepted := by
  have hkeeps : AllKeep Settings.Accepted settingsFields :=
    .cons (.reading fun _ hv => readMap_all accepted_of_readMapper hv) .nil
  exact readRecord_keeps hkeeps (fun _ h => absurd h List.not_mem_nil) h

/-! ## 3. Reading back properties -/

theorem typeName?_text (name : TypeName) : typeName? (.text name.text) = some name := by
  cases name <;> rfl

theorem readBack_schemaType (type : SchemaType) :
    ReadBack readSchemaType SchemaType.toJson type := by
  cases type with
  | single name =>
    show readSchemaType (.text name.text) = _
    rw [readSchemaType, typeName?_text]
    nofun
  | union names =>
    have hnames : (Node.ofItems (names.map fun name => .string name.text)).mapM typeName? =
        some names := mapM_ofItems fun name _ => typeName?_text name
    show readSchemaType (.sequence (Node.ofItems (names.map fun name => .string name.text))) = _
    rw [readSchemaType, typeName?, hnames]
    · nofun
    · nofun
    · nofun

/-- The entries of a property behind its type are its other keywords. -/
theorem readPropertyEntries_ofFields : ∀ {fields : Fields Json} {draft : PropertyDraft},
    (∀ field ∈ fields, field.1 ≠ "type") →
      readPropertyEntries draft (Node.ofFields fields) =
        .ok { draft with
          others := draft.others ++ fields.map fun (name, v) => (name, Node.ofJson v) }
  | [], draft, _ => by
    rw [List.map_nil, List.append_nil]
    rfl
  | (name, v) :: rest, draft, h => by
    obtain ⟨hname, hrest⟩ := List.forall_mem_cons.mp h
    rw [Node.ofFields, readPropertyEntries, if_neg hname, readPropertyEntries_ofFields hrest,
      List.map_cons, List.append_assoc]
    rfl

/-- Other keywords are read as the values of a map. -/
theorem readKeywords_eq : ∀ (others : List (String × Node)) (before : Dictionary Json),
    readKeywords before others =
      readEntries readDocument before (others.map fun (name, v) => (.text name, v))
  | [], _ => rfl
  | (name, v) :: rest, before => by
    rw [List.map_cons, readKeywords, readEntries, readText]
    exact bind_congr fun v => readKeywords_eq rest (before.insert name v)

theorem ofFields_eq_map (fields : Fields Json) : Node.ofFields fields =
    (fields.map fun (name, v) => (name, Node.ofJson v)).map fun (name, v) => (.text name, v) := by
  induction fields with
  | nil => rfl
  | cons field rest ih =>
    rw [Node.ofFields, ih]
    rfl

theorem readBack_property {p : PropertySchema} (h : p.Accepted) :
    ReadBack readProperty PropertySchema.serialized p := by
  have htype : readSchemaType (Node.ofJson p.type.toJson) = .ok p.type := readBack_schemaType _
  have hentries : readPropertyEntries ⟨some p.type, []⟩ (Node.ofFields p.keywords.entries) =
      .ok ⟨some p.type, p.keywords.entries.map fun (name, v) => (name, Node.ofJson v)⟩ :=
    readPropertyEntries_ofFields fun field hfield => (h field hfield).1
  have hwritten : writtenEntries id p.keywords.entries = p.keywords.entries := List.map_id _
  have hkeywords : readEntries readDocument .empty (Node.ofFields p.keywords.entries) =
      .ok p.keywords := by
    rw [← hwritten]
    exact readEntries_ofFields .empty rfl fun field hfield => readDocument_ofJson (h field hfield).2
  rw [ofFields_eq_map, ← readKeywords_eq] at hkeywords
  show (readPropertyEntries {} ((.text "type", Node.ofJson p.type.toJson) ::
    Node.ofFields p.keywords.entries) >>= PropertyDraft.finish) = _
  rw [readPropertyEntries, if_pos rfl, htype]
  exact bind_eq_ok_iff.mpr ⟨_, hentries, bind_eq_ok_iff.mpr ⟨_, rfl,
    bind_eq_ok_iff.mpr ⟨_, hkeywords, rfl⟩⟩⟩

/-! ## 4. Reading back records -/

theorem readBack_recordSchema {r : RecordSchema} (h : r.Accepted) :
    ReadBack readRecordSchema RecordSchema.serialized r := by
  -- a step for each declared field, whether it was written or left out
  have hread : Reads recordFields {} (serializedFields RecordSchema.shape r)
      ⟨some r.name, some (), r.required, r.properties, r.additionalProperties⟩ :=
    .step (.always rfl rfl) <|
    .step (.always rfl rfl) <|
    .step (.unlessNone rfl (fun names _ => readBack_texts names) nofun rfl) <|
    .step (.always rfl (readBack_map fun entry hentry => readBack_property (h entry hentry))) <|
    .step (.unlessNone rfl (fun _ _ => rfl) nofun rfl) <|
    .nil _
  exact bind_eq_ok_iff.mpr ⟨_, hread.readRecord_eq _, rfl⟩

theorem readBack_globalIndex (i : GlobalIndex) :
    ReadBack readGlobalIndex GlobalIndex.serialized i := by
  have hread : Reads globalIndexFields {} (serializedFields GlobalIndex.shape i)
      ⟨some i.name, some i.hashKey, i.rangeKey, some i.projectionType, i.nonKeyAttributes⟩ :=
    .step (.always rfl rfl) <|
    .step (.always rfl rfl) <|
    .step (.unlessNone rfl (fun _ _ => rfl) nofun rfl) <|
    .step (.always rfl rfl) <|
    .step (.unlessNone rfl (fun names _ => readBack_texts names) nofun rfl) <|
    .nil _
  exact bind_eq_ok_iff.mpr ⟨_, hread.readRecord_eq _, rfl⟩

theorem readBack_localIndex (i : LocalIndex) :
    ReadBack readLocalIndex LocalIndex.serialized i := by
  have hread : Reads localIndexFields {} (serializedFields LocalIndex.shape i)
      ⟨some i.name, none, some i.rangeKey, some i.projectionType, i.nonKeyAttributes⟩ :=
    .step (.always rfl rfl) <|
    .step (.always rfl rfl) <|
    .step (.always rfl rfl) <|
    .step (.unlessNone rfl (fun names _ => readBack_texts names) nofun rfl) <|
    .nil _
  exact bind_eq_ok_iff.mpr ⟨_, hread.readRecord_eq _, rfl⟩

theorem readBack_item {s : ItemSettings} (h : s.schema.Accepted) :
    ReadBack readItem ItemSettings.serialized s := by
  have hread : Reads itemFields {} (serializedFields ItemSettings.shape s)
      ⟨some s.outPath, s.overwrite, some s.schema, s.defaultProviders⟩ :=
    .step (.always rfl rfl) <|
    .step (.unlessNone rfl (fun _ _ => rfl) nofun rfl) <|
    .step (.always rfl (readBack_recordSchema h)) <|
    .step (.unlessEmpty rfl (readBack_map fun _ _ => rfl) Dictionary.isEmpty_iff.mp rfl) <|
    .nil _
  exact bind_eq_ok_iff.mpr ⟨_, hread.readRecord_eq _, rfl⟩

theorem readBack_mapper {s : MapperSettings} (h : s.item.schema.Accepted) :
    ReadBack readMapper MapperSettings.serialized s := by
  have hread : Reads mapperFields {} (serializedFields MapperSettings.shape s)
      ⟨some s.outPath, s.overwrite, some s.tableName, some s.hashKey, s.rangeKey,
        s.globalIndexes, s.localIndexes, some s.item⟩ :=
    .step (.always rfl rfl) <|
    .step (.unlessNone rfl (fun _ _ => rfl) nofun rfl) <|
    .step (.always rfl rfl) <|
    .step (.always rfl rfl) <|
    .step (.unlessNone rfl (fun _ _ => rfl) nofun rfl) <|
    .step (.unlessEmpty rfl (readBack_list fun i _ => readBack_globalIndex i)
      List.isEmpty_iff.mp rfl) <|
    .step (.unlessEmpty rfl (readBack_list fun i _ => readBack_localIndex i)
      List.isEmpty_iff.mp rfl) <|
    .step (.always rfl (readBack_item h)) <|
    .nil _
  exact bind_eq_ok_iff.mpr ⟨_, hread.readRecord_eq _, rfl⟩

theorem readBack_settings {s : Settings} (h : s.Accepted) :
    ReadBack ofNode Settings.serialized s := by
  have hread : Reads settingsFields .empty (serializedFields Settings.shape s) s :=
    .step (.always rfl (readBack_map fun entry hentry => readBack_mapper (h entry hentry))) <|
    .nil _
  exact hread.readRecord_eq _

end Settings

/-! ## 5. Documents put together by hand -/

/-- The other keywords stand behind the type, in their order. -/
theorem PropertySchema.toJson_eq {p : PropertySchema} (h : p.Accepted) :
    p.toJson = p.serialized := by
  have hnames : (Fields.names ([("type", p.type.toJson)] ++ p.keywords.entries)).Nodup := by
    refine List.nodup_cons.mpr ⟨?_, p.keywords.distinct⟩
    intro hmem
    obtain ⟨field, hfield, hname⟩ := List.mem_map.mp hmem
    exact (h field hfield).1 hname
  rw [PropertySchema.toJson, Fields.foldl_insert_eq_append hnames]
  rfl

/-- A field for an optional value is there if the value is. -/
theorem Fields.toList_map_eq_optional {β : Type} (name : String) (o : Option β) (write : β → Json) :
    (o.map fun b => (name, write b)).toList = Fields.optional name (o.map write) := by
  cases o <;> rfl

theorem Fields.nonempty_eq_optional {β : Type} (name : String) (items : List β)
    (write : β → Json) :
    Fields.nonempty name (items.map write) =
      Fields.optional name (if items.isEmpty then none else some (.array (items.map write))) := by
  cases items <;> rfl

theorem RecordSchema.toJson_eq {r : RecordSchema} (h : r.Accepted) : r.toJson = r.serialized := by
  have hproperties : propertiesJson r.properties.entries =
      .object (writtenEntries PropertySchema.serialized r.properties.entries) :=
    congrArg Json.object (writtenEntries_congr fun entry hentry =>
      PropertySchema.toJson_eq (h entry hentry))
  rw [toJson, toFields, hproperties]
  simp only [serialized, serialize, shape, serializedFields_cons, serializedFields_nil, always,
    unlessNone, Fields.toList_map_eq_optional, List.append_assoc, List.append_nil]
  rfl

theorem GlobalIndex.toJson_eq : toJson = serialized := by
  funext i
  simp only [toJson, serialized, serialize, shape, serializedFields_cons, serializedFields_nil,
    always, unlessNone, List.append_assoc, List.append_nil]
  rfl

theorem LocalIndex.toJson_eq : toJson = serialized := by
  funext i
  simp only [toJson, serialized, serialize, shape, serializedFields_cons, serializedFields_nil,
    always, unlessNone, List.append_nil]
  rfl

theorem ItemSettings.toJson_eq {s : ItemSettings} (h : s.schema.Accepted) :
    s.toJson = s.serialized := by
  obtain ⟨outPath, overwrite, schema, entries, distinct⟩ := s
  simp only [toJson, serialized, serialize, shape, serializedFields_cons, serializedFields_nil,
    always, unlessNone, unlessEmpty, RecordSchema.toJson_eq h, List.append_assoc, List.append_nil]
  cases entries <;> rfl

theorem MapperSettings.toJson_eq {s : MapperSettings} (h : s.item.schema.Accepted) :
    s.toJson = s.serialized := by
  simp only [toJson, serialized, serialize, shape, serializedFields_cons, serializedFields_nil,
    always, unlessNone, unlessEmpty, ItemSettings.toJson_eq h, GlobalIndex.toJson_eq,
    LocalIndex.toJson_eq, Fields.nonempty_eq_optional, List.append_assoc, List.append_nil]
  rfl

theorem Settings.toJson_eq {s : Settings} (h : s.Accepted) : s.toJson = s.serialized := by
  have hmappers : writtenEntries MapperSettings.toJson s.mappers.entries =
      writtenEntries MapperSettings.serialized s.mappers.entries :=
    writtenEntries_congr fun entry hentry => MapperSettings.toJson_eq (h entry hentry)
  show Json.object [("mappers", .object (writtenEntries MapperSettings.toJson _))] = _
  rw [hmappers]
  rfl

/-! ## 6. The round trip -/

namespace Settings

/-- A configuration that a reader accepts is put together as it is
serialized, and the text of its serialization is read back as the same
configuration, in which mappers, properties, keywords and providers
stand in the same order; so the texts of two configurations differ if
the configurations do. The documents of record schemas and of
properties are their serializations too, and are read back. -/
theorem serialization_round_trip :
    (∀ node s, ofNode node = .ok s →
      s.toJson = s.serialized ∧
      ∃ document, Json.ofText? s.serialized.compact = some document ∧
        ofNode (Node.ofJson document) = .ok s) ∧
    (∀ node other s t, ofNode node = .ok s → ofNode other = .ok t →
      s.serialized.compact = t.serialized.compact → s = t) ∧
    (∀ node r, readRecordSchema node = .ok r →
      r.toJson = r.serialized ∧ readRecordSchema (Node.ofJson r.toJson) = .ok r) ∧
    (∀ node p, readProperty node = .ok p →
      p.toJson = .object (("type", p.type.toJson) :: p.keywords.entries) ∧
      readProperty (Node.ofJson p.toJson) = .ok p) := by
  refine ⟨?_, ?_, ?_, ?_⟩
  · intro node s h
    have haccepted := accepted_of_ofNode h
    exact ⟨Settings.toJson_eq haccepted, s.serialized, Json.ofText?_compact _,
      readBack_settings haccepted⟩
  · intro node other s t hs ht htext
    have hread := Json.ofText?_compact s.serialized
    rw [htext, Json.ofText?_compact] at hread
    have hback : ofNode (Node.ofJson s.serialized) = .ok s :=
      readBack_settings (accepted_of_ofNode hs)
    have hback' : ofNode (Node.ofJson t.serialized) = .ok t :=
      readBack_settings (accepted_of_ofNode ht)
    rw [← Option.some.inj hread, hback'] at hback
    exact (Except.ok.inj hback).symm
  · intro node r h
    have haccepted := accepted_of_readRecordSchema h
    rw [RecordSchema.toJson_eq haccepted]
    exact ⟨rfl, readBack_recordSchema haccepted⟩
  · intro node p h
    have haccepted := accepted_of_readProperty h
    rw [PropertySchema.toJson_eq haccepted]
    exact ⟨rfl, readBack_property haccepted⟩

/-- A configuration as it may be written: in no special order of
fields, and with a null for what is left out. -/
def reordered : Node :=
  .mapping [(.text "mappers", .mapping [(.text "Users", .mapping [
    (.text "item", .mapping [
      (.text "schema", .mapping [
        (.text "required", .sequence [.text "id"]),
        (.text "type", .text "object"),
        (.text "properties", .mapping [
          (.text "tags", .mapping [
            (.text "minItems", .whole 1),
            (.text "type", .sequence [.text "array", .text "null"]),
            (.text "items", .mapping [(.text "const", .real (.infinite true))])]),
          (.text "id", .mapping [(.text "type", .text "string")])]),
        (.text "name", .text "User")]),
      (.text "defaultProviders", .mapping [(.text "id", .text "uuid#v4")]),
      (.text "outPath", .text "User.ts")]),
    (.text "rangeKey", .null),
    (.text "hashKey", .text "id"),
    (.text "localSecondaryIndexes", .sequence []),
    (.text "overwrite", .bool false),
    (.text "tableName", .text "users"),
    (.text "outPath", .text "Mapper.ts")])])]

/-- The document for it. -/
def ordered : Json :=
  .object [("mappers", .object [("Users", .object [
    ("outPath", .string "Mapper.ts"),
    ("overwrite", .bool false),
    ("tableName", .string "users"),
    ("hashKey", .string "id"),
    ("item", .object [
      ("outPath", .string "User.ts"),
      ("schema", .object [
        ("name", .string "User"),
        ("type", .string "object"),
        ("required", .array [.string "id"]),
        ("properties", .object [
          ("tags", .object [
            ("type", .array [.string "array", .string "null"]),
            ("minItems", .number (.whole 1)),
            ("items", .object [("const", .null)])]),
          ("id", .object [("type", .string "string")])])]),
      ("defaultProviders", .object [("id", .string "uuid#v4")])])])])]

theorem reordered_round_trip :
    ∃ s, ofNode reordered = .ok s ∧ s.serialized = ordered ∧ s.toJson = ordered ∧
      ∃ document, Json.ofText? ordered.compact = some document ∧
        ofNode (Node.ofJson document) = .ok s := by
  obtain ⟨s, hs⟩ : ∃ s, ofNode reordered = .ok s := ⟨_, rfl⟩
  have hserialized : s.serialized = ordered := by
    cases hs
    rfl
  obtain ⟨hjson, hback⟩ := serialization_round_trip.1 _ _ hs
  rw [hserialized] at hjson hback
  exact ⟨s, hs, hserialized, hjson, hback⟩

end Settings

end TableMapper
