/-
TableMapper.Proofs.Settings.Shape — the values that are configurations.

A shape says which values have it. The shape of a configuration is a
table of its records with their fields (`Shape.settings`), and the
values that have it are those that stand for a configuration
(`covers_settings`): what has the shape is read and nothing else is, and
it is read as what it stands for. A type name is a word, or a mapping
from the word or the number of the name to a null, which is why the
shape is given for any notion of a type name.
-/
import TableMapper.Proofs.Settings.RecordContents

namespace TableMapper.Settings

open JsonSchema (TypeName)
open Yaml (Node)

/-- Which values have a shape. -/
abbrev Shape := Node → Prop

namespace Shape

/-! ## 1. Shapes -/

def text : Shape := fun node => ∃ s, node = .text s

def boolean : Shape := fun node => ∃ b, node = .bool b

def word (s : String) : Shape := fun node => node = .text s

/-- A value that may be null. -/
def optional (shape : Shape) : Shape := fun node => node = .null ∨ shape node

/-- A sequence, or null. -/
def list (shape : Shape) : Shape
  | .null => True
  | .sequence items => ∀ item ∈ items, shape item
  | _ => False

/-- A mapping whose keys are texts, or null. -/
def map (shape : Shape) : Shape
  | .null => True
  | .mapping entries => ∀ entry ∈ entries, text entry.1 ∧ shape entry.2
  | _ => False

/-- A value in which all keys are texts. -/
inductive Document : Shape where
  | null : Document .null
  | bool (b : Bool) : Document (.bool b)
  | whole (n : Int) : Document (.whole n)
  | real (x : Yaml.Real) : Document (.real x)
  | text (s : String) : Document (.text s)
  | sequence {items : List Node} (h : ∀ item ∈ items, Document item) : Document (.sequence items)
  | mapping {entries : List (Node × Node)} (hkeys : ∀ entry ∈ entries, Shape.text entry.1)
    (h : ∀ entry ∈ entries, Document entry.2) : Document (.mapping entries)

/-- A field of a record: its name, whether it must be there, and the
shape of its value. -/
structure Part where
  name : String
  required : Bool
  shape : Shape

/-- A field that must be there. -/
def Part.needs (name : String) (shape : Shape) : Part := ⟨name, true, shape⟩

/-- A field that may be left out. -/
def Part.may (name : String) (shape : Shape) : Part := ⟨name, false, shape⟩

/-- The record has the field in its shape, or may be without it. -/
def Part.Fits (node : Node) (part : Part) : Prop :=
  match node.field? part.name with
  | none => part.required = false
  | some value => part.shape value

/-- A mapping, or null, with these fields and no others. -/
def record (parts : List Part) : Shape := fun node =>
  node.HasOnly (parts.map Part.name) ∧ ∀ part ∈ parts, part.Fits node

/-! ## 2. The shape of a configuration -/

section Records

variable (typeName : Shape)

/-- One type name, or a list of them. -/
def schemaType : Shape := fun node =>
  typeName node ∨ ∃ items, node = .sequence items ∧ ∀ item ∈ items, typeName item

/-- A mapping with a type, and with any documents under other names. -/
def property : Shape
  | .mapping entries => (∃ type, Node.lookup? "type" entries = some type ∧ schemaType typeName type) ∧
    ∀ entry ∈ Node.without "type" entries, text entry.1 ∧ Document entry.2
  | _ => False

def recordSchema : Shape :=
  record [.needs "name" text, .needs "type" (word "object"), .may "required" (optional (list text)),
    .may "properties" (map (property typeName)), .may "additionalProperties" (optional boolean)]

def globalIndex : Shape :=
  record [.needs "name" text, .needs "hashKey" text, .may "rangeKey" (optional text),
    .needs "projectionType" text, .may "nonKeyAttributes" (optional (list text))]

def localIndex : Shape :=
  record [.needs "name" text, .needs "rangeKey" text, .needs "projectionType" text,
    .may "nonKeyAttributes" (optional (list text))]

def item : Shape :=
  record [.needs "outPath" text, .may "overwrite" (optional boolean),
    .needs "schema" (recordSchema typeName), .may "defaultProviders" (map text)]

def mapper : Shape :=
  record [.needs "outPath" text, .may "overwrite" (optional boolean), .needs "tableName" text,
    .needs "hashKey" text, .may "rangeKey" (optional text),
    .may "globalSecondaryIndexes" (list globalIndex),
    .may "localSecondaryIndexes" (list localIndex), .needs "item" (item typeName)]

def settings : Shape := record [.may "mappers" (map (mapper typeName))]

end Records

/-- The word of a type name. -/
def typeWord : Shape := fun node => ∃ name : TypeName, node = .text name.text

/-- A type name: its word, or a mapping from its word or its number to a
null. -/
def typeName : Shape := fun node =>
  typeWord node ∨ ∃ key, node = .mapping [(key, .null)] ∧
    (typeWord key ∨ ∃ n : Nat, n < TypeName.all.length ∧ key = .whole n)

end Shape

/-! ## 3. Values that stand for something -/

section Covers

variable {α : Type}

/-- The values of a shape are those that stand for something. -/
def Covers (means : Node → α → Prop) (shape : Shape) : Prop :=
  ∀ {node : Node}, node.Distinct → ((∃ a, means node a) ↔ shape node)

theorem covers_text : Covers IsText Shape.text := fun _ => Iff.rfl

theorem covers_bool : Covers IsBool Shape.boolean := fun _ => Iff.rfl

theorem covers_objectTag : Covers IsObjectTag (Shape.word "object") :=
  fun _ => ⟨fun ⟨_, h⟩ => h, fun h => ⟨(), h⟩⟩

variable {means : Node → α → Prop} {shape : Shape}

theorem covers_optional (h : Covers means shape) :
    Covers (IsOptional means) (Shape.optional shape) := by
  intro node hnode
  constructor
  · rintro ⟨_, ⟨⟩ | ⟨-, hmeans⟩⟩
    · exact .inl rfl
    · exact .inr ((h hnode).mp ⟨_, hmeans⟩)
  · intro hshape
    by_cases hnull : node = .null
    · exact ⟨none, hnull ▸ .null⟩
    · obtain ⟨a, hmeans⟩ := (h hnode).mpr (hshape.resolve_left hnull)
      exact ⟨some a, .some hnull hmeans⟩

/-- There are items for all values of a list if there is one for
each. -/
theorem exists_forall₂_iff {β γ : Type} {R : β → γ → Prop} {xs : List β} :
    (∃ ys, List.Forall₂ R xs ys) ↔ ∀ x ∈ xs, ∃ y, R x y := by
  induction xs with
  | nil => simp
  | cons x rest ih =>
    rw [List.forall_mem_cons, ← ih]
    constructor
    · rintro ⟨ys, hall⟩
      cases hall with
      | cons hx hrest => exact ⟨⟨_, hx⟩, _, hrest⟩
    · rintro ⟨⟨y, hy⟩, ys, hrest⟩
      exact ⟨y :: ys, .cons hy hrest⟩

theorem exists_forall₂_congr {β γ : Type} {R : β → γ → Prop} {p : β → Prop} {xs : List β}
    (h : ∀ x ∈ xs, (∃ y, R x y) ↔ p x) : (∃ ys, List.Forall₂ R xs ys) ↔ ∀ x ∈ xs, p x := by
  rw [exists_forall₂_iff]
  exact forall₂_congr h

theorem covers_list (h : Covers means shape) : Covers (IsList means) (Shape.list shape) := by
  intro node hnode
  cases hnode with
  | null => exact ⟨fun _ => trivial, fun _ => ⟨[], .null⟩⟩
  | @sequence nodes hnodes =>
    rw [Shape.list, ← exists_forall₂_congr fun node hnode => h (hnodes node hnode)]
    constructor
    · rintro ⟨items, hlist⟩
      cases hlist with
      | sequence hmeans => exact ⟨items, hmeans⟩
    · rintro ⟨items, hmeans⟩
      exact ⟨items, .sequence hmeans⟩
  | _ =>
    refine ⟨?_, False.elim⟩
    rintro ⟨_, hlist⟩
    cases hlist

/-- An entry stands for a field if its key is a text and its value has
the shape. -/
theorem exists_isEntry_iff {entry : Node × Node} (h : (∃ a, means entry.2 a) ↔ shape entry.2) :
    (∃ field, IsEntry means entry field) ↔ Shape.text entry.1 ∧ shape entry.2 := by
  rw [← h]
  constructor
  · rintro ⟨field, hkey, hvalue⟩
    exact ⟨⟨_, hkey⟩, _, hvalue⟩
  · rintro ⟨⟨name, hkey⟩, a, hvalue⟩
    exact ⟨(name, a), hkey, hvalue⟩

/-- The names of fields are the keys of their entries. -/
theorem names_eq_textKeys {entries : List (Node × Node)} {fields : Fields α}
    (h : List.Forall₂ (IsEntry means) entries fields) :
    Fields.names fields = Node.textKeys entries := by
  induction h with
  | nil => rfl
  | @cons entry field _ _ hentry _ ih =>
    obtain ⟨key, value⟩ := entry
    cases hentry.key
    exact congrArg (field.1 :: ·) ih

/-- Entries whose keys are distinct stand for a dictionary if each
stands for a field. -/
theorem exists_dictionary_iff {entries : List (Node × Node)}
    (hkeys : (Node.textKeys entries).Nodup)
    (h : ∀ entry ∈ entries, (∃ a, means entry.2 a) ↔ shape entry.2) :
    (∃ d : Dictionary α, List.Forall₂ (IsEntry means) entries d.entries) ↔
      ∀ entry ∈ entries, Shape.text entry.1 ∧ shape entry.2 := by
  rw [← exists_forall₂_congr fun entry hentry => exists_isEntry_iff (h entry hentry)]
  constructor
  · rintro ⟨d, hd⟩
    exact ⟨d.entries, hd⟩
  · rintro ⟨fields, hfields⟩
    exact ⟨⟨fields, names_eq_textKeys hfields ▸ hkeys⟩, hfields⟩

theorem covers_map (h : Covers means shape) : Covers (IsMap means) (Shape.map shape) := by
  intro node hnode
  cases hnode with
  | null => exact ⟨fun _ => trivial, fun _ => ⟨.empty, .null⟩⟩
  | @mapping entries hkeys hvalues =>
    rw [Shape.map,
      ← exists_dictionary_iff hkeys fun entry hentry => h (hvalues entry hentry)]
    constructor
    · rintro ⟨d, hmap⟩
      cases hmap with
      | mapping hmeans => exact ⟨d, hmeans⟩
    · rintro ⟨d, hmeans⟩
      exact ⟨d, .mapping hmeans⟩
  | _ =>
    refine ⟨?_, False.elim⟩
    rintro ⟨_, hmap⟩
    cases hmap

end Covers

mutual

/-- The values that stand for a document are those in which all keys are
texts. -/
theorem exists_isDocument_iff : ∀ node : Node, (∃ v, IsDocument node v) ↔ Shape.Document node
  | .null => ⟨fun _ => .null, fun _ => ⟨_, .null⟩⟩
  | .bool b => ⟨fun _ => .bool b, fun _ => ⟨_, .bool b⟩⟩
  | .whole n => ⟨fun _ => .whole n, fun _ => ⟨_, .whole n⟩⟩
  | .real (.finite x) => ⟨fun _ => .real _, fun _ => ⟨_, .finite x⟩⟩
  | .real (.infinite negative) => ⟨fun _ => .real _, fun _ => ⟨_, .infinite negative⟩⟩
  | .real .notANumber => ⟨fun _ => .real _, fun _ => ⟨_, .notANumber⟩⟩
  | .text s => ⟨fun _ => .text s, fun _ => ⟨_, .text s⟩⟩
  | .sequence nodes => by
    constructor
    · rintro ⟨_, h⟩
      cases h with
      | sequence h => exact .sequence ((exists_areItems_iff nodes).mp ⟨_, h⟩)
    · intro h
      cases h with
      | sequence h =>
        obtain ⟨items, hitems⟩ := (exists_areItems_iff nodes).mpr h
        exact ⟨_, .sequence hitems⟩
  | .mapping entries => by
    constructor
    · rintro ⟨_, h⟩
      cases h with
      | mapping h =>
        have hall := (exists_areFields_iff entries).mp ⟨_, h⟩
        exact .mapping (fun entry hentry => (hall entry hentry).1)
          fun entry hentry => (hall entry hentry).2
    · intro h
      cases h with
      | mapping hkeys h =>
        obtain ⟨fields, hfields⟩ := (exists_areFields_iff entries).mpr
          fun entry hentry => ⟨hkeys entry hentry, h entry hentry⟩
        exact ⟨_, .mapping hfields⟩

theorem exists_areItems_iff : ∀ nodes : List Node,
    (∃ items, AreItems nodes items) ↔ ∀ node ∈ nodes, Shape.Document node
  | [] => ⟨fun _ => by simp, fun _ => ⟨[], .nil⟩⟩
  | node :: rest => by
    rw [List.forall_mem_cons, ← exists_isDocument_iff node, ← exists_areItems_iff rest]
    constructor
    · rintro ⟨_, h⟩
      cases h with
      | cons h hrest => exact ⟨⟨_, h⟩, _, hrest⟩
    · rintro ⟨⟨item, h⟩, items, hrest⟩
      exact ⟨item :: items, .cons h hrest⟩

theorem exists_areFields_iff : ∀ entries : List (Node × Node),
    (∃ fields, AreFields entries fields) ↔
      ∀ entry ∈ entries, Shape.text entry.1 ∧ Shape.Document entry.2
  | [] => ⟨fun _ => by simp, fun _ => ⟨[], .nil⟩⟩
  | (key, node) :: rest => by
    rw [List.forall_mem_cons, ← exists_areFields_iff rest]
    have hnode := exists_isDocument_iff node
    constructor
    · rintro ⟨_, h⟩
      cases h with
      | cons h hrest => exact ⟨⟨⟨_, rfl⟩, hnode.mp ⟨_, h⟩⟩, _, hrest⟩
    · rintro ⟨⟨⟨name, hkey⟩, h⟩, fields, hrest⟩
      obtain ⟨v, hv⟩ := hnode.mpr h
      have hkey : key = .text name := hkey
      rw [hkey]
      exact ⟨(name, v) :: fields, .cons hv hrest⟩

end

/-! ## 4. Properties -/

theorem covers_typeName : Covers IsTypeName Shape.typeName := by
  intro node _
  constructor
  · rintro ⟨name, h⟩
    cases h with
    | word => exact .inl ⟨name, rfl⟩
    | tagged => exact .inr ⟨_, rfl, .inl ⟨name, rfl⟩⟩
    | numbered h => exact .inr ⟨_, rfl, .inr ⟨_, (List.getElem?_eq_some_iff.mp h).1, rfl⟩⟩
  · rintro (⟨name, rfl⟩ | ⟨_, rfl, ⟨name, rfl⟩ | ⟨n, hn, rfl⟩⟩)
    · exact ⟨name, .word name⟩
    · exact ⟨name, .tagged name⟩
    · exact ⟨_, .numbered (List.getElem?_eq_getElem hn)⟩

theorem covers_schemaType : Covers IsSchemaType (Shape.schemaType Shape.typeName) := by
  intro node hnode
  constructor
  · rintro ⟨_, h⟩
    cases h with
    | single h => exact .inl ((covers_typeName hnode).mp ⟨_, h⟩)
    | @union nodes names h =>
      cases hnode with
      | sequence hnodes =>
        refine .inr ⟨nodes, rfl, ?_⟩
        exact (exists_forall₂_congr fun node hmem => covers_typeName (hnodes node hmem)).mp ⟨_, h⟩
  · rintro (h | ⟨nodes, rfl, h⟩)
    · obtain ⟨name, h⟩ := (covers_typeName hnode).mpr h
      exact ⟨_, .single h⟩
    · cases hnode with
      | sequence hnodes =>
        obtain ⟨names, h⟩ :=
          (exists_forall₂_congr fun node hmem => covers_typeName (hnodes node hmem)).mpr h
        exact ⟨_, .union h⟩

theorem covers_property : Covers IsProperty (Shape.property Shape.typeName) := by
  intro node hnode
  cases hnode with
  | @mapping entries hkeys hvalues =>
    have hcovers : ∀ {type : Node}, Node.lookup? "type" entries = some type →
        ((∃ t, IsSchemaType type t) ↔ Shape.schemaType Shape.typeName type) := fun hget =>
      covers_schemaType (hvalues _ (Node.mem_of_lookup? hget))
    have hnames := (Node.textKeys_sublist (Node.without_sublist "type" entries)).nodup hkeys
    rw [Shape.property, ← exists_dictionary_iff hnames fun entry _ => exists_isDocument_iff entry.2]
    constructor
    · rintro ⟨p, h⟩
      cases h with
      | mapping htype h =>
        obtain ⟨type, hget, htype⟩ := htype.exists_node
        exact ⟨⟨type, hget, (hcovers hget).mp ⟨_, htype⟩⟩, p.keywords, h⟩
    · rintro ⟨⟨type, hget, htype⟩, keywords, h⟩
      obtain ⟨t, ht⟩ := (hcovers hget).mpr htype
      exact ⟨⟨t, keywords⟩, .mapping (hget ▸ .intro ht) h⟩
  | _ =>
    refine ⟨?_, False.elim⟩
    rintro ⟨_, h⟩
    cases h

/-! ## 5. Records -/

section Parts

variable {α : Type} {means : Node → α → Prop} {shape : Shape} {node : Node}

theorem exists_given_iff (h : Covers means shape) (hnode : node.Distinct) (name : String) :
    (∃ a, Given means (node.field? name) a) ↔ (Shape.Part.needs name shape).Fits node := by
  unfold Shape.Part.Fits Shape.Part.needs
  cases hfield : node.field? name with
  | none =>
    refine ⟨?_, nofun⟩
    rintro ⟨a, hgiven⟩
    cases hgiven
  | some value =>
    dsimp only
    rw [← h (hnode.field hfield)]
    constructor
    · rintro ⟨a, hgiven⟩
      cases hgiven with
      | intro hmeans => exact ⟨a, hmeans⟩
    · rintro ⟨a, hmeans⟩
      exact ⟨a, .intro hmeans⟩

theorem exists_givenOr_iff (h : Covers means shape) (hnode : node.Distinct) (name : String)
    (default : α) : (∃ a, GivenOr default means (node.field? name) a) ↔
      (Shape.Part.may name shape).Fits node := by
  unfold Shape.Part.Fits Shape.Part.may
  cases hfield : node.field? name with
  | none => exact ⟨fun _ => rfl, fun _ => ⟨default, .absent⟩⟩
  | some value =>
    dsimp only
    rw [← h (hnode.field hfield)]
    constructor
    · rintro ⟨a, hgiven⟩
      cases hgiven with
      | given hmeans => exact ⟨a, hmeans⟩
    · rintro ⟨a, hmeans⟩
      exact ⟨a, .given hmeans⟩

end Parts

theorem covers_texts :
    Covers (IsOptional (IsList IsText)) (Shape.optional (Shape.list Shape.text)) :=
  covers_optional (covers_list covers_text)

theorem covers_recordSchema : Covers IsRecordSchema (Shape.recordSchema Shape.typeName) := by
  intro node hnode
  simp only [Shape.recordSchema, Shape.record, List.forall_mem_cons, List.not_mem_nil,
    ← exists_given_iff covers_text hnode, ← exists_given_iff covers_objectTag hnode,
    ← exists_givenOr_iff covers_texts hnode _ none,
    ← exists_givenOr_iff (covers_map covers_property) hnode _ .empty,
    ← exists_givenOr_iff (covers_optional covers_bool) hnode _ none]
  constructor
  · rintro ⟨r, h⟩
    exact ⟨h.only, ⟨_, h.name⟩, ⟨_, h.type⟩, ⟨_, h.required⟩, ⟨_, h.properties⟩,
      ⟨_, h.additionalProperties⟩, nofun⟩
  · rintro ⟨honly, ⟨_, hname⟩, ⟨_, htype⟩, ⟨_, hrequired⟩, ⟨_, hproperties⟩, ⟨_, hfurther⟩, -⟩
    exact ⟨⟨_, _, _, _⟩, honly, hname, htype, hrequired, hproperties, hfurther⟩

theorem covers_globalIndex : Covers IsGlobalIndex Shape.globalIndex := by
  intro node hnode
  simp only [Shape.globalIndex, Shape.record, List.forall_mem_cons, List.not_mem_nil,
    ← exists_given_iff covers_text hnode,
    ← exists_givenOr_iff (covers_optional covers_text) hnode _ none,
    ← exists_givenOr_iff covers_texts hnode _ none]
  constructor
  · rintro ⟨i, h⟩
    exact ⟨h.only, ⟨_, h.name⟩, ⟨_, h.hashKey⟩, ⟨_, h.rangeKey⟩, ⟨_, h.projectionType⟩,
      ⟨_, h.nonKeyAttributes⟩, nofun⟩
  · rintro ⟨honly, ⟨_, hname⟩, ⟨_, hhashKey⟩, ⟨_, hrangeKey⟩, ⟨_, hprojection⟩,
      ⟨_, hattributes⟩, -⟩
    exact ⟨⟨_, _, _, _, _⟩, honly, hname, hhashKey, hrangeKey, hprojection, hattributes⟩

theorem covers_localIndex : Covers IsLocalIndex Shape.localIndex := by
  intro node hnode
  simp only [Shape.localIndex, Shape.record, List.forall_mem_cons, List.not_mem_nil,
    ← exists_given_iff covers_text hnode, ← exists_givenOr_iff covers_texts hnode _ none]
  constructor
  · rintro ⟨i, h⟩
    exact ⟨h.only, ⟨_, h.name⟩, ⟨_, h.rangeKey⟩, ⟨_, h.projectionType⟩,
      ⟨_, h.nonKeyAttributes⟩, nofun⟩
  · rintro ⟨honly, ⟨_, hname⟩, ⟨_, hrangeKey⟩, ⟨_, hprojection⟩, ⟨_, hattributes⟩, -⟩
    exact ⟨⟨_, _, _, _⟩, honly, hname, hrangeKey, hprojection, hattributes⟩

theorem covers_item : Covers IsItem (Shape.item Shape.typeName) := by
  intro node hnode
  simp only [Shape.item, Shape.record, List.forall_mem_cons, List.not_mem_nil,
    ← exists_given_iff covers_text hnode, ← exists_given_iff covers_recordSchema hnode,
    ← exists_givenOr_iff (covers_optional covers_bool) hnode _ none,
    ← exists_givenOr_iff (covers_map covers_text) hnode _ .empty]
  constructor
  · rintro ⟨s, h⟩
    exact ⟨h.only, ⟨_, h.outPath⟩, ⟨_, h.overwrite⟩, ⟨_, h.schema⟩, ⟨_, h.defaultProviders⟩,
      nofun⟩
  · rintro ⟨honly, ⟨_, houtPath⟩, ⟨_, hoverwrite⟩, ⟨_, hschema⟩, ⟨_, hproviders⟩, -⟩
    exact ⟨⟨_, _, _, _⟩, honly, houtPath, hoverwrite, hschema, hproviders⟩

theorem covers_mapper : Covers IsMapper (Shape.mapper Shape.typeName) := by
  intro node hnode
  simp only [Shape.mapper, Shape.record, List.forall_mem_cons, List.not_mem_nil,
    ← exists_given_iff covers_text hnode, ← exists_given_iff covers_item hnode,
    ← exists_givenOr_iff (covers_optional covers_bool) hnode _ none,
    ← exists_givenOr_iff (covers_optional covers_text) hnode _ none,
    ← exists_givenOr_iff (covers_list covers_globalIndex) hnode _ [],
    ← exists_givenOr_iff (covers_list covers_localIndex) hnode _ []]
  constructor
  · rintro ⟨s, h⟩
    exact ⟨h.only, ⟨_, h.outPath⟩, ⟨_, h.overwrite⟩, ⟨_, h.tableName⟩, ⟨_, h.hashKey⟩,
      ⟨_, h.rangeKey⟩, ⟨_, h.globalIndexes⟩, ⟨_, h.localIndexes⟩, ⟨_, h.item⟩, nofun⟩
  · rintro ⟨honly, ⟨_, houtPath⟩, ⟨_, hoverwrite⟩, ⟨_, htableName⟩, ⟨_, hhashKey⟩,
      ⟨_, hrangeKey⟩, ⟨_, hglobals⟩, ⟨_, hlocals⟩, ⟨_, hitem⟩, -⟩
    exact ⟨⟨_, _, _, _, _, _, _, _⟩, honly, houtPath, hoverwrite, htableName, hhashKey,
      hrangeKey, hglobals, hlocals, hitem⟩

theorem covers_settings : Covers IsSettings (Shape.settings Shape.typeName) := by
  intro node hnode
  simp only [Shape.settings, Shape.record, List.forall_mem_cons, List.not_mem_nil,
    ← exists_givenOr_iff (covers_map covers_mapper) hnode _ .empty]
  constructor
  · rintro ⟨s, h⟩
    exact ⟨h.only, ⟨_, h.mappers⟩, nofun⟩
  · rintro ⟨honly, ⟨_, hmappers⟩, -⟩
    exact ⟨⟨_⟩, honly, hmappers⟩

/-! ## 6. Configurations -/

/-- A value without repeated names is read if and only if it has the
shape of a configuration, and it is read as the configuration that it
stands for. -/
theorem ofNode_accepts_iff {node : Node} (hnode : node.Distinct) :
    ((∃ s, ofNode node = .ok s) ↔ Shape.settings Shape.typeName node) ∧
      ∀ s, ofNode node = .ok s ↔ IsSettings node s := by
  refine ⟨?_, fun s => exact_settings hnode⟩
  rw [← covers_settings hnode]
  exact exists_congr fun s => exact_settings hnode

/-- A configuration with a property whose type is a word with a null. -/
def taggedType : Node :=
  .mapping [(.text "mappers", .mapping [(.text "Users", .mapping [
    (.text "outPath", .text "Mapper.ts"),
    (.text "tableName", .text "users"),
    (.text "hashKey", .text "id"),
    (.text "item", .mapping [
      (.text "outPath", .text "User.ts"),
      (.text "schema", .mapping [
        (.text "name", .text "User"),
        (.text "type", .text "object"),
        (.text "properties", .mapping [
          (.text "id", .mapping [(.text "type", .mapping [(.text "string", .null)])])])])])])])]

theorem taggedType_distinct : taggedType.Distinct := by
  simp [taggedType, Node.textKeys]

theorem taggedType_accepted : ∃ s, ofNode taggedType = .ok s ∧ IsSettings taggedType s ∧
    Shape.settings Shape.typeName taggedType := by
  obtain ⟨s, hs⟩ : ∃ s, ofNode taggedType = .ok s := ⟨_, rfl⟩
  obtain ⟨haccepts, hmeans⟩ := ofNode_accepts_iff taggedType_distinct
  exact ⟨s, hs, (hmeans s).mp hs, haccepts.mp ⟨s, hs⟩⟩

/-- Type names need not be words. -/
theorem not_settings_typeWord : ¬∀ node : Node, node.Distinct →
    ((∃ s, ofNode node = .ok s) ↔ Shape.settings Shape.typeWord node) := by
  intro hall
  have hshape := (hall taggedType taggedType_distinct).mp ⟨_, rfl⟩
  simp [Shape.settings, Shape.record, Shape.mapper, Shape.item, Shape.recordSchema, Shape.map,
    Shape.property, Shape.schemaType, Shape.typeWord, Shape.Part.Fits, Shape.Part.needs,
    Shape.Part.may, taggedType, Node.field?, Node.lookup?] at hshape

end TableMapper.Settings
