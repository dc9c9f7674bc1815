/-
TableMapper.Proofs.Settings.Serialization — reading back what was
written field by field.

A record is serialized by a list of its fields, some of which are left
out where there is nothing to write (`SerializedField`). `Reads` says
that a reader of records takes fields from one draft to another; the
draft after a serialized record is put together field by field.
-/
import TableMapper.Proofs.Dictionary
import TableMapper.Proofs.Except
import TableMapper.Settings.Reading

namespace TableMapper

open Yaml (Node)

/-! ## 1. Documents with distinct names -/

/-- No object in the document has two fields of one name. -/
inductive Json.Plain : Json → Prop where
  | null : Plain .null
  | bool (b : Bool) : Plain (.bool b)
  | number (n : Number) : Plain (.number n)
  | string (s : String) : Plain (.string s)
  | array {items : List Json} (h : ∀ item ∈ items, Plain item) : Plain (.array items)
  | object {fields : Fields Json} (hnames : (Fields.names fields).Nodup)
    (h : ∀ field ∈ fields, Plain field.2) : Plain (.object fields)

namespace Settings

mutual

/-- A value is read as a document with distinct names. -/
theorem plain_of_readDocument : ∀ {node : Node} {v : Json}, readDocument node = .ok v → v.Plain
  | .null, _, h => by cases h; exact .null
  | .bool b, _, h => by cases h; exact .bool b
  | .whole n, _, h => by cases h; exact .number _
  | .real (.finite x), _, h => by cases h; exact .number _
  | .real (.infinite _), _, h => by cases h; exact .null
  | .real .notANumber, _, h => by cases h; exact .null
  | .text s, _, h => by cases h; exact .string s
  | .sequence items, _, h => by
    rw [readDocument] at h
    obtain ⟨documents, hread, h⟩ := bind_eq_ok_iff.mp h
    cases h
    exact .array (plain_of_readDocuments hread)
  | .mapping entries, _, h => by
    rw [readDocument] at h
    obtain ⟨fields, hread, h⟩ := bind_eq_ok_iff.mp h
    cases h
    obtain ⟨hnames, hplain⟩ := plain_of_readDocumentFields hread List.nodup_nil (by simp)
    exact .object hnames hplain

theorem plain_of_readDocuments : ∀ {nodes : List Node} {items : List Json},
    readDocuments nodes = .ok items → ∀ item ∈ items, item.Plain
  | [], _, h => by cases h; simp
  | node :: rest, _, h => by
    rw [readDocuments] at h
    obtain ⟨item, hitem, h⟩ := bind_eq_ok_iff.mp h
    obtain ⟨items, hitems, h⟩ := bind_eq_ok_iff.mp h
    cases h
    exact List.forall_mem_cons.mpr ⟨plain_of_readDocument hitem, plain_of_readDocuments hitems⟩

theorem plain_of_readDocumentFields : ∀ {entries : List (Node × Node)}
    {before fields : Fields Json}, readDocumentFields before entries = .ok fields →
      (Fields.names before).Nodup → (∀ field ∈ before, field.2.Plain) →
        (Fields.names fields).Nodup ∧ ∀ field ∈ fields, field.2.Plain
  | [], _, _, h, hnames, hplain => by cases h; exact ⟨hnames, hplain⟩
  | (.text name, node) :: rest, before, _, h, hnames, hplain => by
    rw [readDocumentFields] at h
    obtain ⟨v, hv, h⟩ := bind_eq_ok_iff.mp h
    refine plain_of_readDocumentFields h (Fields.nodup_names_insert name v hnames) ?_
    intro field hfield
    rcases Fields.mem_insert hfield with rfl | hfield
    · exact plain_of_readDocument hv
    · exact hplain field hfield
  | (.null, _) :: _, _, _, h, _, _ => by cases h
  | (.bool _, _) :: _, _, _, h, _, _ => by cases h
  | (.whole _, _) :: _, _, _, h, _, _ => by cases h
  | (.real _, _) :: _, _, _, h, _, _ => by cases h
  | (.sequence _, _) :: _, _, _, h, _, _ => by cases h
  | (.mapping _, _) :: _, _, _, h, _, _ => by cases h

end

mutual

/-- A document with distinct names is read as itself. -/
theorem readDocument_ofJson : ∀ {v : Json}, v.Plain → readDocument (Node.ofJson v) = .ok v
  | .null, _ => rfl
  | .bool _, _ => rfl
  | .number (.whole _), _ => rfl
  | .number (.double _), _ => rfl
  | .string _, _ => rfl
  | .array items, h => by
    cases h with
    | array h =>
      rw [Node.ofJson, readDocument, readDocuments_ofItems h]
      rfl
  | .object fields, h => by
    cases h with
    | object hnames h =>
      rw [Node.ofJson, readDocument, readDocumentFields_ofFields fields [] hnames h]
      rfl

theorem readDocuments_ofItems : ∀ {items : List Json}, (∀ item ∈ items, item.Plain) →
    readDocuments (Node.ofItems items) = .ok items
  | [], _ => rfl
  | item :: rest, h => by
    obtain ⟨hitem, hrest⟩ := List.forall_mem_cons.mp h
    rw [Node.ofItems, readDocuments, readDocument_ofJson hitem, readDocuments_ofItems hrest]
    rfl

theorem readDocumentFields_ofFields : ∀ (fields before : Fields Json),
    (Fields.names (before ++ fields)).Nodup → (∀ field ∈ fields, field.2.Plain) →
      readDocumentFields before (Node.ofFields fields) = .ok (before ++ fields)
  | [], before, _, _ => by
    rw [List.append_nil]
    rfl
  | (name, v) :: rest, before, hnames, h => by
    obtain ⟨hv, hrest⟩ := List.forall_mem_cons.mp h
    have hnew := Fields.notMem_of_nodup hnames
    rw [List.append_cons] at hnames
    rw [Node.ofFields, readDocumentFields, readDocument_ofJson hv]
    show readDocumentFields (Fields.insert name v before) (Node.ofFields rest) = _
    rw [Fields.insert_of_notMem hnew, readDocumentFields_ofFields rest _ hnames hrest,
      List.append_assoc]
    rfl

end

/-! ## 2. Lists and maps -/

/-- A value is read back from what is written for it. -/
def ReadBack {α : Type} (read : Node → Outcome α) (write : α → Json) (a : α) : Prop :=
  read (Node.ofJson (write a)) = .ok a

section Containers

variable {α : Type}

/-- What reads the items of a list reads the list. -/
theorem mapM_ofItems {m : Type → Type} [Monad m] [LawfulMonad m] {read : Node → m α}
    {write : α → Json} : ∀ {items : List α},
    (∀ a ∈ items, read (Node.ofJson (write a)) = pure a) →
      (Node.ofItems (items.map write)).mapM read = pure items
  | [], _ => rfl
  | a :: rest, h => by
    obtain ⟨ha, hrest⟩ := List.forall_mem_cons.mp h
    rw [List.map_cons, Node.ofItems, List.mapM_cons, ha, mapM_ofItems hrest, pure_bind, pure_bind]

variable {read : Node → Outcome α} {write : α → Json}

/-- A list is read back if its items are. -/
theorem readBack_list {items : List α} (h : ∀ a ∈ items, ReadBack read write a) :
    ReadBack (readList read) (fun items => .array (items.map write)) items := by
  show (Node.ofItems (items.map write)).mapM read = _
  exact mapM_ofItems h

theorem readBack_texts (items : List String) : ReadBack (readList readText) Json.strings items :=
  readBack_list fun _ _ => rfl

/-- The fields for the entries of a map. -/
def writtenEntries (write : α → Json) (entries : Fields α) : Fields Json :=
  entries.map fun (name, a) => (name, write a)

theorem writtenEntries_congr {other : α → Json} {entries : Fields α}
    (h : ∀ entry ∈ entries, write entry.2 = other entry.2) :
    writtenEntries write entries = writtenEntries other entries :=
  List.map_congr_left fun entry hentry => congrArg (Prod.mk entry.1) (h entry hentry)

theorem readEntries_ofFields : ∀ {entries : Fields α} (before : Dictionary α)
    {result : Dictionary α}, result.entries = before.entries ++ entries →
    (∀ entry ∈ entries, ReadBack read write entry.2) →
      readEntries read before (Node.ofFields (writtenEntries write entries)) = .ok result
  | [], before, result, hresult, _ => by
    rw [Dictionary.ext (hresult.trans (List.append_nil _))]
    rfl
  | (name, a) :: rest, before, result, hresult, h => by
    obtain ⟨ha, hrest⟩ := List.forall_mem_cons.mp h
    have ha : read (Node.ofJson (write a)) = .ok a := ha
    have hnames := result.distinct
    rw [hresult] at hnames
    have hnew := Fields.notMem_of_nodup hnames
    rw [writtenEntries, List.map_cons, Node.ofFields, readEntries, readText, ha]
    refine readEntries_ofFields (before.insert name a) ?_ hrest
    show result.entries = Fields.insert name a before.entries ++ rest
    rw [hresult, Fields.insert_of_notMem hnew, List.append_assoc]
    rfl

/-- A map is read back if its values are. -/
theorem readBack_map {d : Dictionary α} (h : ∀ entry ∈ d.entries, ReadBack read write entry.2) :
    ReadBack (readMap read) (fun d => .object (writtenEntries write d.entries)) d :=
  readEntries_ofFields .empty rfl h

end Containers

/-! ## 3. Records -/

/-- A field of a record as it is serialized: its name, and its value
unless it is left out. -/
structure SerializedField (α : Type) where
  name : String
  value : α → Option Json

namespace SerializedField

variable {α : Type}

/-- A field that is always there. -/
def always (name : String) (value : α → Json) : SerializedField α :=
  ⟨name, fun a => some (value a)⟩

/-- A field that is left out if it has no value. -/
def unlessNone {β : Type} (name : String) (value : α → Option β) (write : β → Json) :
    SerializedField α :=
  ⟨name, fun a => (value a).map write⟩

/-- A field that is left out if there is nothing in its list or map. -/
def unlessEmpty (name : String) (isEmpty : α → Bool) (value : α → Json) : SerializedField α :=
  ⟨name, fun a => if isEmpty a then none else some (value a)⟩

end SerializedField

/-- The fields of a record that are not left out, in the order in which
they are declared. -/
def serializedFields {α : Type} (shape : List (SerializedField α)) (a : α) : Fields Json :=
  shape.flatMap fun field => Fields.optional field.name (field.value a)

/-- A record as a document. -/
def serialize {α : Type} (shape : List (SerializedField α)) (a : α) : Json :=
  .object (serializedFields shape a)

@[simp] theorem serializedFields_nil {α : Type} (a : α) : serializedFields [] a = [] := rfl

@[simp] theorem serializedFields_cons {α : Type} (field : SerializedField α)
    (shape : List (SerializedField α)) (a : α) :
    serializedFields (field :: shape) a =
      Fields.optional field.name (field.value a) ++ serializedFields shape a := rfl

/-- The reader of a record takes the draft through the fields that were
written. -/
inductive Reads {δ : Type} (fields : List (Field δ)) : δ → Fields Json → δ → Prop where
  | nil (draft : δ) : Reads fields draft [] draft
  | cons {name : String} {field : Field δ} {v : Json} {draft next last : δ} {written : Fields Json}
    (hfield : fields.find? (·.name == name) = some field)
    (hread : field.read draft (Node.ofJson v) = .ok next) (h : Reads fields next written last) :
    Reads fields draft ((name, v) :: written) last

namespace Reads

variable {δ : Type} {fields : List (Field δ)} {draft next last : δ}

theorem append {written more : Fields Json} (h : Reads fields draft written next)
    (hmore : Reads fields next more last) : Reads fields draft (written ++ more) last := by
  induction h with
  | nil => exact hmore
  | cons hfield hread _ ih => exact .cons hfield hread (ih hmore)

theorem readFields_eq {written : Fields Json} (h : Reads fields draft written last) :
    readFields fields draft (Node.ofFields written) = .ok last := by
  induction h with
  | nil => rfl
  | cons hfield hread _ ih =>
    rw [Node.ofFields, readFields, hfield]
    simp only [hread]
    exact ih

theorem readRecord_eq {α : Type} {shape : List (SerializedField α)} {a : α}
    (h : Reads fields draft (serializedFields shape a) last) (record : String) :
    readRecord record fields draft (Node.ofJson (serialize shape a)) = .ok last :=
  h.readFields_eq

/-- A record is read field by field. -/
theorem step {α : Type} {a : α} {field : SerializedField α} {shape : List (SerializedField α)}
    (h : Reads fields draft (Fields.optional field.name (field.value a)) next)
    (hrest : Reads fields next (serializedFields shape a) last) :
    Reads fields draft (serializedFields (field :: shape) a) last :=
  h.append hrest

variable {β : Type} {read : Node → Outcome β} {put : δ → β → δ} {name : String}

/-- A field that is there is put into the draft. -/
theorem always {v : Json} {x : β}
    (hfield : fields.find? (·.name == name) = some (.reading name read put))
    (hread : read (Node.ofJson v) = .ok x) :
    Reads fields draft (Fields.optional name (some v)) (put draft x) := by
  refine .cons hfield ?_ (.nil _)
  show (read (Node.ofJson v)).map (put draft) = _
  rw [hread]
  rfl

/-- A field that is left out leaves the draft as it is: nothing has been
put there yet. -/
theorem unlessEmpty {v : Json} {x nothing : β} {isEmpty : Bool}
    (hfield : fields.find? (·.name == name) = some (.reading name read put))
    (hread : read (Node.ofJson v) = .ok x) (hempty : isEmpty = true → x = nothing)
    (hnothing : put draft nothing = draft) :
    Reads fields draft (Fields.optional name (if isEmpty then none else some v))
      (put draft x) := by
  cases isEmpty with
  | false => exact always hfield hread
  | true =>
    rw [hempty rfl, hnothing]
    exact .nil draft

/-- A field for a value that may be missing is left out if it is. -/
theorem unlessNone {put : δ → Option β → δ} {write : β → Json} {o : Option β}
    (hfield : fields.find? (·.name == name) = some (.reading name (readOptional read) put))
    (hread : ∀ x ∈ o, ReadBack read write x) (hnull : ∀ x, Node.ofJson (write x) ≠ .null)
    (hnone : put draft none = draft) :
    Reads fields draft (Fields.optional name (o.map write)) (put draft o) := by
  cases o with
  | none =>
    rw [hnone]
    exact .nil draft
  | some x =>
    refine always hfield ?_
    have hx : read (Node.ofJson (write x)) = .ok x := hread x rfl
    rw [readOptional, hx]
    · rfl
    · exact hnull x

end Reads

/-! ## 4. Invariants of drafts -/

/-- Reading the field keeps what holds of the draft. -/
def Field.Keeps {δ : Type} (p : δ → Prop) (field : Field δ) : Prop :=
  ∀ draft node next, p draft → field.read draft node = .ok next → p next

/-- A field keeps what putting any value that is read for it keeps. -/
theorem Field.Keeps.reading {δ α : Type} {p : δ → Prop} {name : String} {read : Node → Outcome α}
    {put : δ → α → δ}
    (hput : ∀ {draft node v}, p draft → read node = .ok v → p (put draft v)) :
    Keeps p (.reading name read put) := by
  intro draft node next hp h
  obtain ⟨v, hv, rfl⟩ := map_eq_ok_iff.mp h
  exact hput hp hv

/-- Reading any of the fields keeps what holds of the draft. -/
inductive AllKeep {δ : Type} (p : δ → Prop) : List (Field δ) → Prop where
  | nil : AllKeep p []
  | cons {field : Field δ} {fields : List (Field δ)} (hfield : field.Keeps p)
    (h : AllKeep p fields) : AllKeep p (field :: fields)

section Drafts

variable {δ : Type} {fields : List (Field δ)} {p : δ → Prop}

theorem AllKeep.keeps (h : AllKeep p fields) : ∀ field ∈ fields, field.Keeps p := by
  induction h with
  | nil => exact fun _ hmem => absurd hmem List.not_mem_nil
  | cons hfield _ ih => exact List.forall_mem_cons.mpr ⟨hfield, ih⟩

/-- What every field keeps is kept by the reader of a record. -/
theorem readFields_keeps (hfields : AllKeep p fields) :
    ∀ {entries : List (Node × Node)} {draft last : δ}, p draft →
      readFields fields draft entries = .ok last → p last
  | [], _, _, hp, h => by cases h; exact hp
  | (.text name, node) :: rest, draft, last, hp, h => by
    rw [readFields] at h
    split at h
    · next field hfield =>
      obtain ⟨next, hnext, h⟩ := bind_eq_ok_iff.mp h
      have hkeeps := hfields.keeps field (List.mem_of_find?_eq_some hfield)
      exact readFields_keeps hfields (hkeeps _ _ _ hp hnext) h
    · cases h
  | (.null, _) :: _, _, _, _, h => by cases h
  | (.bool _, _) :: _, _, _, _, h => by cases h
  | (.whole _, _) :: _, _, _, _, h => by cases h
  | (.real _, _) :: _, _, _, _, h => by cases h
  | (.sequence _, _) :: _, _, _, _, h => by cases h
  | (.mapping _, _) :: _, _, _, _, h => by cases h

theorem readRecord_keeps (hfields : AllKeep p fields) {record : String}
    {blank last : δ} {node : Node} (hp : p blank)
    (h : readRecord record fields blank node = .ok last) : p last := by
  unfold readRecord at h
  split at h
  · cases h; exact hp
  · exact readFields_keeps hfields hp h
  · cases h

end Drafts

/-- What is read for every value of a map holds of all its values. -/
theorem readEntries_all {α : Type} {read : Node → Outcome α} {q : α → Prop}
    (hread : ∀ {node a}, read node = .ok a → q a) : ∀ {entries : List (Node × Node)}
    {before result : Dictionary α}, (∀ entry ∈ before.entries, q entry.2) →
      readEntries read before entries = .ok result → ∀ entry ∈ result.entries, q entry.2
  | [], _, _, hq, h => by cases h; exact hq
  | (key, node) :: rest, before, result, hq, h => by
    rw [readEntries] at h
    obtain ⟨name, -, h⟩ := bind_eq_ok_iff.mp h
    obtain ⟨a, ha, h⟩ := bind_eq_ok_iff.mp h
    refine readEntries_all hread ?_ h
    intro entry hentry
    rcases Fields.mem_insert hentry with rfl | hentry
    · exact hread ha
    · exact hq entry hentry

theorem readMap_all {α : Type} {read : Node → Outcome α} {q : α → Prop}
    (hread : ∀ {node a}, read node = .ok a → q a) {node : Node} {d : Dictionary α}
    (h : readMap read node = .ok d) : ∀ entry ∈ d.entries, q entry.2 := by
  unfold readMap at h
  split at h
  · cases h
    exact fun entry hentry => absurd hentry List.not_mem_nil
  · exact readEntries_all hread (fun entry hentry => absurd hentry List.not_mem_nil) h
  · cases h

end Settings

end TableMapper
