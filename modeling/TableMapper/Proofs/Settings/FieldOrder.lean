/-
TableMapper.Proofs.Settings.FieldOrder — a record may be written in any
order.

The entries of a record are read as they are written. Fields of one
record are put in different places of a draft (`Field.Commutes`), so
that a record without repeated names is read just as well field by field
in the order in which the fields are declared
(`readRecord_eq_ok_iff`). What a record needs and what it comes to can
then be told from `Node.field?` alone.
-/
import Mathlib.Data.Option.Basic
import TableMapper.Proofs.Except
import TableMapper.Settings.Reading

namespace TableMapper

open Yaml (Node)

/-! ## 1. Entries by name -/

namespace Yaml.Node

/-- The value of the first entry under a name. -/
def lookup? (name : String) : List (Node × Node) → Option Node
  | [] => none
  | (.text key, value) :: rest => if key = name then some value else lookup? name rest
  | _ :: rest => lookup? name rest

/-- The keys that are texts, in order. -/
def textKeys : List (Node × Node) → List String
  | [] => []
  | (.text key, _) :: rest => key :: textKeys rest
  | _ :: rest => textKeys rest

/-- The value of a mapping under a name. -/
def field? (name : String) : Node → Option Node
  | .mapping entries => lookup? name entries
  | _ => none

/-- All keys are among the names. A null has none. -/
def HasOnly (names : List String) : Node → Prop
  | .null => True
  | .mapping entries => ∀ entry ∈ entries, ∃ name ∈ names, entry.1 = .text name
  | _ => False

/-- No mapping in the value has two entries under one name. -/
inductive Distinct : Node → Prop where
  | null : Distinct .null
  | bool (b : Bool) : Distinct (.bool b)
  | whole (n : Int) : Distinct (.whole n)
  | real (x : Real) : Distinct (.real x)
  | text (s : String) : Distinct (.text s)
  | sequence {items : List Node} (h : ∀ item ∈ items, Distinct item) : Distinct (.sequence items)
  | mapping {entries : List (Node × Node)} (hkeys : (textKeys entries).Nodup)
    (h : ∀ entry ∈ entries, Distinct entry.2) : Distinct (.mapping entries)

@[simp] theorem distinct_null : Distinct .null := .null

@[simp] theorem distinct_text (s : String) : Distinct (.text s) := .text s

@[simp] theorem distinct_mapping_iff {entries : List (Node × Node)} :
    Distinct (.mapping entries) ↔
      (textKeys entries).Nodup ∧ ∀ entry ∈ entries, entry.2.Distinct := by
  constructor
  · intro h
    cases h with
    | mapping hkeys h => exact ⟨hkeys, h⟩
  · rintro ⟨hkeys, h⟩
    exact .mapping hkeys h

@[simp] theorem lookup?_cons_text (name key : String) (value : Node) (rest : List (Node × Node)) :
    lookup? name ((.text key, value) :: rest) =
      if key = name then some value else lookup? name rest := rfl

theorem lookup?_of_notMem {name : String} {entries : List (Node × Node)}
    (h : name ∉ textKeys entries) : lookup? name entries = none := by
  induction entries using textKeys.induct with
  | case1 => rfl
  | case2 key value rest ih =>
    rw [textKeys, List.mem_cons, not_or] at h
    rw [lookup?_cons_text, if_neg (Ne.symm h.1), ih h.2]
  | case3 first rest hkey ih =>
    rw [textKeys.eq_3 _ _ hkey] at h
    rw [lookup?.eq_3 _ _ _ hkey, ih h]

theorem mem_of_lookup? {name : String} {value : Node} {entries : List (Node × Node)}
    (h : lookup? name entries = some value) : (.text name, value) ∈ entries := by
  induction entries using textKeys.induct with
  | case1 => cases h
  | case2 key other rest ih =>
    rw [lookup?_cons_text] at h
    split at h
    · next hkey =>
      cases h
      rw [hkey]
      exact List.mem_cons_self
    · exact List.mem_cons_of_mem _ (ih h)
  | case3 first rest hkey ih =>
    rw [lookup?.eq_3 _ _ _ hkey] at h
    exact List.mem_cons_of_mem _ (ih h)

theorem Distinct.field {name : String} {node value : Node} (hnode : node.Distinct)
    (h : node.field? name = some value) : value.Distinct := by
  cases hnode with
  | mapping _ hvalues => exact hvalues _ (mem_of_lookup? h)
  | _ => cases h

end Yaml.Node

namespace Settings

/-! ## 2. Fields in the order in which they are declared -/

/-- Whether one field is read before the other makes no difference to
what is read. -/
def Field.Commutes {δ : Type} (f g : Field δ) : Prop :=
  ∀ (draft last : δ) (v w : Node),
    (∃ next, f.read draft v = .ok next ∧ g.read next w = .ok last) ↔
      ∃ next, g.read draft w = .ok next ∧ f.read next v = .ok last

/-- Fields with different names that may be read in any order. -/
structure Independent {δ : Type} (fields : List (Field δ)) : Prop where
  names : (fields.map Field.name).Nodup
  commute : fields.Pairwise Field.Commutes

/-- Reads a field from a record, if it is there. -/
def Field.readFrom {δ : Type} (node : Node) (field : Field δ) (draft : δ) : Outcome δ :=
  match node.field? field.name with
  | none => .ok draft
  | some value => field.read draft value

/-- Reads fields from a record one after the other. -/
def readDeclared {δ : Type} (node : Node) : List (Field δ) → δ → Outcome δ
  | [], draft => .ok draft
  | field :: rest, draft => do readDeclared node rest (← field.readFrom node draft)

theorem Field.Commutes.reading {δ α β : Type} {name other : String} {read : Node → Outcome α}
    {readOther : Node → Outcome β} {put : δ → α → δ} {putOther : δ → β → δ}
    (h : ∀ draft a b, putOther (put draft a) b = put (putOther draft b) a) :
    Commutes (.reading name read put) (.reading other readOther putOther) := by
  intro draft last v w
  simp only [Field.reading, map_eq_ok_iff]
  constructor
  · rintro ⟨_, ⟨a, ha, rfl⟩, b, hb, rfl⟩
    exact ⟨_, ⟨b, hb, rfl⟩, a, ha, (h draft a b).symm⟩
  · rintro ⟨_, ⟨b, hb, rfl⟩, a, ha, rfl⟩
    exact ⟨_, ⟨a, ha, rfl⟩, b, hb, h draft a b⟩

/-- A field commutes with another whose entry may be missing. -/
theorem Field.Commutes.readFrom {δ : Type} {f g : Field δ} (h : f.Commutes g) (node v : Node)
    (draft last : δ) :
    (∃ next, f.readFrom node draft = .ok next ∧ g.read next v = .ok last) ↔
      ∃ next, g.read draft v = .ok next ∧ f.readFrom node next = .ok last := by
  unfold Field.readFrom
  cases node.field? f.name with
  | none => simp
  | some w => exact h draft last w v

section Records

variable {δ : Type} {fields : List (Field δ)}

theorem readFrom_cons (field : Field δ) (key : String) (value : Node) (rest : List (Node × Node))
    (draft : δ) : field.readFrom (.mapping ((.text key, value) :: rest)) draft =
      if key = field.name then field.read draft value
      else field.readFrom (.mapping rest) draft := by
  rw [Field.readFrom, Node.field?, Node.lookup?_cons_text]
  by_cases hkey : key = field.name
  · rw [if_pos hkey, if_pos hkey]
  · rw [if_neg hkey, if_neg hkey, Field.readFrom, Node.field?]

/-- Where nothing is under any name, nothing is read. -/
theorem readDeclared_of_empty {node : Node} (h : ∀ name, node.field? name = none)
    (fields : List (Field δ)) (draft : δ) : readDeclared node fields draft = .ok draft := by
  induction fields with
  | nil => rfl
  | cons field rest ih =>
    rw [readDeclared, Field.readFrom, h]
    exact ih

/-- An entry that is none of the fields is passed over. -/
theorem readDeclared_cons_of_notMem {key : String} (h : key ∉ fields.map Field.name) (value : Node)
    (rest : List (Node × Node)) (draft : δ) :
    readDeclared (.mapping ((.text key, value) :: rest)) fields draft =
      readDeclared (.mapping rest) fields draft := by
  induction fields generalizing draft with
  | nil => rfl
  | cons field others ih =>
    rw [List.map_cons, List.mem_cons, not_or] at h
    rw [readDeclared, readDeclared, readFrom_cons, if_neg h.1]
    exact bind_congr fun next => ih h.2 next

/-- The first entry may be read before everything else. -/
theorem readDeclared_cons_eq_ok_iff (hfields : Independent fields) {key : String}
    {field : Field δ} (hfind : fields.find? (·.name == key) = some field) {value : Node}
    {rest : List (Node × Node)} (hnew : key ∉ Node.textKeys rest) {draft last : δ} :
    readDeclared (.mapping ((.text key, value) :: rest)) fields draft = .ok last ↔
      ∃ next, field.read draft value = .ok next ∧
        readDeclared (.mapping rest) fields next = .ok last := by
  induction fields generalizing draft with
  | nil => cases hfind
  | cons first others ih =>
    obtain ⟨hnames, hcommute⟩ := hfields
    rw [List.map_cons, List.nodup_cons] at hnames
    rw [List.pairwise_cons] at hcommute
    simp only [readDeclared, readFrom_cons, bind_eq_ok_iff]
    rw [List.find?_cons] at hfind
    split at hfind
    · next hname =>
      -- the entry is that of the first field, and of no other
      obtain rfl : first = field := Option.some.inj hfind
      have hkey := beq_iff_eq.mp hname
      have hnone : first.readFrom (.mapping rest) = Except.ok := by
        funext next
        rw [Field.readFrom, Node.field?, Node.lookup?_of_notMem (hkey ▸ hnew)]
      rw [← hkey, if_pos rfl, hnone]
      simp [readDeclared_cons_of_notMem hnames.1]
    · next hname =>
      have hkey : key ≠ first.name := fun heq => by simp [heq] at hname
      have hswap := (hcommute.1 field (List.mem_of_find?_eq_some hfind)).readFrom
        (.mapping rest) value
      have hrest := @ih ⟨hnames.2, hcommute.2⟩ hfind
      rw [if_neg hkey]
      constructor
      · rintro ⟨second, hsecond, hlast⟩
        obtain ⟨third, hthird, hlast⟩ := hrest.mp hlast
        obtain ⟨next, hnext, hthird⟩ := (hswap draft third).mp ⟨second, hsecond, hthird⟩
        exact ⟨next, hnext, third, hthird, hlast⟩
      · rintro ⟨next, hnext, third, hthird, hlast⟩
        obtain ⟨second, hsecond, hthird⟩ := (hswap draft third).mpr ⟨next, hnext, hthird⟩
        exact ⟨second, hsecond, hrest.mpr ⟨third, hthird, hlast⟩⟩

theorem readFields_eq_ok_iff (hfields : Independent fields) :
    ∀ {entries : List (Node × Node)}, (Node.textKeys entries).Nodup → ∀ {draft last : δ},
      readFields fields draft entries = .ok last ↔
        (Node.mapping entries).HasOnly (fields.map Field.name) ∧
          readDeclared (.mapping entries) fields draft = .ok last
  | [], _, draft, last => by
    rw [readDeclared_of_empty fun _ => rfl]
    simp [readFields, Node.HasOnly]
  | (key, value) :: rest, hkeys, draft, last => by
    cases key with
    | text key =>
      rw [Node.textKeys, List.nodup_cons] at hkeys
      have honly : (Node.mapping ((.text key, value) :: rest)).HasOnly (fields.map Field.name) ↔
          key ∈ fields.map Field.name ∧ (Node.mapping rest).HasOnly (fields.map Field.name) := by
        rw [Node.HasOnly, List.forall_mem_cons]
        refine and_congr_left fun _ => ⟨?_, fun hmem => ⟨key, hmem, rfl⟩⟩
        rintro ⟨_, hmem, heq⟩
        cases heq
        exact hmem
      rw [honly, readFields]
      split
      · next field hfind =>
        have hmem : key ∈ fields.map Field.name := by
          rw [← beq_iff_eq.mp (List.find?_some (p := fun f : Field δ => f.name == key) hfind)]
          exact List.mem_map_of_mem (List.mem_of_find?_eq_some hfind)
        rw [bind_eq_ok_iff, readDeclared_cons_eq_ok_iff hfields hfind hkeys.1]
        simp only [readFields_eq_ok_iff hfields hkeys.2, hmem, true_and]
        constructor
        · rintro ⟨next, hnext, honly, hlast⟩
          exact ⟨honly, next, hnext, hlast⟩
        · rintro ⟨honly, next, hnext, hlast⟩
          exact ⟨next, hnext, honly, hlast⟩
      · next hnone =>
        refine ⟨nofun, ?_⟩
        rintro ⟨⟨hmem, -⟩, -⟩
        obtain ⟨field, hfield, hname⟩ := List.mem_map.mp hmem
        exact absurd (beq_iff_eq.mpr hname) (List.find?_eq_none.mp hnone field hfield)
    | _ => simp [readFields, Node.HasOnly]

/-- A record without repeated names is read if it has no names but those
of fields, and its fields are read in the order in which they are
declared. -/
theorem readRecord_eq_ok_iff (hfields : Independent fields) {record : String} {blank last : δ}
    {node : Node} (hnode : node.Distinct) : readRecord record fields blank node = .ok last ↔
      node.HasOnly (fields.map Field.name) ∧ readDeclared node fields blank = .ok last := by
  cases hnode with
  | mapping hkeys _ => exact readFields_eq_ok_iff hfields hkeys
  | null =>
    rw [readDeclared_of_empty fun _ => rfl]
    simp [readRecord, Node.HasOnly]
  | _ => simp [readRecord, Node.HasOnly]

end Records

/-! ## 3. Values of fields -/

/-- Reads what stands under a name, if anything does. -/
def valueIn {α : Type} (read : Node → Outcome α) (node : Node) (name : String) :
    Outcome (Option α) :=
  match node.field? name with
  | none => .ok none
  | some value => (read value).map some

/-- The first field is read, and then the others into the draft with its
value. -/
theorem readDeclared_reading {δ α : Type} {node : Node} {name : String}
    {read : Node → Outcome α} {put : δ → α → δ} {others : List (Field δ)} {draft : δ}
    {rest : Option α → Outcome δ} (set : Option α → δ) (hnone : set none = draft)
    (hsome : ∀ a, set (some a) = put draft a)
    (hrest : ∀ value, readDeclared node others (set value) = rest value) :
    readDeclared node (.reading name read put :: others) draft =
      valueIn read node name >>= rest := by
  have hfield : (Field.reading name read put).readFrom node draft =
      (valueIn read node name).map set := by
    simp only [Field.readFrom, Field.reading, valueIn]
    cases node.field? name with
    | none => exact congrArg Except.ok hnone.symm
    | some value =>
      dsimp only
      cases read value with
      | error e => rfl
      | ok a => exact congrArg Except.ok (hsome a).symm
  rw [readDeclared, hfield]
  cases valueIn read node name with
  | error e => rfl
  | ok value => exact hrest value

end Settings

end TableMapper
