/-
TableMapper.Proofs.Settings.Contents — what a configuration holds.

For every kind of value there is a relation between the value that is
written and what it stands for: the items of a list one by one, the
entries of a map under their names, and the fields of a record, of which
some must be there and others have a default. A reader is `Exact` for
its relation if it succeeds where the relation holds and nowhere else.
A relation leaves nothing out and adds nothing, and it does not say how
a value is read.
-/
import Mathlib.Data.List.Forall2
import TableMapper.Proofs.Settings.FieldOrder
import TableMapper.Proofs.Settings.RoundTrip

namespace TableMapper.Settings

open JsonSchema (TypeName)
open Yaml (Node)

/-! ## 1. Values -/

section Values

variable {α : Type}

/-- Values without repeated names are read as what they stand for, and
all others are not read. -/
def Exact (read : Node → Outcome α) (means : Node → α → Prop) : Prop :=
  ∀ {node : Node}, node.Distinct → ∀ {a : α}, read node = .ok a ↔ means node a

/-- A text stands for itself. -/
def IsText (node : Node) (s : String) : Prop := node = .text s

/-- A truth value stands for itself. -/
def IsBool (node : Node) (b : Bool) : Prop := node = .bool b

/-- A null stands for nothing, and every other value for what it
means. -/
inductive IsOptional (means : Node → α → Prop) : Node → Option α → Prop where
  | null : IsOptional means .null none
  | some {node : Node} {a : α} (hnull : node ≠ .null) (h : means node a) :
    IsOptional means node (some a)

/-- The items of a sequence stand for the items of a list, in order; a
null is an empty list. -/
inductive IsList (means : Node → α → Prop) : Node → List α → Prop where
  | null : IsList means .null []
  | sequence {nodes : List Node} {items : List α} (h : List.Forall₂ means nodes items) :
    IsList means (.sequence nodes) items

/-- An entry stands for a value under the name that is its key. -/
structure IsEntry (means : Node → α → Prop) (entry : Node × Node) (field : String × α) :
    Prop where
  key : entry.1 = .text field.1
  value : means entry.2 field.2

/-- The entries of a mapping stand for those of a dictionary, in order;
a null is an empty one. -/
inductive IsMap (means : Node → α → Prop) : Node → Dictionary α → Prop where
  | null : IsMap means .null .empty
  | mapping {entries : List (Node × Node)} {d : Dictionary α}
    (h : List.Forall₂ (IsEntry means) entries d.entries) : IsMap means (.mapping entries) d

theorem readText_eq_ok_iff {node : Node} {s : String} :
    readText node = .ok s ↔ node = .text s := by
  cases node <;> simp [readText]

theorem exact_text : Exact readText IsText := fun _ _ => readText_eq_ok_iff

theorem exact_bool : Exact readBool IsBool := by
  intro node _ b
  cases node <;> simp [readBool, IsBool]

variable {read : Node → Outcome α} {means : Node → α → Prop}

theorem exact_optional (h : Exact read means) :
    Exact (readOptional read) (IsOptional means) := by
  intro node hnode o
  unfold readOptional
  split
  · constructor
    · intro hread
      cases hread
      exact .null
    · intro hmeans
      cases hmeans with
      | null => rfl
      | some hnull _ => exact absurd rfl hnull
  · next hnull =>
    rw [map_eq_ok_iff]
    constructor
    · rintro ⟨a, hread, rfl⟩
      exact .some hnull ((h hnode).mp hread)
    · intro hmeans
      cases hmeans with
      | null => exact absurd rfl hnull
      | some _ hmeans => exact ⟨_, (h hnode).mpr hmeans, rfl⟩

theorem mapM_eq_ok_iff {β γ : Type} {f : β → Outcome γ} {xs : List β} {ys : List γ} :
    xs.mapM f = .ok ys ↔ List.Forall₂ (fun x y => f x = .ok y) xs ys := by
  induction xs generalizing ys with
  | nil => simp [pure, Except.pure, eq_comm]
  | cons x rest ih =>
    rw [List.mapM_cons, bind_eq_ok_iff, List.forall₂_cons_left_iff]
    constructor
    · rintro ⟨y, hy, h⟩
      obtain ⟨others, hothers, h⟩ := bind_eq_ok_iff.mp h
      cases h
      exact ⟨y, others, hy, ih.mp hothers, rfl⟩
    · rintro ⟨y, others, hy, hothers, rfl⟩
      exact ⟨y, hy, bind_eq_ok_iff.mpr ⟨others, ih.mpr hothers, rfl⟩⟩

/-- Lists correspond alike if their items do. -/
theorem forall₂_congr_of_mem {β γ : Type} {R S : β → γ → Prop} {xs : List β}
    (h : ∀ x ∈ xs, ∀ y, R x y ↔ S x y) (ys : List γ) :
    List.Forall₂ R xs ys ↔ List.Forall₂ S xs ys := by
  induction xs generalizing ys with
  | nil => simp
  | cons x rest ih =>
    obtain ⟨hx, hrest⟩ := List.forall_mem_cons.mp h
    rw [List.forall₂_cons_left_iff, List.forall₂_cons_left_iff]
    simp only [hx, ih hrest]

theorem exact_list (h : Exact read means) : Exact (readList read) (IsList means) := by
  intro node hnode items
  cases hnode with
  | null =>
    constructor
    · intro hread
      cases hread
      exact .null
    · intro hmeans
      cases hmeans
      rfl
  | @sequence nodes hnodes =>
    have hitems := forall₂_congr_of_mem (fun node hnode a => @h node (hnodes node hnode) a) items
    rw [readList, mapM_eq_ok_iff, hitems]
    exact ⟨.sequence, fun hmeans => by cases hmeans with | sequence hmeans => exact hmeans⟩
  | _ => exact ⟨nofun, nofun⟩

/-- Entries whose keys are new and distinct are read one by one behind
those that are there. -/
theorem readEntries_eq_ok_iff : ∀ {entries : List (Node × Node)},
    (∀ entry ∈ entries, ∀ a, read entry.2 = .ok a ↔ means entry.2 a) →
      (Node.textKeys entries).Nodup → ∀ {before d : Dictionary α},
        (∀ key ∈ Node.textKeys entries, key ∉ before.names) →
          (readEntries read before entries = .ok d ↔
            ∃ fields, List.Forall₂ (IsEntry means) entries fields ∧
              d.entries = before.entries ++ fields)
  | [], _, _, before, d, _ => by
    constructor
    · intro h
      cases h
      exact ⟨[], .nil, (List.append_nil _).symm⟩
    · rintro ⟨_, ⟨⟩, heq⟩
      rw [List.append_nil] at heq
      rw [readEntries, Dictionary.ext heq]
  | (key, value) :: rest, hread, hkeys, before, d, hnew => by
    obtain ⟨hfirst, hrest⟩ := List.forall_mem_cons.mp hread
    have hstep : ∀ name a, key = .text name →
        (readEntries read (before.insert name a) rest = .ok d ↔
          ∃ fields, List.Forall₂ (IsEntry means) rest fields ∧
            d.entries = before.entries ++ (name, a) :: fields) := by
      rintro name a rfl
      rw [Node.textKeys, List.nodup_cons] at hkeys
      rw [Node.textKeys, List.forall_mem_cons] at hnew
      have hentries : (before.insert name a).entries = before.entries ++ [(name, a)] :=
        Fields.insert_of_notMem hnew.1 a
      rw [readEntries_eq_ok_iff hrest hkeys.2, hentries]
      · simp only [List.append_assoc, List.singleton_append]
      · intro other hother
        rw [Dictionary.names_insert_of_notMem hnew.1, List.mem_append, List.mem_singleton, not_or]
        exact ⟨hnew.2 other hother, fun heq => hkeys.1 (heq ▸ hother)⟩
    rw [readEntries, bind_eq_ok_iff]
    constructor
    · rintro ⟨name, hname, h⟩
      have hkey : key = .text name := readText_eq_ok_iff.mp hname
      obtain ⟨a, ha, h⟩ := bind_eq_ok_iff.mp h
      obtain ⟨fields, hfields, heq⟩ := (hstep name a hkey).mp h
      exact ⟨_, .cons ⟨hkey, (hfirst a).mp ha⟩ hfields, heq⟩
    · rintro ⟨_, hfields, heq⟩
      cases hfields with
      | @cons _ field _ fields hentry hfields =>
        obtain ⟨name, a⟩ := field
        obtain ⟨hkey, hvalue⟩ := hentry
        have hkey : key = .text name := hkey
        refine ⟨name, readText_eq_ok_iff.mpr hkey, bind_eq_ok_iff.mpr ⟨a, (hfirst a).mpr hvalue, ?_⟩⟩
        exact (hstep name a hkey).mpr ⟨fields, hfields, heq⟩

theorem exact_map (h : Exact read means) : Exact (readMap read) (IsMap means) := by
  intro node hnode d
  cases hnode with
  | null =>
    constructor
    · intro hread
      cases hread
      exact .null
    · intro hmeans
      cases hmeans
      rfl
  | @mapping entries hkeys hvalues =>
    rw [readMap, readEntries_eq_ok_iff (fun entry hentry a => @h _ (hvalues entry hentry) a) hkeys
      fun _ _ => List.not_mem_nil]
    constructor
    · rintro ⟨fields, hfields, heq⟩
      exact .mapping (heq ▸ hfields)
    · intro hmeans
      cases hmeans with
      | mapping hmeans => exact ⟨d.entries, hmeans, rfl⟩
  | _ => exact ⟨nofun, nofun⟩

end Values

/-! ## 2. Documents -/

mutual

/-- A value stands for a document. What is no finite number stands for a
null. -/
inductive IsDocument : Node → Json → Prop where
  | null : IsDocument .null .null
  | bool (b : Bool) : IsDocument (.bool b) (.bool b)
  | whole (n : Int) : IsDocument (.whole n) (.number (.whole n))
  | finite (x : Binary64) : IsDocument (.real (.finite x)) (.number (.double x))
  | infinite (negative : Bool) : IsDocument (.real (.infinite negative)) .null
  | notANumber : IsDocument (.real .notANumber) .null
  | text (s : String) : IsDocument (.text s) (.string s)
  | sequence {nodes : List Node} {items : List Json} (h : AreItems nodes items) :
    IsDocument (.sequence nodes) (.array items)
  | mapping {entries : List (Node × Node)} {fields : List (String × Json)}
    (h : AreFields entries fields) : IsDocument (.mapping entries) (.object fields)

/-- Values stand for the items of an array, one by one. -/
inductive AreItems : List Node → List Json → Prop where
  | nil : AreItems [] []
  | cons {node : Node} {item : Json} {nodes : List Node} {items : List Json}
    (h : IsDocument node item) (hrest : AreItems nodes items) :
    AreItems (node :: nodes) (item :: items)

/-- Entries stand for the fields of an object, one by one. -/
inductive AreFields : List (Node × Node) → List (String × Json) → Prop where
  | nil : AreFields [] []
  | cons {name : String} {node : Node} {v : Json} {entries : List (Node × Node)}
    {fields : List (String × Json)} (h : IsDocument node v) (hrest : AreFields entries fields) :
    AreFields ((.text name, node) :: entries) ((name, v) :: fields)

end

mutual

theorem readDocument_eq_ok_iff : ∀ {node : Node}, node.Distinct → ∀ {v : Json},
    readDocument node = .ok v ↔ IsDocument node v
  | .null, _, _ => ⟨fun h => by cases h; exact .null, fun h => by cases h; rfl⟩
  | .bool b, _, _ => ⟨fun h => by cases h; exact .bool b, fun h => by cases h; rfl⟩
  | .whole n, _, _ => ⟨fun h => by cases h; exact .whole n, fun h => by cases h; rfl⟩
  | .real (.finite x), _, _ => ⟨fun h => by cases h; exact .finite x, fun h => by cases h; rfl⟩
  | .real (.infinite negative), _, _ =>
    ⟨fun h => by cases h; exact .infinite negative, fun h => by cases h; rfl⟩
  | .real .notANumber, _, _ => ⟨fun h => by cases h; exact .notANumber, fun h => by cases h; rfl⟩
  | .text s, _, _ => ⟨fun h => by cases h; exact .text s, fun h => by cases h; rfl⟩
  | .sequence nodes, hnode, v => by
    have hnodes : ∀ node ∈ nodes, node.Distinct := by
      cases hnode with
      | sequence h => exact h
    rw [readDocument, bind_eq_ok_iff]
    constructor
    · rintro ⟨items, hitems, ⟨⟩⟩
      exact .sequence ((readDocuments_eq_ok_iff hnodes).mp hitems)
    · rintro ⟨⟩
      next items h => exact ⟨items, (readDocuments_eq_ok_iff hnodes).mpr h, rfl⟩
  | .mapping entries, hnode, v => by
    have hentries : (Node.textKeys entries).Nodup ∧ ∀ entry ∈ entries, entry.2.Distinct := by
      cases hnode with
      | mapping hkeys h => exact ⟨hkeys, h⟩
    have hfields := @readDocumentFields_eq_ok_iff entries hentries.1 hentries.2 []
    rw [readDocument, bind_eq_ok_iff]
    constructor
    · rintro ⟨fields, h, ⟨⟩⟩
      obtain ⟨_, h, rfl⟩ := (hfields fields fun _ _ => List.not_mem_nil).mp h
      exact .mapping h
    · rintro ⟨⟩
      next fields h =>
        exact ⟨fields, (hfields fields fun _ _ => List.not_mem_nil).mpr ⟨fields, h, rfl⟩, rfl⟩

theorem readDocuments_eq_ok_iff : ∀ {nodes : List Node}, (∀ node ∈ nodes, node.Distinct) →
    ∀ {items : List Json}, readDocuments nodes = .ok items ↔ AreItems nodes items
  | [], _, _ => ⟨fun h => by cases h; exact .nil, fun h => by cases h; rfl⟩
  | node :: rest, hnodes, items => by
    obtain ⟨hnode, hrest⟩ := List.forall_mem_cons.mp hnodes
    rw [readDocuments, bind_eq_ok_iff]
    constructor
    · rintro ⟨item, hitem, h⟩
      obtain ⟨others, hothers, ⟨⟩⟩ := bind_eq_ok_iff.mp h
      exact .cons ((readDocument_eq_ok_iff hnode).mp hitem)
        ((readDocuments_eq_ok_iff hrest).mp hothers)
    · intro h
      cases h with
      | cons hitem hothers =>
        exact ⟨_, (readDocument_eq_ok_iff hnode).mpr hitem, bind_eq_ok_iff.mpr
          ⟨_, (readDocuments_eq_ok_iff hrest).mpr hothers, rfl⟩⟩

theorem readDocumentFields_eq_ok_iff : ∀ {entries : List (Node × Node)},
    (Node.textKeys entries).Nodup → (∀ entry ∈ entries, entry.2.Distinct) →
      ∀ (before fields : Fields Json),
        (∀ key ∈ Node.textKeys entries, key ∉ Fields.names before) →
          (readDocumentFields before entries = .ok fields ↔
            ∃ more, AreFields entries more ∧ fields = before ++ more)
  | [], _, _, before, fields, _ => by
    constructor
    · rintro ⟨⟩
      exact ⟨[], .nil, (List.append_nil _).symm⟩
    · rintro ⟨_, ⟨⟩, rfl⟩
      rw [readDocumentFields, List.append_nil]
  | (key, node) :: rest, hkeys, hvalues, before, fields, hnew => by
    cases key with
    | text name =>
      obtain ⟨hnode, hrest⟩ := List.forall_mem_cons.mp hvalues
      rw [Node.textKeys, List.nodup_cons] at hkeys
      rw [Node.textKeys, List.forall_mem_cons] at hnew
      have hstep : ∀ v, readDocumentFields (Fields.insert name v before) rest = .ok fields ↔
          ∃ more, AreFields rest more ∧ fields = before ++ (name, v) :: more := by
        intro v
        rw [Fields.insert_of_notMem hnew.1, readDocumentFields_eq_ok_iff hkeys.2 hrest]
        · simp only [List.append_assoc, List.singleton_append]
        · intro other hother
          rw [Fields.names, List.map_append, List.mem_append]
          rintro (hmem | hmem)
          · exact hnew.2 other hother hmem
          · have heq : other = name := List.mem_singleton.mp hmem
            exact hkeys.1 (heq ▸ hother)
      rw [readDocumentFields, bind_eq_ok_iff]
      constructor
      · rintro ⟨v, hv, h⟩
        obtain ⟨more, hmore, heq⟩ := (hstep v).mp h
        exact ⟨_, .cons ((readDocument_eq_ok_iff hnode).mp hv) hmore, heq⟩
      · rintro ⟨_, h, heq⟩
        cases h with
        | cons hv hmore =>
          exact ⟨_, (readDocument_eq_ok_iff hnode).mpr hv, (hstep _).mpr ⟨_, hmore, heq⟩⟩
    | _ => exact ⟨nofun, nofun⟩

end

theorem exact_document : Exact readDocument IsDocument := readDocument_eq_ok_iff

end TableMapper.Settings
