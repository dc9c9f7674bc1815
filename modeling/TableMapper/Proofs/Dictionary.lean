/-
TableMapper.Proofs.Dictionary — what a dictionary holds after a name is
set.
-/
import TableMapper.Dictionary

namespace TableMapper

namespace Fields

variable {α : Type}

/-- A name has a value if and only if it is among the names. -/
theorem contains_iff_mem_names {name : String} {fields : Fields α} :
    contains name fields = true ↔ name ∈ names fields := by
  induction fields with
  | nil => simp [contains, get?, names]
  | cons field rest ih =>
    unfold contains at ih ⊢
    rw [get?, names, List.map_cons, List.mem_cons]
    split
    · next h => simp [h]
    · next h =>
      rw [ih, names]
      constructor
      · exact .inr
      · exact Or.rec (fun heq => absurd heq.symm h) id

/-- The value that is found under a name stands among the fields. -/
theorem mem_of_get? {name : String} {value : α} {fields : Fields α}
    (h : get? name fields = some value) : (name, value) ∈ fields := by
  induction fields with
  | nil => exact absurd h (by simp [get?])
  | cons field rest ih =>
    rw [get?] at h
    split at h
    · next hn =>
      rw [← hn, ← Option.some.inj h]
      exact List.mem_cons_self
    · exact List.mem_cons_of_mem _ (ih h)

/-- Where the names are distinct, the value of every field is found
under its name. -/
theorem get?_of_mem {name : String} {value : α} {fields : Fields α} (hnames : (names fields).Nodup)
    (h : (name, value) ∈ fields) : get? name fields = some value := by
  induction fields with
  | nil => exact absurd h List.not_mem_nil
  | cons field rest ih =>
    rw [names, List.map_cons, List.nodup_cons] at hnames
    rw [get?]
    rcases List.mem_cons.mp h with rfl | h
    · rw [if_pos rfl]
    · have hne : field.1 ≠ name := by
        rintro rfl
        exact hnames.1 (List.mem_map.mpr ⟨_, h, rfl⟩)
      rw [if_neg hne]
      exact ih hnames.2 h

/-- A field that stands among the fields after one is set is the one, or
stood there before. -/
theorem mem_insert {name : String} {value : α} {field : String × α} {fields : Fields α}
    (h : field ∈ insert name value fields) : field = (name, value) ∨ field ∈ fields := by
  induction fields with
  | nil => exact .inl (List.mem_singleton.mp h)
  | cons first rest ih =>
    rw [insert] at h
    split at h
    · next hn =>
      rcases List.mem_cons.mp h with rfl | h
      · exact .inl (by rw [hn])
      · exact .inr (List.mem_cons_of_mem _ h)
    · rcases List.mem_cons.mp h with rfl | h
      · exact .inr List.mem_cons_self
      · rcases ih h with rfl | h
        · exact .inl rfl
        · exact .inr (List.mem_cons_of_mem _ h)

/-- A new name is set behind all others. -/
theorem insert_of_notMem {name : String} {fields : Fields α} (h : name ∉ names fields)
    (value : α) : insert name value fields = fields ++ [(name, value)] := by
  induction fields with
  | nil => rfl
  | cons field rest ih =>
    rw [names, List.map_cons, List.mem_cons, not_or] at h
    rw [insert, if_neg (Ne.symm h.1), ih h.2]
    rfl

/-- If all names are distinct, a name is new behind those before it. -/
theorem notMem_of_nodup {name : String} {value : α} {before rest : Fields α}
    (h : (names (before ++ (name, value) :: rest)).Nodup) : name ∉ names before := by
  rw [names, List.map_append, List.map_cons] at h
  intro hmem
  exact (List.nodup_append.mp h).2.2 name hmem name List.mem_cons_self rfl

/-- Fields whose names are distinct and new are set behind all others. -/
theorem foldl_insert_eq_append : ∀ {fields before : Fields α}, (names (before ++ fields)).Nodup →
    fields.foldl (fun set (name, value) => insert name value set) before = before ++ fields
  | [], before, _ => (List.append_nil before).symm
  | (name, value) :: rest, before, h => by
    have hnew := notMem_of_nodup h
    rw [List.append_cons] at h
    rw [List.foldl_cons]
    dsimp only
    rw [insert_of_notMem hnew, foldl_insert_eq_append h, ← List.append_cons]

end Fields

namespace Dictionary

variable {α : Type}

theorem ext {d e : Dictionary α} (h : d.entries = e.entries) : d = e := by
  cases d
  cases e
  cases h
  rfl

theorem isEmpty_iff {d : Dictionary α} : d.isEmpty = true ↔ d = empty := by
  rw [isEmpty, List.isEmpty_iff]
  constructor
  · intro h
    exact ext h
  · rintro rfl
    rfl

theorem contains_iff_mem_names {name : String} {d : Dictionary α} :
    d.contains name = true ↔ name ∈ d.names :=
  Fields.contains_iff_mem_names

/-- A name that is set for the first time stands behind all others. -/
theorem names_insert_of_notMem {name : String} {d : Dictionary α} (h : name ∉ d.names)
    (value : α) : (d.insert name value).names = d.names ++ [name] := by
  rw [names, insert, Fields.names_insert]
  exact if_neg h

end Dictionary

end TableMapper
