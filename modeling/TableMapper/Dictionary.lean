/-
TableMapper.Dictionary — values under distinct names, in the order in
which the names were first set.
-/
import TableMapper.Json.Basic

namespace TableMapper

/-! ## 1. Names of fields -/

namespace Fields

/-- The names of fields, in order. -/
def names {α : Type} (fields : Fields α) : List String := fields.map Prod.fst

/-- Setting a field leaves the names as they are, or puts a new name
after them. -/
theorem names_insert {α : Type} (name : String) (value : α) :
    ∀ fields : Fields α, names (insert name value fields) =
      if name ∈ names fields then names fields else names fields ++ [name]
  | [] => by simp [names, insert]
  | (n, v) :: rest => by
    by_cases h : n = name
    · simp [names, insert, h]
    · have ih := names_insert name value rest
      have hs : ¬ name = n := fun e => h e.symm
      simp only [names] at ih
      by_cases hm : name ∈ rest.map Prod.fst <;> simp_all [names, insert]

/-- Setting a field changes what stands under its name and nothing
else. -/
theorem get?_insert {α : Type} (name : String) (value : α) (other : String) :
    ∀ fields : Fields α, get? other (insert name value fields) =
      if other = name then some value else get? other fields
  | [] => by
    by_cases h : other = name
    · simp [insert, get?, h]
    · simp [insert, get?, h, Ne.symm h]
  | (n, v) :: rest => by
    have ih := get?_insert name value other rest
    by_cases hn : n = name
    · subst hn
      by_cases h : other = n
      · simp [insert, get?, h]
      · simp [insert, get?, h, Ne.symm h]
    · by_cases h : n = other
      · subst h
        simp [insert, get?, hn]
      · simp [insert, get?, hn, h, ih]

/-- Setting a field keeps the names distinct. -/
theorem nodup_names_insert {α : Type} (name : String) (value : α) {fields : Fields α}
    (h : (names fields).Nodup) : (names (insert name value fields)).Nodup := by
  rw [names_insert]
  split
  · exact h
  · next hm =>
    rw [List.nodup_append]
    exact ⟨h, by simp, by intro a ha b hb; simp at hb; subst hb; intro e; exact hm (e ▸ ha)⟩

end Fields

/-! ## 2. Dictionaries -/

/-- Values under distinct names. -/
structure Dictionary (α : Type) where
  entries : Fields α
  distinct : (Fields.names entries).Nodup

namespace Dictionary

variable {α : Type}

/-- The dictionary without entries. -/
def empty : Dictionary α := ⟨[], by simp [Fields.names]⟩

/-- Sets a name: in its place if it has one, else after all others. -/
def insert (name : String) (value : α) (d : Dictionary α) : Dictionary α :=
  ⟨Fields.insert name value d.entries, Fields.nodup_names_insert name value d.distinct⟩

/-- The dictionary of fields; a repeated name keeps its first place and
takes the last value. -/
def ofFields (fields : Fields α) : Dictionary α :=
  fields.foldl (fun d (name, value) => d.insert name value) empty

/-- The value under a name. -/
def get? (name : String) (d : Dictionary α) : Option α := Fields.get? name d.entries

/-- Whether a name is set. -/
def contains (name : String) (d : Dictionary α) : Bool := Fields.contains name d.entries

/-- The names, in order. -/
def names (d : Dictionary α) : List String := Fields.names d.entries

/-- The values, in order. -/
def values (d : Dictionary α) : List α := d.entries.map Prod.snd

/-- Whether no name is set. -/
def isEmpty (d : Dictionary α) : Bool := d.entries.isEmpty

end Dictionary

end TableMapper
