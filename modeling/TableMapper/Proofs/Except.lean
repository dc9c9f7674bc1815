/-
TableMapper.Proofs.Except — when a computation that may fail has a
result, and which error it has otherwise.

Along a list, the error is that of the first item that is at fault
(`FirstFault`): all items before it are fine.
-/

namespace TableMapper

variable {ε ε' α β : Type}

/-! ## 1. Results and errors -/

/-- A sequence has a result if both parts have one. -/
theorem bind_eq_ok_iff {x : Except ε α} {f : α → Except ε β} {b : β} :
    x >>= f = .ok b ↔ ∃ a, x = .ok a ∧ f a = .ok b := by
  cases x with
  | error e =>
    constructor
    · intro h
      exact absurd h (by simp [bind, Except.bind])
    · rintro ⟨a, h, -⟩
      exact absurd h (by simp)
  | ok a =>
    constructor
    · intro h
      exact ⟨a, rfl, h⟩
    · rintro ⟨a', h, hf⟩
      rw [Except.ok.inj h]
      exact hf

/-- A sequence fails with its first part, or with the second behind a
result of the first. -/
theorem bind_eq_error_iff {x : Except ε α} {f : α → Except ε β} {e : ε} :
    x >>= f = .error e ↔ x = .error e ∨ ∃ a, x = .ok a ∧ f a = .error e := by
  cases x with
  | error e' =>
    constructor
    · intro h
      exact .inl (congrArg Except.error (Except.error.inj h))
    · rintro (h | ⟨a, h, -⟩)
      · exact congrArg Except.error (Except.error.inj h)
      · exact absurd h (by simp)
  | ok a =>
    constructor
    · intro h
      exact .inr ⟨a, rfl, h⟩
    · rintro (h | ⟨a', h, hf⟩)
      · exact absurd h (by simp)
      · rw [Except.ok.inj h]
        exact hf

theorem map_eq_ok_iff {x : Except ε α} {f : α → β} {b : β} :
    x.map f = .ok b ↔ ∃ a, x = .ok a ∧ f a = b := by
  cases x <;> simp [Except.map]

theorem map_eq_error_iff {x : Except ε α} {f : α → β} {e : ε} :
    x.map f = .error e ↔ x = .error e := by
  cases x <;> simp [Except.map]

theorem mapError_eq_ok_iff {x : Except ε α} {f : ε → ε'} {a : α} :
    x.mapError f = .ok a ↔ x = .ok a := by
  cases x with
  | error cause =>
    constructor
    · intro h
      cases h
    · intro h
      cases h
  | ok b =>
    constructor
    · intro h
      exact congrArg Except.ok (Except.ok.inj h)
    · intro h
      exact congrArg Except.ok (Except.ok.inj h)

theorem mapError_eq_error_iff {x : Except ε α} {f : ε → ε'} {e : ε'} :
    x.mapError f = .error e ↔ ∃ cause, x = .error cause ∧ f cause = e := by
  cases x with
  | error cause =>
    constructor
    · intro h
      exact ⟨cause, rfl, Except.error.inj h⟩
    · rintro ⟨_, h, hf⟩
      cases h
      exact congrArg Except.error hf
  | ok a =>
    constructor
    · intro h
      cases h
    · rintro ⟨_, h, -⟩
      cases h

/-! ## 2. The first fault -/

/-- The item is at fault with the error, and all items before it are
fine. -/
inductive FirstFault (fine : α → Prop) (fault : α → ε → Prop) : List α → α → ε → Prop where
  | here {a : α} {e : ε} {rest : List α} (h : fault a e) : FirstFault fine fault (a :: rest) a e
  | later {b a : α} {e : ε} {rest : List α} (hb : fine b) (h : FirstFault fine fault rest a e) :
    FirstFault fine fault (b :: rest) a e

/-- The error is that of the first item for which a computation
fails. -/
abbrev FirstError (f : α → Except ε β) : List α → α → ε → Prop :=
  FirstFault (fun a => ∃ b, f a = .ok b) (fun a e => f a = .error e)

namespace FirstFault

variable {fine : α → Prop} {fault : α → ε → Prop}

theorem cons_iff {b a : α} {e : ε} {rest : List α} :
    FirstFault fine fault (b :: rest) a e ↔
      a = b ∧ fault b e ∨ fine b ∧ FirstFault fine fault rest a e := by
  constructor
  · intro h
    cases h with
    | here h => exact .inl ⟨rfl, h⟩
    | later hb h => exact .inr ⟨hb, h⟩
  · rintro (⟨rfl, h⟩ | ⟨hb, h⟩)
    · exact .here h
    · exact .later hb h

/-- If every item is fine or at fault, all of a list are fine or one is
the first at fault. -/
theorem all_or_exists (h : ∀ a, fine a ∨ ∃ e, fault a e) (items : List α) :
    (∀ a ∈ items, fine a) ∨ ∃ a e, FirstFault fine fault items a e := by
  induction items with
  | nil => exact .inl fun _ ha => absurd ha List.not_mem_nil
  | cons a rest ih =>
    rcases h a with ha | ⟨e, he⟩
    · rcases ih with hrest | ⟨b, e, hb⟩
      · exact .inl (List.forall_mem_cons.mpr ⟨ha, hrest⟩)
      · exact .inr ⟨b, e, .later ha hb⟩
    · exact .inr ⟨a, e, .here he⟩

/-- The item at fault is one of the list. -/
theorem mem {items : List α} {a : α} {e : ε} (h : FirstFault fine fault items a e) :
    a ∈ items ∧ fault a e := by
  induction h with
  | here he => exact ⟨List.mem_cons_self, he⟩
  | later _ _ ih => exact ⟨List.mem_cons_of_mem _ ih.1, ih.2⟩

end FirstFault

/-- A computation that may fail has a result or an error. -/
theorem exists_ok_or_error (x : Except ε α) : (∃ a, x = .ok a) ∨ ∃ e, x = .error e := by
  cases x with
  | ok a => exact .inl ⟨a, rfl⟩
  | error e => exact .inr ⟨e, rfl⟩

/-- There is one first error at most. -/
theorem FirstError.unique {f : α → Except ε β} {items : List α} {a b : α} {e e' : ε}
    (h : FirstError f items a e) (h' : FirstError f items b e') : a = b ∧ e = e' := by
  induction h with
  | here he =>
    cases h' with
    | here he' => exact ⟨rfl, Except.error.inj (he.symm.trans he')⟩
    | later hb _ =>
      obtain ⟨r, hr⟩ := hb
      exact absurd (he.symm.trans hr) (by simp)
  | later ha _ ih =>
    cases h' with
    | here he' =>
      obtain ⟨r, hr⟩ := ha
      exact absurd (he'.symm.trans hr) (by simp)
    | later _ h' => exact ih h'

end TableMapper
