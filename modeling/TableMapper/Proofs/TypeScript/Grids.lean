/-
TableMapper.Proofs.TypeScript.Grids — the type of a grid that is put
together from others.

Between bars the types of the grids are the alternatives of the whole.
Behind brackets and between ampersands that is so only if no grid is too
large to be reached as one operand. Otherwise some alternative of the
whole weighs less than it would, and the type is another.
-/
import TableMapper.Proofs.TypeScript.TextReading

namespace TableMapper.TypeScript

open TypeTree (Same)

/-! ## 1. The shape of a grid -/

namespace Grid

/-- A grid of one alternative. -/
def IsRow (g : Grid) : Prop := g.rows = []

/-- A grid of one operand. -/
def IsCell (g : Grid) : Prop := g.rows = [] ∧ g.factors = []

theorem isCell_single (t : TypeTree) : (single t).IsCell := ⟨rfl, rfl⟩

theorem isRow_single (t : TypeTree) : (single t).IsRow := rfl

theorem isCell_brackets (g : Grid) : g.brackets.IsCell ↔ g.IsCell := Iff.rfl

theorem isRow_brackets (g : Grid) : g.brackets.IsRow ↔ g.IsRow := Iff.rfl

theorem not_isRow_either (g h : Grid) : ¬(g.either h).IsRow := by
  obtain ⟨hRows, hFactors, hLast⟩ := h
  cases hRows <;> simp [IsRow, either, place, alternatives]

theorem isRow_both (g h : Grid) : (g.both h).IsRow ↔ g.IsRow ∧ h.IsRow := by
  obtain ⟨hRows, hFactors, hLast⟩ := h
  cases hRows <;> simp [IsRow, both, place]

theorem not_isCell_both (g h : Grid) : ¬(g.both h).IsCell := by
  obtain ⟨hRows, hFactors, hLast⟩ := h
  cases hRows <;> simp [IsCell, both, place, lastRow]

/-- What is read from several grids with ampersands has alternatives as
soon as one of them has. -/
theorem isRow_bothAll : ∀ {grids : List Grid}, grids ≠ [] →
    ((bothAll grids).IsRow ↔ ∀ g ∈ grids, g.IsRow)
  | [], h => absurd rfl h
  | [g], _ => by simp [bothAll]
  | g :: h :: rest, _ => by
    have ih := isRow_bothAll (List.cons_ne_nil h rest)
    rw [bothAll_cons, isRow_both, ih]
    simp

theorem mem_lastRow (g : Grid) : g.lastRow ∈ g.alternatives :=
  List.mem_append_right _ (List.mem_singleton.mpr rfl)

/-- The rows of the first grid are alternatives of both. -/
theorem mem_alternatives_both {g h : Grid} {row : List TypeTree} (hrow : row ∈ g.rows) :
    row ∈ (g.both h).alternatives := by
  obtain ⟨hRows, hFactors, hLast⟩ := h
  cases hRows <;> simp [both, place, alternatives, hrow]

theorem lastRow_both_of_isRow {g h : Grid} (hrow : h.IsRow) :
    (g.both h).lastRow = g.lastRow ++ h.lastRow := by
  obtain ⟨hRows, hFactors, hLast⟩ := h
  cases hrow
  simp [both, place, lastRow]

theorem lastRow_both_of_not_isRow {g h : Grid} (hrow : ¬h.IsRow) :
    (g.both h).lastRow = h.lastRow := by
  obtain ⟨hRows, hFactors, hLast⟩ := h
  cases hRows with
  | nil => exact absurd rfl hrow
  | cons row more => rfl

/-! ## 2. The type of a grid -/

theorem close_of_isRow {g : Grid} (h : g.IsRow) : g.close = .intersectionOf g.lastRow := by
  obtain ⟨rows, factors, last⟩ := g
  cases h
  rfl

theorem close_brackets {g : Grid} (h : g.IsCell) : g.brackets.close = .array g.close := by
  obtain ⟨rows, factors, last⟩ := g
  obtain ⟨hrows, hfactors⟩ := h
  cases hrows
  cases hfactors
  rfl

/-- The type of a grid is the union of its alternatives. -/
theorem same_close (g : Grid) : Same g.close (.union (g.alternatives.map .intersectionOf)) :=
  .of_unionOf _

theorem map_alternatives_ne_nil (g : Grid) : g.alternatives.map TypeTree.intersectionOf ≠ [] := by
  simp [alternatives]

theorem same_either (g h : Grid) : Same (g.either h).close (.union [g.close, h.close]) := by
  have hfirst : Same (.union [g.close, h.close])
      (.union (g.alternatives.map .intersectionOf ++ [h.close])) :=
    Same.unionOf_flat [] [h.close] g.map_alternatives_ne_nil
  have hsecond := Same.unionOf_flat (g.alternatives.map .intersectionOf) []
    h.map_alternatives_ne_nil
  have hclose := same_close (g.either h)
  rw [alternatives_either, List.map_append] at hclose
  rw [List.append_nil] at hsecond
  exact hclose.trans (hfirst.trans hsecond).symm

/-- Between bars, the types of the grids are the alternatives. -/
theorem same_eitherAll : ∀ {grids : List Grid}, grids ≠ [] →
    Same (eitherAll grids).close (.union (grids.map close))
  | [], h => absurd rfl h
  | [g], _ => (Same.unionOne g.close).symm
  | g :: h :: rest, _ => by
    have ih := Same.union [g.close] [] (same_eitherAll (List.cons_ne_nil h rest))
    have hflat := Same.unionFlat [g.close] [] (List.cons_ne_nil h.close (rest.map close))
    rw [List.append_nil] at hflat
    exact (same_either g (eitherAll (h :: rest))).trans (ih.trans hflat)

theorem same_both {g h : Grid} (hg : g.IsRow) (hh : h.IsRow) :
    Same (g.both h).close (.intersection [g.close, h.close]) := by
  have hclose := Same.of_intersectionOf (g.both h).lastRow
  have hfirst : Same (.intersection [.intersectionOf g.lastRow, .intersectionOf h.lastRow])
      (.intersection (g.lastRow ++ [.intersectionOf h.lastRow])) :=
    Same.intersectionOf_flat [] [.intersectionOf h.lastRow] (by simp [lastRow])
  have hne : h.lastRow ≠ [] := by simp [lastRow]
  have hsecond := Same.intersectionOf_flat g.lastRow [] hne
  rw [List.append_nil] at hsecond
  rw [lastRow_both_of_isRow hh] at hclose
  rw [close_of_isRow ((isRow_both g h).mpr ⟨hg, hh⟩), close_of_isRow hg, close_of_isRow hh,
    lastRow_both_of_isRow hh]
  exact hclose.trans (hfirst.trans hsecond).symm

/-- Between ampersands, the types of the grids are the factors, if none
of them has alternatives. -/
theorem same_bothAll : ∀ {grids : List Grid}, grids ≠ [] → (∀ g ∈ grids, g.IsRow) →
    Same (bothAll grids).close (.intersection (grids.map close))
  | [], h, _ => absurd rfl h
  | [g], _, _ => (Same.intersectionOne g.close).symm
  | g :: h :: rest, _, hrows => by
    have hne := List.cons_ne_nil h rest
    have hrest : ∀ x ∈ h :: rest, x.IsRow := fun x hx => hrows x (List.mem_cons_of_mem g hx)
    have ih := Same.intersection [g.close] [] (same_bothAll hne hrest)
    have hflat := Same.intersectionFlat [g.close] [] (List.cons_ne_nil h.close (rest.map close))
    rw [List.append_nil] at hflat
    have hboth := same_both (hrows g List.mem_cons_self) ((isRow_bothAll hne).mpr hrest)
    exact hboth.trans (ih.trans hflat)

/-! ## 3. Brackets and ampersands that do not reach -/

/-- Some alternative of a grid has no more than the weight of a row. -/
theorem exists_value_le_total {g : Grid} {row : List TypeTree} (h : row ∈ g.alternatives) :
    ∃ n ∈ g.close.values, n ≤ max 1 (TypeTree.total row) := by
  obtain ⟨n, hn, hle⟩ := TypeTree.exists_value_le (.intersectionOf row)
  rw [TypeTree.high_intersectionOf] at hle
  refine ⟨n, ?_, hle⟩
  rw [(same_close g).mem_values, TypeTree.values_union g.map_alternatives_ne_nil]
  obtain ⟨before, after, hsplit⟩ := List.append_of_mem (List.mem_map_of_mem h)
  rw [hsplit, TypeTree.valuesOf_append, TypeTree.valuesOf]
  exact List.mem_append_right _ (List.mem_append_left _ hn)

theorem total_le_high_close {g : Grid} {row : List TypeTree} (h : row ∈ g.alternatives) :
    max 1 (TypeTree.total row) ≤ g.close.high := by
  rw [close, TypeTree.high_unionOf, ← TypeTree.high_intersectionOf]
  exact TypeTree.high_le_highest (List.mem_map_of_mem h)

/-- Behind several operands, brackets leave an alternative that weighs
less than an array of all of them. -/
theorem exists_row_brackets {g : Grid} (h : ¬g.IsCell) :
    ∃ row ∈ g.brackets.alternatives, max 1 (TypeTree.total row) < 2 * g.close.high := by
  obtain ⟨rows, factors, last⟩ := g
  cases rows with
  | cons row more =>
    have hrow : row ∈ alternatives ⟨row :: more, factors, last⟩ := List.mem_cons_self
    refine ⟨row, List.mem_cons_self, ?_⟩
    have := total_le_high_close hrow
    omega
  | nil =>
    cases factors with
    | nil => exact absurd ⟨rfl, rfl⟩ h
    | cons t factors =>
      refine ⟨_, mem_lastRow _, ?_⟩
      have := t.high_pos
      rw [close_of_isRow (g := ⟨[], t :: factors, last⟩) rfl, TypeTree.high_intersectionOf]
      simp only [brackets, lastRow, TypeTree.total_append, List.cons_append, TypeTree.total,
        TypeTree.high]
      omega

/-- Brackets behind several operands do not make an array of all of
them. -/
theorem isCell_of_same_brackets {g : Grid} {t : TypeTree} (hclose : Same g.close t)
    (h : Same g.brackets.close (.array t)) : g.IsCell := by
  by_contra hcell
  obtain ⟨row, hrow, hlt⟩ := exists_row_brackets hcell
  obtain ⟨n, hn, hle⟩ := exists_value_le_total hrow
  rw [h.mem_values, TypeTree.values, ← hclose.high_eq, List.mem_singleton] at hn
  omega

/-- The last alternative of several grids with ampersands weighs no more
than all of them. -/
theorem total_lastRow_le : ∀ {grids : List Grid}, grids ≠ [] →
    TypeTree.total (bothAll grids).lastRow ≤ TypeTree.total (grids.map close)
  | [], h => absurd rfl h
  | [g], _ => by
    have := total_le_high_close g.mem_lastRow
    simp only [bothAll, List.map_cons, List.map_nil, TypeTree.total]
    omega
  | g :: h :: rest, _ => by
    have ih := total_lastRow_le (List.cons_ne_nil h rest)
    have hfirst := total_le_high_close g.mem_lastRow
    rw [bothAll_cons, List.map_cons, TypeTree.total]
    by_cases hrow : (bothAll (h :: rest)).IsRow
    · rw [lastRow_both_of_isRow hrow, TypeTree.total_append]
      omega
    · rw [lastRow_both_of_not_isRow hrow]
      omega

/-- Where one of several grids has alternatives, ampersands leave an
alternative that weighs less than all of them. -/
theorem exists_row_bothAll {g h : Grid} {rest : List Grid}
    (hrow : ¬∀ x ∈ g :: h :: rest, x.IsRow) :
    ∃ row ∈ (bothAll (g :: h :: rest)).alternatives,
      max 1 (TypeTree.total row) < TypeTree.total ((g :: h :: rest).map close) := by
  have hne := List.cons_ne_nil h rest
  have hg := g.close.high_pos
  have hothers : 1 ≤ TypeTree.total ((h :: rest).map close) :=
    TypeTree.total_pos (List.cons_ne_nil _ _)
  rw [bothAll_cons, List.map_cons, TypeTree.total]
  by_cases hrest : (bothAll (h :: rest)).IsRow
  · have hfirst : ¬g.IsRow := by
      intro hfirst
      refine hrow fun x hx => ?_
      rcases List.mem_cons.mp hx with rfl | hx
      · exact hfirst
      · exact (isRow_bothAll hne).mp hrest x hx
    obtain ⟨row, more, hrows⟩ := List.exists_cons_of_ne_nil hfirst
    have hmem : row ∈ g.rows := by
      rw [hrows]
      exact List.mem_cons_self
    refine ⟨row, mem_alternatives_both hmem, ?_⟩
    have := total_le_high_close (List.mem_append_left [g.lastRow] hmem)
    omega
  · refine ⟨_, mem_lastRow _, ?_⟩
    have := total_lastRow_le hne
    rw [lastRow_both_of_not_isRow hrest]
    omega

/-- Ampersands behind and before alternatives do not make an
intersection of all of them. -/
theorem isRow_of_same_bothAll {g h : Grid} {rest : List Grid} {trees : List TypeTree}
    (hclose : List.Forall₂ (fun g t => Same g.close t) (g :: h :: rest) trees)
    (hsame : Same (bothAll (g :: h :: rest)).close (.intersection trees)) :
    ∀ x ∈ g :: h :: rest, x.IsRow := by
  by_contra hrow
  obtain ⟨row, hmem, hlt⟩ := exists_row_bothAll hrow
  obtain ⟨n, hn, hle⟩ := exists_value_le_total hmem
  have hall : Same (.intersection ((g :: h :: rest).map close)) (.intersection trees) :=
    Same.all Same.intersection [] (List.forall₂_map_left_iff.mpr hclose)
  have hvalues : TypeTree.values (.intersection ((g :: h :: rest).map close)) =
      [max 1 (TypeTree.total ((g :: h :: rest).map close))] := rfl
  rw [hsame.mem_values, ← hall.mem_values, hvalues, List.mem_singleton] at hn
  omega

end Grid

end TableMapper.TypeScript
