/-
TableMapper.Proofs.TypeScript.Grouping — when the text of a type
expression is grouped as the expression is.

`tree` is the type that an expression stands for, and `IsMeant` says
that its text is read as that type. This fails for an array of what is
read as several operands, and for an intersection of what is read as
several alternatives. `isMeant_parts_iff` shows that, for an expression
and all of its parts, these are the only failures but for names that are
not words: `Sound` holds of the parts if and only if each of them is
read as it is meant. What stands before brackets and around ampersands
is compound only where its text begins with a brace
(`bareByBrace_operand`).
-/
import TableMapper.Proofs.TypeScript.Grids

namespace TableMapper.TypeScript.TypeExpr

open TypeTree (Same)

/-! ## 1. What is meant -/

mutual

/-- The type that an expression stands for. -/
def tree : TypeExpr → TypeTree
  | .name s => .word s
  | .verbatim source => .word source
  | .literal value => value.typeTree
  | .array element => .array (tree element)
  | .tuple elements => .tuple (treesOf elements)
  | .union branches => .union (treesOf branches)
  | .intersection branches => .intersection (treesOf branches)
  | .parens inner => tree inner
  | .object members further => .braces (memberTokens members ++ furtherTokens further)

/-- The types that several expressions stand for. -/
def treesOf : List TypeExpr → List TypeTree
  | [] => []
  | e :: es => tree e :: treesOf es

end

/-- The text of the expression at a level is read as the type that the
expression stands for. -/
def IsMeant (level : Nat) (e : TypeExpr) : Prop :=
  ∃ t, TypeTree.read? (e.text level) = some t ∧ Same t e.tree

/-- Whether an expression has several alternatives that no parentheses
enclose. -/
def hasAlternatives : TypeExpr → Bool
  | .union [e] => hasAlternatives e
  | .union (_ :: _ :: _) => true
  | .intersection [e] => hasAlternatives e
  | _ => false

/-- Whether an expression has several alternatives or several factors
that no parentheses enclose. -/
def isCompound : TypeExpr → Bool
  | .union [e] => isCompound e
  | .union (_ :: _ :: _) => true
  | .intersection [e] => isCompound e
  | .intersection (_ :: _ :: _) => true
  | _ => false

/-- Brackets and ampersands reach what they should, as far as it is not
the parts in which they do not. -/
def Grouped : TypeExpr → Prop
  | .array element => element.isCompound = false
  | .intersection (first :: second :: rest) =>
    ∀ e ∈ first :: second :: rest, e.hasAlternatives = false
  | _ => True

/-- An expression that is read as it is meant, as far as its parts
are. -/
structure Sound (e : TypeExpr) : Prop where
  plain : e.Plain
  grouped : e.Grouped

/-! ## 2. Sound parts are read as they are meant -/

theorem Sound.all_plain {es : List TypeExpr} (h : All Sound es) : All Plain es :=
  fun e he => (h e he).plain

/-- With sound parts, what is compound is what is read as several
operands. -/
theorem isCell_grid : ∀ {e : TypeExpr}, All Sound e.parts →
    (e.grid.IsCell ↔ e.isCompound = false)
  | .name _, _ => iff_of_true (Grid.isCell_single _) rfl
  | .verbatim _, _ => iff_of_true (Grid.isCell_single _) rfl
  | .literal _, _ => iff_of_true (Grid.isCell_single _) rfl
  | .array element, h => by
    have hgrouped : element.isCompound = false := (h _ List.mem_cons_self).grouped
    have hcell := (isCell_grid (e := element) h.tail).mpr hgrouped
    exact iff_of_true ((Grid.isCell_brackets _).mpr hcell) rfl
  | .tuple _, _ => iff_of_true (Grid.isCell_single _) rfl
  | .union [], _ => iff_of_true (Grid.isCell_single _) rfl
  | .union [e], h => isCell_grid (e := e) h.tail.left
  | .union (_ :: _ :: _), _ =>
    iff_of_false (fun hcell => Grid.not_isRow_either _ _ hcell.1) Bool.false_ne_true.symm
  | .intersection [], _ => iff_of_true (Grid.isCell_single _) rfl
  | .intersection [e], h => isCell_grid (e := e) h.tail.left
  | .intersection (_ :: _ :: _), _ =>
    iff_of_false (Grid.not_isCell_both _ _) Bool.false_ne_true.symm
  | .parens _, _ => iff_of_true (Grid.isCell_single _) rfl
  | .object _ _, _ => iff_of_true (Grid.isCell_single _) rfl

theorem gridsOf_ne_nil {es : List TypeExpr} (h : es ≠ []) : gridsOf es ≠ [] := by
  cases es with
  | nil => exact absurd rfl h
  | cons e es => exact List.cons_ne_nil _ _

mutual

/-- With sound parts, what has alternatives is what is read as several
alternatives. -/
theorem isRow_grid : ∀ {e : TypeExpr}, All Sound e.parts →
    (e.grid.IsRow ↔ e.hasAlternatives = false)
  | .name _, _ => iff_of_true (Grid.isRow_single _) rfl
  | .verbatim _, _ => iff_of_true (Grid.isRow_single _) rfl
  | .literal _, _ => iff_of_true (Grid.isRow_single _) rfl
  | .array element, h => by
    have hgrouped : element.isCompound = false := (h _ List.mem_cons_self).grouped
    have hcell := (isCell_grid (e := element) h.tail).mpr hgrouped
    exact iff_of_true ((Grid.isRow_brackets _).mpr hcell.1) rfl
  | .tuple _, _ => iff_of_true (Grid.isRow_single _) rfl
  | .union [], _ => iff_of_true (Grid.isRow_single _) rfl
  | .union [e], h => isRow_grid (e := e) h.tail.left
  | .union (_ :: _ :: _), _ => iff_of_false (Grid.not_isRow_either _ _) Bool.false_ne_true.symm
  | .intersection [], _ => iff_of_true (Grid.isRow_single _) rfl
  | .intersection [e], h => isRow_grid (e := e) h.tail.left
  | .intersection (first :: second :: rest), h => by
    have hrows := (isRow_gridsOf h.tail).mpr
      (h _ List.mem_cons_self).grouped
    exact iff_of_true ((Grid.isRow_bothAll (gridsOf_ne_nil (List.cons_ne_nil _ _))).mpr hrows) rfl
  | .parens _, _ => iff_of_true (Grid.isRow_single _) rfl
  | .object _ _, _ => iff_of_true (Grid.isRow_single _) rfl

theorem isRow_gridsOf : ∀ {es : List TypeExpr}, All Sound (partsOf es) →
    ((∀ g ∈ gridsOf es, g.IsRow) ↔ ∀ e ∈ es, e.hasAlternatives = false)
  | [], _ => by simp [gridsOf]
  | e :: es, h => by
    have hfirst := isRow_grid (e := e) h.left
    have hrest := isRow_gridsOf h.right
    rw [gridsOf, List.forall_mem_cons, List.forall_mem_cons, hfirst, hrest]

end

mutual

/-- With sound parts, what is read is what the expression stands for. -/
theorem same_close_grid : ∀ {e : TypeExpr}, All Sound e.parts → Same e.grid.close e.tree
  | .name _, _ => .refl _
  | .verbatim _, _ => .refl _
  | .literal _, _ => .refl _
  | .array element, h => by
    have hgrouped : element.isCompound = false := (h _ List.mem_cons_self).grouped
    have hcell := (isCell_grid (e := element) h.tail).mpr hgrouped
    have ih := same_close_grid (e := element) h.tail
    rw [grid, tree, Grid.close_brackets hcell]
    exact .array ih
  | .tuple elements, h =>
    Same.all Same.tuple [] (List.forall₂_map_left_iff.mpr (same_close_gridsOf h.tail))
  | .union branches, h => by
    have hne : branches ≠ [] := (h _ List.mem_cons_self).plain
    have hall := Same.all Same.union []
      (List.forall₂_map_left_iff.mpr (same_close_gridsOf h.tail))
    exact (Grid.same_eitherAll (gridsOf_ne_nil hne)).trans hall
  | .intersection branches, h => by
    have hne : branches ≠ [] := (h _ List.mem_cons_self).plain
    have hall := Same.all Same.intersection []
      (List.forall₂_map_left_iff.mpr (same_close_gridsOf h.tail))
    match branches, h, hall, hne with
    | [e], _, hall, _ => exact (Same.intersectionOne _).symm.trans hall
    | first :: second :: rest, h, hall, hne =>
      have hrows := (isRow_gridsOf h.tail).mpr
        (h _ List.mem_cons_self).grouped
      exact (Grid.same_bothAll (gridsOf_ne_nil hne) hrows).trans hall
  | .parens inner, h => same_close_grid (e := inner) h
  | .object _ _, _ => .refl _

theorem same_close_gridsOf : ∀ {es : List TypeExpr}, All Sound (partsOf es) →
    List.Forall₂ (fun g t => Same g.close t) (gridsOf es) (treesOf es)
  | [], _ => .nil
  | _ :: _, h => .cons (same_close_grid h.left) (same_close_gridsOf h.right)

end

/-- An expression with sound parts is read as it is meant. -/
theorem isMeant_of_sound {e : TypeExpr} (h : All Sound e.parts) (level : Nat) :
    e.IsMeant level :=
  ⟨_, read?_text (Sound.all_plain h) level, same_close_grid h⟩

/-! ## 3. What is read as it is meant is sound -/

/-- An expression that is not given by its source text. -/
def NotVerbatim : TypeExpr → Prop
  | .verbatim _ => False
  | _ => True

theorem sound_name {s : String} {level : Nat} (h : IsMeant level (.name s)) :
    Sound (.name s) := by
  obtain ⟨t, hread, hsame⟩ := h
  have hmem : s ∈ t.words := (hsame.mem_words s).mpr (List.mem_singleton.mpr rfl)
  exact ⟨TypeTree.isWord_of_mem_read? hread s hmem, trivial⟩

/-- An array that is read as it is meant has one operand before its
brackets. -/
theorem sound_array {element : TypeExpr} {level : Nat} (hparts : All Sound element.parts)
    (h : IsMeant level (.array element)) : Sound (.array element) := by
  obtain ⟨t, hread, hsame⟩ := h
  have hplain : All Plain (TypeExpr.array element).parts :=
    List.forall_mem_cons.mpr ⟨trivial, Sound.all_plain hparts⟩
  rw [read?_text hplain] at hread
  cases hread
  have hcell := Grid.isCell_of_same_brackets (same_close_grid hparts) hsame
  exact ⟨trivial, (isCell_grid hparts).mp hcell⟩

theorem sound_union {branches : List TypeExpr} {level : Nat}
    (h : IsMeant level (.union branches)) : Sound (.union branches) := by
  obtain ⟨t, hread, -⟩ := h
  refine ⟨?_, trivial⟩
  rintro rfl
  have hnone : TypeTree.read? "" = none := rfl
  exact absurd (hnone.symm.trans hread) (Option.some_ne_none t).symm

/-- An intersection that is read as it is meant has no alternatives
behind or before its ampersands. -/
theorem sound_intersection {branches : List TypeExpr} {level : Nat}
    (hparts : All Sound (partsOf branches)) (h : IsMeant level (.intersection branches)) :
    Sound (.intersection branches) := by
  obtain ⟨t, hread, hsame⟩ := h
  have hne : branches ≠ [] := by
    rintro rfl
    have hnone : TypeTree.read? "" = none := rfl
    exact absurd (hnone.symm.trans hread) (Option.some_ne_none t).symm
  have hplain : All Plain (TypeExpr.intersection branches).parts :=
    List.forall_mem_cons.mpr ⟨hne, Sound.all_plain hparts⟩
  rw [read?_text hplain] at hread
  cases hread
  refine ⟨hne, ?_⟩
  match branches, hparts, hsame with
  | [], _, _ => trivial
  | [_], _, _ => trivial
  | first :: second :: rest, hparts, hsame =>
    exact (isRow_gridsOf hparts).mp
      (Grid.isRow_of_same_bothAll (same_close_gridsOf hparts) hsame)

mutual

/-- Parts that are read as they are meant are sound, whatever level each
of them stands at. -/
theorem sound_parts {levels : TypeExpr → Nat} : ∀ {e : TypeExpr}, All NotVerbatim e.parts →
    All (fun x => x.IsMeant (levels x)) e.parts → All Sound e.parts
  | .name _, _, h => List.forall_mem_singleton.mpr (sound_name (h _ List.mem_cons_self))
  | .verbatim _, hverbatim, _ => absurd (hverbatim _ List.mem_cons_self) id
  | .literal _, _, _ => List.forall_mem_singleton.mpr ⟨trivial, trivial⟩
  | .array element, hverbatim, h =>
    have hparts := sound_parts (e := element) hverbatim.tail h.tail
    List.forall_mem_cons.mpr ⟨sound_array hparts (h _ List.mem_cons_self), hparts⟩
  | .tuple _, hverbatim, h =>
    List.forall_mem_cons.mpr ⟨⟨trivial, trivial⟩, sound_partsOf hverbatim.tail h.tail⟩
  | .union _, hverbatim, h =>
    List.forall_mem_cons.mpr
      ⟨sound_union (h _ List.mem_cons_self), sound_partsOf hverbatim.tail h.tail⟩
  | .intersection _, hverbatim, h =>
    have hparts := sound_partsOf hverbatim.tail h.tail
    List.forall_mem_cons.mpr ⟨sound_intersection hparts (h _ List.mem_cons_self), hparts⟩
  | .parens inner, hverbatim, h => sound_parts (e := inner) hverbatim h
  | .object _ _, hverbatim, h =>
    List.forall_mem_cons.mpr ⟨⟨trivial, trivial⟩, List.forall_mem_append.mpr
      ⟨sound_partsOfMembers hverbatim.tail.left h.tail.left,
        sound_partsOfFurther hverbatim.tail.right h.tail.right⟩⟩

theorem sound_partsOf {levels : TypeExpr → Nat} : ∀ {es : List TypeExpr},
    All NotVerbatim (partsOf es) → All (fun x => x.IsMeant (levels x)) (partsOf es) →
      All Sound (partsOf es)
  | [], _, _ => fun _ hx => absurd hx List.not_mem_nil
  | _ :: _, hverbatim, h => List.forall_mem_append.mpr
      ⟨sound_parts hverbatim.left h.left, sound_partsOf hverbatim.right h.right⟩

theorem sound_partsOfMembers {levels : TypeExpr → Nat} :
    ∀ {members : List (PropertyHead × TypeExpr)}, All NotVerbatim (partsOfMembers members) →
      All (fun x => x.IsMeant (levels x)) (partsOfMembers members) →
        All Sound (partsOfMembers members)
  | [], _, _ => fun _ hx => absurd hx List.not_mem_nil
  | (_, _) :: _, hverbatim, h => List.forall_mem_append.mpr
      ⟨sound_parts hverbatim.left h.left, sound_partsOfMembers hverbatim.right h.right⟩

theorem sound_partsOfFurther {levels : TypeExpr → Nat} : ∀ {further : Option TypeExpr},
    All NotVerbatim (partsOfFurther further) →
      All (fun x => x.IsMeant (levels x)) (partsOfFurther further) →
        All Sound (partsOfFurther further)
  | none, _, _ => fun _ hx => absurd hx List.not_mem_nil
  | some type, hverbatim, h => sound_parts (e := type) hverbatim h

end

/-! ## 4. Parts of parts -/

/-- What stands in an expression with further parts is the expression
itself, or stands in these. -/
theorem parts_subset_of_cons {e x : TypeExpr} {inner : List TypeExpr}
    (hparts : e.parts = e :: inner) (hinner : x ∈ inner → x.parts ⊆ inner)
    (h : x ∈ e.parts) : x.parts ⊆ e.parts := by
  rw [hparts] at h
  rcases List.mem_cons.mp h with rfl | h
  · exact List.Subset.refl _
  · rw [hparts]
    exact List.Subset.trans (hinner h) (List.subset_cons_self _ _)

mutual

/-- The parts of a part are parts. -/
theorem parts_subset : ∀ {e x : TypeExpr}, x ∈ e.parts → x.parts ⊆ e.parts
  | .name _, _, h => by rw [List.mem_singleton.mp h]; exact List.Subset.refl _
  | .verbatim _, _, h => by rw [List.mem_singleton.mp h]; exact List.Subset.refl _
  | .literal _, _, h => by rw [List.mem_singleton.mp h]; exact List.Subset.refl _
  | .array element, _, h => parts_subset_of_cons rfl (parts_subset (e := element)) h
  | .tuple _, _, h => parts_subset_of_cons rfl partsOf_subset h
  | .union _, _, h => parts_subset_of_cons rfl partsOf_subset h
  | .intersection _, _, h => parts_subset_of_cons rfl partsOf_subset h
  | .parens inner, _, h => parts_subset (e := inner) h
  | .object members further, x, h => by
    refine parts_subset_of_cons rfl (fun hinner => ?_) h
    rcases List.mem_append.mp hinner with h | h
    · exact List.Subset.trans (partsOfMembers_subset h) (List.subset_append_left _ _)
    · exact List.Subset.trans (partsOfFurther_subset h) (List.subset_append_right _ _)

theorem partsOf_subset : ∀ {es : List TypeExpr} {x : TypeExpr}, x ∈ partsOf es →
    x.parts ⊆ partsOf es
  | [], _, h => absurd h List.not_mem_nil
  | e :: es, x, h => by
    rcases List.mem_append.mp h with h | h
    · exact List.Subset.trans (parts_subset (e := e) h) (List.subset_append_left _ _)
    · exact List.Subset.trans (partsOf_subset h) (List.subset_append_right _ _)

theorem partsOfMembers_subset : ∀ {members : List (PropertyHead × TypeExpr)} {x : TypeExpr},
    x ∈ partsOfMembers members → x.parts ⊆ partsOfMembers members
  | [], _, h => absurd h List.not_mem_nil
  | (_, type) :: rest, x, h => by
    rcases List.mem_append.mp h with h | h
    · exact List.Subset.trans (parts_subset (e := type) h) (List.subset_append_left _ _)
    · exact List.Subset.trans (partsOfMembers_subset h) (List.subset_append_right _ _)

theorem partsOfFurther_subset : ∀ {further : Option TypeExpr} {x : TypeExpr},
    x ∈ partsOfFurther further → x.parts ⊆ partsOfFurther further
  | none, _, h => absurd h List.not_mem_nil
  | some type, _, h => parts_subset (e := type) h

end

/-- Where no part is given by its source text, the parts of an
expression are read as they are meant if and only if they are sound. -/
theorem isMeant_parts_iff {e : TypeExpr} (hverbatim : All NotVerbatim e.parts)
    (levels : TypeExpr → Nat) :
    All (fun x => x.IsMeant (levels x)) e.parts ↔ All Sound e.parts := by
  constructor
  · exact sound_parts hverbatim
  · intro h x hx
    exact isMeant_of_sound (fun y hy => h y (parts_subset hx hy)) (levels x)

/-! ## 5. Operands -/

theorem occurs_append (pattern after before : List Char) :
    occurs pattern (before ++ (pattern ++ after)) = true := by
  induction before with
  | nil =>
    have hstarts : pattern.isPrefixOf (pattern ++ after) = true :=
      List.isPrefixOf_iff_prefix.mpr (List.prefix_append _ _)
    rw [List.nil_append]
    cases htext : pattern ++ after with
    | nil =>
      rw [(List.append_eq_nil_iff.mp htext).1]
      rfl
    | cons c cs =>
      rw [occurs, ← htext, hstarts, Bool.true_or]
  | cons c before ih => rw [List.cons_append, occurs, ih, Bool.or_true]

/-- A separator occurs between the first two of several joined texts. -/
theorem occurs_joinWith (separator first second : String) (rest : List String) :
    occurs separator.toList (Text.joinWith separator (first :: second :: rest)).toList = true := by
  rw [Text.toList_joinWith_cons]
  exact occurs_append _ _ _

/-- The text of a compound expression holds an operator. -/
theorem occurs_of_isCompound : ∀ {e : TypeExpr}, e.isCompound = true → ∀ level,
    (occurs [' ', '|', ' '] (text level e).toList ||
      occurs [' ', '&', ' '] (text level e).toList) = true
  | .union [e], h, level => occurs_of_isCompound (e := e) h level
  | .union (_ :: _ :: rest), _, level =>
    Bool.or_eq_true_iff.mpr (.inl (occurs_joinWith " | " _ _ (texts level rest)))
  | .intersection [e], h, level => occurs_of_isCompound (e := e) h level
  | .intersection (_ :: _ :: rest), _, level =>
    Bool.or_eq_true_iff.mpr (.inr (occurs_joinWith " & " _ _ (texts level rest)))

/-- A compound expression needs parentheses unless its text begins with
a brace. -/
theorem needsParens_of_isCompound {e : TypeExpr} (h : e.isCompound = true) :
    e.needsParens = ((text 0 e).toList.head? != some '\x7b') := by
  unfold needsParens
  simp only [occurs_of_isCompound h 0, Bool.and_true]

/-- An expression that, if no parentheses enclose several operands of
it, has a text that begins with a brace. -/
def BareByBrace (e : TypeExpr) : Prop :=
  e.isCompound = true → (text 0 e).toList.head? = some '\x7b'

/-- Before brackets and around ampersands, what is compound begins with
a brace. -/
def OperandsByBrace : TypeExpr → Prop
  | .array element => element.BareByBrace
  | .intersection factors => ∀ e ∈ factors, e.BareByBrace
  | _ => True

theorem bareByBrace_operand (e : TypeExpr) : e.operand.BareByBrace := by
  unfold operand
  split
  · exact fun hcompound => absurd hcompound Bool.false_ne_true
  · next hbare =>
    intro hcompound
    rw [needsParens_of_isCompound hcompound] at hbare
    simpa using hbare

end TableMapper.TypeScript.TypeExpr
