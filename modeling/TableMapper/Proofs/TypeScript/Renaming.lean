/-
TableMapper.Proofs.TypeScript.Renaming — type expressions that call
their enumerations by other names.

What an expression stands for does not depend on the names it has for
enumerations, but on the members that these are declared with
(`TypeExpr.denoted`). Parentheses are set by a look at the text of an
expression, so whether another name gets another expression depends on
how the names are spelled. `Alike` says of two texts what is looked at;
with alike names in their places, expressions have parentheses at the
same places (`Renamed.operand`).
-/
import Mathlib.Data.List.Forall2
import TableMapper.Proofs.TypeScript.Grouping
import TableMapper.TypeScript.Declaration

namespace TableMapper.TypeScript

/-! ## 1. What expressions stand for -/

/-- A type expression in which an enumeration is given by its members,
and not by its name. -/
inductive Denoted where
  | keyword (name : String)
  | enumeration (members : List (String × Json))
  | verbatim (source : String)
  | literal (value : Json)
  | array (element : Denoted)
  | tuple (elements : List Denoted)
  | union (branches : List Denoted)
  | intersection (branches : List Denoted)
  | parens (inner : Denoted)
  | object (members : List (PropertyHead × Denoted)) (further : Option Denoted)

namespace TypeExpr

mutual

/-- What an expression stands for among declared enumerations: a name
stands for the enumeration of that name, if there is one. -/
def denoted (enums : List Enumeration) : TypeExpr → Denoted
  | .name s => match enums.find? (·.name == s) with
    | some e => .enumeration e.members
    | none => .keyword s
  | .verbatim source => .verbatim source
  | .literal value => .literal value
  | .array element => .array (denoted enums element)
  | .tuple elements => .tuple (denotedOf enums elements)
  | .union branches => .union (denotedOf enums branches)
  | .intersection branches => .intersection (denotedOf enums branches)
  | .parens inner => .parens (denoted enums inner)
  | .object members further =>
    .object (denotedMembers enums members) (denotedFurther enums further)

/-- What several expressions stand for. -/
def denotedOf (enums : List Enumeration) : List TypeExpr → List Denoted
  | [] => []
  | e :: es => denoted enums e :: denotedOf enums es

/-- What members stand for. -/
def denotedMembers (enums : List Enumeration) :
    List (PropertyHead × TypeExpr) → List (PropertyHead × Denoted)
  | [] => []
  | (head, type) :: rest => (head, denoted enums type) :: denotedMembers enums rest

/-- What the type of further members stands for. -/
def denotedFurther (enums : List Enumeration) : Option TypeExpr → Option Denoted
  | none => none
  | some type => some (denoted enums type)

end

/-! ## 2. Texts that are alike -/

/-- Whether an operator stands in a text, with a space on each side. -/
def crossed (cs : List Char) : Bool := occurs [' ', '|', ' '] cs || occurs [' ', '&', ' '] cs

/-- The characters between spaces, bars and ampersands. -/
def isApart (c : Char) : Bool := c ≠ ' ' && c ≠ '|' && c ≠ '&'

theorem isPrefixOf_append_cons {pattern : List Char} {c : Char} (hc : c ∉ pattern)
    (before after : List Char) :
    pattern.isPrefixOf (before ++ c :: after) = pattern.isPrefixOf before := by
  induction pattern generalizing before with
  | nil => simp
  | cons p pattern ih =>
    rw [List.mem_cons, not_or] at hc
    obtain ⟨hp, hpattern⟩ := hc
    cases before with
    | nil => simp [List.isPrefixOf, Ne.symm hp]
    | cons b before => simp [List.isPrefixOf, ih hpattern]

/-- A character that is not in the pattern parts its occurrences. -/
theorem occurs_append_cons {pattern : List Char} (hne : pattern ≠ []) {c : Char}
    (hc : c ∉ pattern) (before after : List Char) :
    occurs pattern (before ++ c :: after) = (occurs pattern before || occurs pattern after) := by
  induction before with
  | nil =>
    have hstarts := isPrefixOf_append_cons hc [] after
    rw [List.nil_append] at hstarts ⊢
    show (pattern.isPrefixOf (c :: after) || occurs pattern after) =
      (pattern.isEmpty || occurs pattern after)
    rw [hstarts]
    cases pattern with
    | nil => exact absurd rfl hne
    | cons p pattern => rfl
  | cons b before ih =>
    have hstarts := isPrefixOf_append_cons hc (b :: before) after
    rw [List.cons_append] at hstarts ⊢
    rw [occurs, occurs, hstarts, ih, Bool.or_assoc]

theorem crossed_append_cons {c : Char} (hc : isApart c = true) (before after : List Char) :
    crossed (before ++ c :: after) = (crossed before || crossed after) := by
  simp only [isApart, Bool.and_eq_true, decide_eq_true_eq] at hc
  obtain ⟨⟨hspace, hbar⟩, hand⟩ := hc
  unfold crossed
  rw [occurs_append_cons (by simp) (by simp [hspace, hbar]),
    occurs_append_cons (by simp) (by simp [hspace, hand])]
  cases occurs [' ', '|', ' '] before <;> cases occurs [' ', '|', ' '] after <;> simp

theorem crossed_cons_of_crossed {cs : List Char} (h : crossed cs = true) (c : Char) :
    crossed (c :: cs) = true := by
  unfold crossed at h ⊢
  rw [occurs, occurs]
  rcases Bool.or_eq_true_iff.mp h with h | h <;> simp [h]

theorem crossed_eq_false {cs : List Char} (h : ' ' ∉ cs) : crossed cs = false := by
  induction cs with
  | nil => rfl
  | cons c cs ih =>
    rw [List.mem_cons, not_or] at h
    have hrest := ih h.2
    unfold crossed at hrest ⊢
    rw [Bool.or_eq_false_iff] at hrest
    simp [occurs, List.isPrefixOf, h.1, hrest.1, hrest.2]

/-- Two texts have what is looked at when parentheses are set in common:
whether they begin with a brace, and whether an operator stands in them,
also behind a space. -/
structure Alike (cs ds : List Char) : Prop where
  brace : cs.head? = some '\x7b' ↔ ds.head? = some '\x7b'
  crossed : crossed cs = crossed ds
  spaced : TypeExpr.crossed (' ' :: cs) = TypeExpr.crossed (' ' :: ds)

namespace Alike

variable {cs ds : List Char}

theorem refl (cs : List Char) : Alike cs cs := ⟨Iff.rfl, rfl, rfl⟩

theorem symm (h : Alike cs ds) : Alike ds cs := ⟨h.brace.symm, h.crossed.symm, h.spaced.symm⟩

theorem trans {es : List Char} (h : Alike cs ds) (h' : Alike ds es) : Alike cs es :=
  ⟨h.brace.trans h'.brace, h.crossed.trans h'.crossed, h.spaced.trans h'.spaced⟩

/-- Texts stay alike before a character that is no part of an
operator, if what comes behind has operators alike. -/
theorem append (h : Alike cs ds) {c : Char} (hc : isApart c = true) (hbrace : c ≠ '\x7b')
    {rest more : List Char} (hrest : TypeExpr.crossed rest = TypeExpr.crossed more) :
    Alike (cs ++ c :: rest) (ds ++ c :: more) where
  brace := by
    have hb := h.brace
    cases cs <;> cases ds <;> simp_all
  crossed := by
    rw [crossed_append_cons hc, crossed_append_cons hc, h.crossed, hrest]
  spaced := by
    rw [← List.cons_append, ← List.cons_append, crossed_append_cons hc, crossed_append_cons hc,
      h.spaced, hrest]

/-- Texts are alike behind the same text that ends in a character that is
no part of an operator, if they have operators alike. -/
theorem behind (before : List Char) {c : Char} (hc : isApart c = true)
    (h : TypeExpr.crossed cs = TypeExpr.crossed ds) :
    Alike (before ++ c :: cs) (before ++ c :: ds) where
  brace := by cases before <;> simp
  crossed := by rw [crossed_append_cons hc, crossed_append_cons hc, h]
  spaced := by
    rw [← List.cons_append, ← List.cons_append, crossed_append_cons hc, crossed_append_cons hc, h]

/-- A text that is enclosed is alike, if the text has operators
alike. -/
theorem enclosed (h : TypeExpr.crossed cs = TypeExpr.crossed ds) {first last : Char}
    (hfirst : isApart first = true) (hlast : isApart last = true) :
    Alike (first :: (cs ++ [last])) (first :: (ds ++ [last])) := by
  refine behind [] hfirst ?_
  rw [crossed_append_cons hlast, crossed_append_cons hlast, h]

/-- Digits at the end do not matter. -/
theorem append_digits (cs : List Char) {digits : List Char}
    (h : ∀ c ∈ digits, c.isDigit = true) : Alike (cs ++ digits) cs := by
  cases digits with
  | nil =>
    rw [List.append_nil]
    exact refl cs
  | cons c digits =>
    have hdigit : ∀ {d : Char}, d.isDigit = false → c ≠ d := by
      rintro d hd rfl
      exact absurd (h c List.mem_cons_self) (by simp [hd])
    have hspace : ' ' ∉ digits := fun hmem =>
      absurd (h ' ' (List.mem_cons_of_mem _ hmem)) (by decide)
    have hc : isApart c = true := by
      simp [isApart, hdigit (show ' '.isDigit = false from rfl),
        hdigit (show '|'.isDigit = false from rfl), hdigit (show '&'.isDigit = false from rfl)]
    constructor
    · have hbrace : c ≠ '\x7b' := hdigit rfl
      cases cs <;> simp [hbrace]
    · rw [crossed_append_cons hc, crossed_eq_false hspace, Bool.or_false]
    · rw [← List.cons_append, crossed_append_cons hc, crossed_eq_false hspace, Bool.or_false]

/-- Several texts that are alike, joined by an operator. -/
theorem joinWith_operator {separator : String}
    (hseparator : separator = " | " ∨ separator = " & ") {ts us : List String}
    (h : List.Forall₂ (fun t u => Alike t.toList u.toList) ts us) :
    Alike (Text.joinWith separator ts).toList (Text.joinWith separator us).toList := by
  cases h with
  | nil => exact refl _
  | @cons t u ts us hfirst hrest =>
    cases hrest with
    | nil => exact hfirst
    | @cons t' u' ts us _ _ =>
      have hcrossed : ∀ first second rest, TypeExpr.crossed
          (Text.joinWith separator (first :: second :: rest)).toList = true := by
        intro first second rest
        have hoccurs := occurs_joinWith separator first second rest
        rcases hseparator with rfl | rfl
        · exact Bool.or_eq_true_iff.mpr (.inl hoccurs)
        · exact Bool.or_eq_true_iff.mpr (.inr hoccurs)
      have hfront : ∀ first second rest, ∃ cs,
          (Text.joinWith separator (first :: second :: rest)).toList =
            first.toList ++ ' ' :: cs := by
        intro first second rest
        rw [Text.toList_joinWith_cons]
        rcases hseparator with rfl | rfl
        · exact ⟨_, rfl⟩
        · exact ⟨_, rfl⟩
      have hthis := hcrossed t t' ts
      have hthat := hcrossed u u' us
      refine ⟨?_, hthis.trans hthat.symm, ?_⟩
      · obtain ⟨cs, hcs⟩ := hfront t t' ts
        obtain ⟨ds, hds⟩ := hfront u u' us
        have hbrace := hfirst.brace
        rw [hcs, hds]
        cases ht : t.toList <;> cases hu : u.toList <;> simp_all
      · rw [crossed_cons_of_crossed hthis, crossed_cons_of_crossed hthat]

/-- Several texts that are alike, with commas between them. -/
theorem joinWith_comma {ts us : List String}
    (h : List.Forall₂ (fun t u => Alike t.toList u.toList) ts us) :
    Alike (Text.joinWith ", " ts).toList (Text.joinWith ", " us).toList := by
  induction h with
  | nil => exact refl _
  | @cons t u ts us hfirst hrest ih =>
    cases hrest with
    | nil => exact hfirst
    | @cons t' u' ts us _ _ =>
      rw [Text.toList_joinWith_cons, Text.toList_joinWith_cons]
      exact hfirst.append (c := ',') rfl (by decide) ih.spaced

end Alike

/-! ## 3. Lines -/

/-- Lines that have operators alike, one by one. -/
abbrev CrossedAlike (lines others : List String) : Prop :=
  List.Forall₂ (fun l m => crossed l.toList = crossed m.toList) lines others

theorem crossed_joinWith_lines {lines others : List String} (h : CrossedAlike lines others) :
    crossed (Text.joinWith "\n" lines).toList = crossed (Text.joinWith "\n" others).toList := by
  induction h with
  | nil => rfl
  | @cons l m lines others hfirst hrest ih =>
    cases hrest with
    | nil => exact hfirst
    | @cons l' m' lines others _ _ =>
      have hbreak : "\n".toList = ['\n'] := rfl
      rw [Text.toList_joinWith_cons, Text.toList_joinWith_cons, hbreak, List.singleton_append,
        List.singleton_append, crossed_append_cons rfl, crossed_append_cons rfl, hfirst, ih]

/-- Lines between braces are alike if they have operators alike. -/
theorem alike_braced (level : Nat) {lines others : List String} (h : CrossedAlike lines others) :
    Alike (braced level lines).toList (braced level others).toList := by
  have hjoined := crossed_joinWith_lines h
  have htext : ∀ lines : List String, lines ≠ [] → (braced level lines).toList =
      ['\x7b'] ++ '\n' :: ((Text.joinWith "\n" lines).toList ++
        '\n' :: ((Text.indent level).toList ++ ['\x7d'])) := by
    intro lines hne
    rw [braced, if_neg (by simpa using hne)]
    simp
  cases h with
  | nil => exact .refl _
  | cons hfirst hrest =>
    rw [htext _ (List.cons_ne_nil _ _), htext _ (List.cons_ne_nil _ _)]
    refine .behind ['\x7b'] rfl ?_
    rw [crossed_append_cons (c := '\n') rfl, crossed_append_cons (c := '\n') rfl, hjoined]

/-- The line of a type behind a colon. -/
theorem crossed_line (front : String) {type other : String}
    (h : Alike type.toList other.toList) :
    crossed (front ++ ": " ++ type ++ ";").toList =
      crossed (front ++ ": " ++ other ++ ";").toList := by
  have htext : ∀ type : String, (front ++ ": " ++ type ++ ";").toList =
      front.toList ++ ':' :: ((' ' :: type.toList) ++ [';']) := by
    intro type
    simp
  rw [htext, htext, crossed_append_cons rfl, crossed_append_cons rfl, crossed_append_cons rfl,
    crossed_append_cons rfl, h.spaced]

/-! ## 4. Expressions under other names -/

/-- Among other declarations, an expression stands for what one stands
for among these, and their texts are alike. -/
structure Renamed (enums others : List Enumeration) (e f : TypeExpr) : Prop where
  denoted : e.denoted enums = f.denoted others
  text : ∀ level, Alike (text level e).toList (text level f).toList

section Renamed

variable {enums others : List Enumeration}

theorem Renamed.needsParens {e f : TypeExpr} (h : Renamed enums others e f) :
    e.needsParens = f.needsParens := by
  have htext := h.text 0
  have hbrace : ((TypeExpr.text 0 e).toList.head? != some '\x7b') =
      ((TypeExpr.text 0 f).toList.head? != some '\x7b') := by
    rw [Bool.eq_iff_iff]
    simp [htext.brace]
  have hcrossed := htext.crossed
  unfold crossed at hcrossed
  unfold TypeExpr.needsParens
  simp only [hbrace, hcrossed]

theorem Renamed.verbatim (source : String) :
    Renamed enums others (.verbatim source) (.verbatim source) :=
  ⟨rfl, fun _ => .refl _⟩

theorem Renamed.literal (value : Json) : Renamed enums others (.literal value) (.literal value) :=
  ⟨rfl, fun _ => .refl _⟩

theorem Renamed.parens {e f : TypeExpr} (h : Renamed enums others e f) :
    Renamed enums others (.parens e) (.parens f) where
  denoted := congrArg Denoted.parens h.denoted
  text level := by
    have htext : ∀ e, (TypeExpr.text level (.parens e)).toList =
        '(' :: ((TypeExpr.text level e).toList ++ [')']) := by
      intro e
      simp [TypeExpr.text]
    rw [htext, htext]
    exact .enclosed (h.text level).crossed rfl rfl

/-- Both expressions have parentheses as operands, or neither. -/
theorem Renamed.operand {e f : TypeExpr} (h : Renamed enums others e f) :
    Renamed enums others e.operand f.operand := by
  unfold TypeExpr.operand
  rw [← h.needsParens]
  split
  · exact h.parens
  · exact h

theorem Renamed.array {e f : TypeExpr} (h : Renamed enums others e f) :
    Renamed enums others (.array e) (.array f) where
  denoted := congrArg Denoted.array h.denoted
  text level := by
    have htext : ∀ e, (TypeExpr.text level (.array e)).toList =
        (TypeExpr.text level e).toList ++ '[' :: [']'] := by
      intro e
      simp [TypeExpr.text]
    rw [htext, htext]
    exact (h.text level).append rfl (by decide) rfl

/-- What holds of expressions one by one. -/
abbrev RenamedAll (enums others : List Enumeration) : List TypeExpr → List TypeExpr → Prop :=
  List.Forall₂ (Renamed enums others)

theorem RenamedAll.denoted {es fs : List TypeExpr} (h : RenamedAll enums others es fs) :
    denotedOf enums es = denotedOf others fs := by
  induction h with
  | nil => rfl
  | cons hfirst _ ih => rw [denotedOf, denotedOf, hfirst.denoted, ih]

theorem RenamedAll.texts {es fs : List TypeExpr} (h : RenamedAll enums others es fs)
    (level : Nat) : List.Forall₂ (fun t u => Alike t.toList u.toList) (texts level es)
      (texts level fs) := by
  induction h with
  | nil => exact .nil
  | cons hfirst _ ih => exact .cons (hfirst.text level) ih

theorem Renamed.union {es fs : List TypeExpr} (h : RenamedAll enums others es fs) :
    Renamed enums others (.union es) (.union fs) where
  denoted := congrArg Denoted.union h.denoted
  text level := .joinWith_operator (.inl rfl) (h.texts level)

theorem Renamed.intersection {es fs : List TypeExpr} (h : RenamedAll enums others es fs) :
    Renamed enums others (.intersection es) (.intersection fs) where
  denoted := congrArg Denoted.intersection h.denoted
  text level := .joinWith_operator (.inr rfl) (h.texts level)

theorem Renamed.tuple {es fs : List TypeExpr} (h : RenamedAll enums others es fs) :
    Renamed enums others (.tuple es) (.tuple fs) where
  denoted := congrArg Denoted.tuple h.denoted
  text level := by
    have htext : ∀ es, (TypeExpr.text level (.tuple es)).toList =
        '[' :: ((Text.joinWith ", " (TypeExpr.texts level es)).toList ++ [']']) := by
      intro es
      simp [TypeExpr.text]
    rw [htext, htext]
    exact .enclosed (Alike.joinWith_comma (h.texts level)).crossed rfl rfl

/-- Members under the same heads, with types one by one. -/
abbrev RenamedMembers (enums others : List Enumeration) :
    List (PropertyHead × TypeExpr) → List (PropertyHead × TypeExpr) → Prop :=
  List.Forall₂ fun p q => p.1 = q.1 ∧ Renamed enums others p.2 q.2

/-- The type of further members, if there is one. -/
abbrev RenamedFurther (enums others : List Enumeration) :
    Option TypeExpr → Option TypeExpr → Prop :=
  Option.Rel (Renamed enums others)

theorem RenamedMembers.denoted {members changed : List (PropertyHead × TypeExpr)}
    (h : RenamedMembers enums others members changed) :
    denotedMembers enums members = denotedMembers others changed := by
  induction h with
  | nil => rfl
  | @cons p q _ _ hfirst _ ih =>
    obtain ⟨head, e⟩ := p
    obtain ⟨head', f⟩ := q
    obtain ⟨rfl, hfirst⟩ := hfirst
    rw [denotedMembers, denotedMembers, hfirst.denoted, ih]

theorem RenamedMembers.lines {members changed : List (PropertyHead × TypeExpr)}
    (h : RenamedMembers enums others members changed) (level : Nat) :
    CrossedAlike (membersLines level members) (membersLines level changed) := by
  induction h with
  | nil => exact .nil
  | @cons p q _ _ hfirst _ ih =>
    obtain ⟨head, e⟩ := p
    obtain ⟨head', f⟩ := q
    obtain ⟨rfl, hfirst⟩ := hfirst
    refine List.rel_append (List.rel_append ?_ (.cons ?_ .nil)) ih
    · exact List.forall₂_same.mpr fun _ _ => rfl
    · exact crossed_line _ (hfirst.text level)

theorem RenamedFurther.denoted {further changed : Option TypeExpr}
    (h : RenamedFurther enums others further changed) :
    denotedFurther enums further = denotedFurther others changed := by
  cases h with
  | none => rfl
  | some h => exact congrArg some h.denoted

theorem RenamedFurther.lines {further changed : Option TypeExpr}
    (h : RenamedFurther enums others further changed) (level : Nat) :
    CrossedAlike (furtherLines level further) (furtherLines level changed) := by
  cases h with
  | none => exact .nil
  | some h =>
    have hline : ∀ type, furtherLine level type =
        Text.indent level ++ "[k: string]" ++ ": " ++ type ++ ";" :=
      fun type => String.toList_injective (by simp [furtherLine])
    refine .cons ?_ .nil
    rw [hline, hline]
    exact crossed_line _ (h.text level)

theorem Renamed.object {members changed : List (PropertyHead × TypeExpr)}
    {further changedFurther : Option TypeExpr} (h : RenamedMembers enums others members changed)
    (hfurther : RenamedFurther enums others further changedFurther) :
    Renamed enums others (.object members further) (.object changed changedFurther) where
  denoted := by rw [TypeExpr.denoted, TypeExpr.denoted, h.denoted, hfurther.denoted]
  text level :=
    alike_braced level (List.rel_append (h.lines (level + 1)) (hfurther.lines (level + 1)))

end Renamed

end TypeExpr

end TableMapper.TypeScript
