/-
TableMapper.Proofs.TypeScript.Indentation — type expressions at
different levels.

The level that an expression stands at shows in the spaces before its
lines and nowhere else: without them its text is the same at every
level (`withoutIndent_text`). Texts that are put together are compared
with whatever follows, since what is indentation depends on the
character before.
-/
import Mathlib.Data.List.Forall2
import TableMapper.TypeScript.TypeExpr

namespace TableMapper.TypeScript

/-! ## 1. Texts without indentation -/

/-- The characters without the spaces that begin a line. Whether a line
begins is known of the first character. -/
def unindented : Bool → List Char → List Char
  | _, [] => []
  | start, c :: cs =>
    if c = '\n' then c :: unindented true cs
    else if start = true ∧ c = ' ' then unindented true cs
    else c :: unindented false cs

/-- A text without the spaces that begin its lines; those of its first
line stay. -/
def withoutIndent (s : String) : String := String.ofList (unindented false s.toList)

/-- Two texts are the same up to indentation, before whatever
follows. -/
def SameAfter (start : Bool) (cs ds : List Char) : Prop :=
  ∀ rest, unindented start (cs ++ rest) = unindented start (ds ++ rest)

/-- Two texts are the same up to indentation wherever they stand. -/
def SameText (s t : String) : Prop := ∀ start, SameAfter start s.toList t.toList

/-- Two texts are the same up to indentation as lines of their own. -/
def SameLine (s t : String) : Prop := SameAfter true s.toList t.toList

theorem unindented_break (start : Bool) (cs : List Char) :
    unindented start ('\n' :: cs) = '\n' :: unindented true cs := by
  rw [unindented, if_pos rfl]

theorem unindented_spaces (count : Nat) (cs : List Char) :
    unindented true (List.replicate count ' ' ++ cs) = unindented true cs := by
  induction count with
  | zero => rfl
  | succ count ih =>
    rw [List.replicate_succ, List.cons_append, unindented, if_neg (by decide),
      if_pos ⟨rfl, rfl⟩, ih]

theorem unindented_indent (level : Nat) (cs : List Char) :
    unindented true ((Text.indent level).toList ++ cs) = unindented true cs := by
  rw [Text.indent, String.toList_ofList, unindented_spaces]

/-- What is the same at every place is the same behind any text. -/
theorem unindented_append_left {cs ds : List Char}
    (h : ∀ start, unindented start cs = unindented start ds) (before : List Char) (start : Bool) :
    unindented start (before ++ cs) = unindented start (before ++ ds) := by
  induction before generalizing start with
  | nil => exact h start
  | cons c before ih => simp only [List.cons_append, unindented, ih]

namespace SameText

variable {s t s' t' : String}

theorem refl (s : String) : SameText s s := fun _ _ => rfl

theorem append (h : SameText s t) (h' : SameText s' t') : SameText (s ++ s') (t ++ t') := by
  intro start rest
  rw [String.toList_append, String.toList_append, List.append_assoc, List.append_assoc, h start]
  exact unindented_append_left (fun start => h' start rest) _ start

theorem line (h : SameText s t) : SameLine s t := h true

/-- Texts that are the same stay so in between the same texts. -/
theorem enclosed (before after : String) (h : SameText s t) :
    SameText (before ++ s ++ after) (before ++ t ++ after) :=
  ((refl before).append h).append (refl after)

/-- Joined with the same separator. -/
theorem joinWith (separator : String) {ts us : List String} (h : List.Forall₂ SameText ts us) :
    SameText (Text.joinWith separator ts) (Text.joinWith separator us) := by
  induction h with
  | nil => exact refl _
  | @cons t u ts us hfirst hrest ih =>
    cases hrest with
    | nil => exact hfirst
    | cons _ _ =>
      rw [Text.joinWith.eq_3 _ _ _ (List.cons_ne_nil _ _),
        Text.joinWith.eq_3 _ _ _ (List.cons_ne_nil _ _)]
      exact (hfirst.append (refl separator)).append ih

theorem withoutIndent_eq (h : SameText s t) : withoutIndent s = withoutIndent t := by
  have hsame := h false []
  rw [List.append_nil, List.append_nil] at hsame
  rw [withoutIndent, withoutIndent, hsame]

end SameText

namespace SameLine

variable {s t : String}

/-- A line is the same at every level. -/
theorem indented (level other : Nat) (h : SameText s t) :
    SameLine (Text.indent level ++ s) (Text.indent other ++ t) := by
  intro rest
  rw [String.toList_append, String.toList_append, List.append_assoc, List.append_assoc,
    unindented_indent, unindented_indent, h true]

/-- Behind a line break, lines that are the same are texts that are. -/
theorem behind_break (h : SameLine s t) : SameText ("\n" ++ s) ("\n" ++ t) := by
  intro start rest
  have hbreak : ∀ s : String, ("\n" ++ s).toList ++ rest = '\n' :: (s.toList ++ rest) := by
    intro s
    simp
  rw [hbreak, hbreak, unindented_break, unindented_break, h]

end SameLine

/-- Lines that are the same one by one, each behind a line break. -/
theorem SameText.breaks {lines others : List String} (h : List.Forall₂ SameLine lines others)
    (hne : lines ≠ []) : SameText ("\n" ++ Text.joinWith "\n" lines)
      ("\n" ++ Text.joinWith "\n" others) := by
  induction h with
  | nil => exact absurd rfl hne
  | @cons l m lines others hfirst hrest ih =>
    cases hrest with
    | nil => exact hfirst.behind_break
    | cons _ _ =>
      rw [Text.joinWith.eq_3 _ _ _ (List.cons_ne_nil _ _),
        Text.joinWith.eq_3 _ _ _ (List.cons_ne_nil _ _)]
      have := hfirst.behind_break.append (ih (List.cons_ne_nil _ _))
      simpa only [String.append_assoc] using this

/-! ## 2. Lines of an object type -/

namespace TypeExpr

/-- Lines in braces, at any two levels. -/
theorem sameText_braced (level other : Nat) {lines others : List String}
    (h : List.Forall₂ SameLine lines others) :
    SameText (braced level lines) (braced other others) := by
  have hclosing : SameText ("\n" ++ (Text.indent level ++ "\x7d"))
      ("\n" ++ (Text.indent other ++ "\x7d")) :=
    (SameLine.indented level other (.refl "\x7d")).behind_break
  cases h with
  | nil => exact .refl _
  | cons hfirst hrest =>
    have hlines := SameText.breaks (.cons hfirst hrest) (List.cons_ne_nil _ _)
    have htext : ∀ (level : Nat) (line : String) (lines : List String),
        braced level (line :: lines) = "\x7b" ++ ("\n" ++ Text.joinWith "\n" (line :: lines)) ++
          ("\n" ++ (Text.indent level ++ "\x7d")) := by
      intro level line lines
      rw [braced, if_neg (by simp), ← String.toList_inj]
      simp
    rw [htext, htext]
    exact ((SameText.refl "\x7b").append hlines).append hclosing

theorem sameLine_comment (level other : Nat) (description : Option String) :
    List.Forall₂ SameLine (DocComment.lines? level description)
      (DocComment.lines? other description) := by
  cases description with
  | none => exact .nil
  | some description =>
    exact List.forall₂_map_left_iff.mpr (List.forall₂_map_right_iff.mpr
      (List.forall₂_same.mpr fun line _ => .indented level other (.refl line)))

theorem sameLine_memberLines (level other : Nat) (head : PropertyHead) {type type' : String}
    (h : SameText type type') :
    List.Forall₂ SameLine (memberLines level head type) (memberLines other head type') := by
  refine List.rel_append (sameLine_comment level other head.description) (.cons ?_ .nil)
  have := SameLine.indented level other
    (h.enclosed (propertyKey head.name ++ (if head.required then "" else "?") ++ ": ") ";")
  simpa only [String.append_assoc] using this

theorem sameLine_furtherLine (level other : Nat) {type type' : String} (h : SameText type type') :
    SameLine (furtherLine level type) (furtherLine other type') := by
  have := SameLine.indented level other (h.enclosed "[k: string]: " ";")
  simpa only [furtherLine, String.append_assoc] using this

/-! ## 3. Expressions -/

mutual

/-- An expression has the same text at any two levels, up to
indentation. -/
theorem sameText_text (level other : Nat) : ∀ e : TypeExpr,
    SameText (text level e) (text other e)
  | .name s => .refl s
  | .verbatim source => .refl source
  | .literal value => .refl value.compact
  | .array element => (sameText_text level other element).append (.refl "[]")
  | .tuple elements =>
    (SameText.joinWith ", " (sameText_texts level other elements)).enclosed "[" "]"
  | .union branches => .joinWith " | " (sameText_texts level other branches)
  | .intersection branches => .joinWith " & " (sameText_texts level other branches)
  | .parens inner => (sameText_text level other inner).enclosed "(" ")"
  | .object members further =>
    sameText_braced level other
      (List.rel_append (sameLine_membersLines (level + 1) (other + 1) members)
        (sameLine_furtherLines (level + 1) (other + 1) further))

theorem sameText_texts (level other : Nat) : ∀ es : List TypeExpr,
    List.Forall₂ SameText (texts level es) (texts other es)
  | [] => .nil
  | e :: es => .cons (sameText_text level other e) (sameText_texts level other es)

theorem sameLine_membersLines (level other : Nat) : ∀ members : List (PropertyHead × TypeExpr),
    List.Forall₂ SameLine (membersLines level members) (membersLines other members)
  | [] => .nil
  | (head, type) :: rest =>
    List.rel_append (sameLine_memberLines _ _ head (sameText_text level other type))
      (sameLine_membersLines level other rest)

theorem sameLine_furtherLines (level other : Nat) : ∀ further : Option TypeExpr,
    List.Forall₂ SameLine (furtherLines level further) (furtherLines other further)
  | none => .nil
  | some type =>
    .cons (sameLine_furtherLine _ _ (sameText_text level other type)) .nil

end

/-- Without indentation, an expression has the same text at every
level. -/
theorem withoutIndent_text (level other : Nat) (e : TypeExpr) :
    withoutIndent (text level e) = withoutIndent (text other e) :=
  (sameText_text level other e).withoutIndent_eq

end TypeExpr

end TableMapper.TypeScript
