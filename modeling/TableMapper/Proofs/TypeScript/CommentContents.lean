/-
TableMapper.Proofs.TypeScript.CommentContents — what a doc comment says.

The comment for a description ends where its last line does and nowhere
before, whatever the description says (`confines_text`). It has a
line for each line of the description, from which that line is got back
by taking away its indentation, its gutter and the guards, unless the
description holds a guarded slash of its own.
-/
import Mathlib.Data.List.Infix
import TableMapper.Proofs.Text.Splitting
import TableMapper.Proofs.TypeScript.Comments
import TableMapper.Proofs.TypeScript.MemberLists
import TableMapper.Proofs.TypeScript.TypeText
import TableMapper.TypeScript.Declaration

namespace TableMapper.TypeScript.DocComment

/-! ## 1. Guards -/

/-- The marks that close a comment. -/
def closingMarks : List Char := ['*', '/']

/-- The same marks with a guard between them. -/
def guardedMarks : List Char := ['*', '\\', '/']

/-- The text with the guards taken out again. -/
def unguarded : List Char → List Char
  | [] => []
  | '*' :: '\\' :: '/' :: cs => '*' :: '/' :: unguarded cs
  | c :: cs => c :: unguarded cs

theorem head?_guarded (cs : List Char) : (guarded cs).head? = cs.head? := by
  fun_cases guarded cs <;> rfl

/-- A guarded text begins as the text does. -/
theorem eq_cons_of_guarded {c : Char} {cs rest : List Char} (h : guarded cs = c :: rest) :
    ∃ tail, cs = c :: tail := by
  have hhead := head?_guarded cs
  rw [h] at hhead
  exact List.head?_eq_some_iff.mp hhead.symm

theorem mem_guarded {c : Char} {cs : List Char} (h : c ∈ guarded cs) : c ∈ cs ∨ c = '\\' := by
  fun_induction guarded cs with
  | case1 => exact absurd h List.not_mem_nil
  | case2 cs ih =>
    simp only [List.mem_cons] at h ⊢
    rcases h with h | h | h | h
    · exact .inl (.inl h)
    · exact .inr h
    · exact .inl (.inr (.inl h))
    · exact (ih h).imp_left fun h => .inr (.inr h)
  | case3 d cs _ ih =>
    rcases List.mem_cons.mp h with rfl | h
    · exact .inl List.mem_cons_self
    · exact (ih h).imp_left (List.mem_cons_of_mem d)

/-- What is guarded closes no comment. -/
theorem not_closingMarks_guarded (cs : List Char) : ¬ closingMarks <:+: guarded cs := by
  fun_induction guarded cs with
  | case1 => simp [closingMarks]
  | case2 cs ih =>
    simp only [List.infix_cons_iff, not_or]
    exact ⟨by simp [closingMarks], by simp [closingMarks], by simp [closingMarks], ih⟩
  | case3 c cs hpair ih =>
    rw [List.infix_cons_iff, not_or]
    refine ⟨?_, ih⟩
    rintro ⟨rest, hrest⟩
    obtain ⟨hstar, hslash⟩ := List.cons.inj hrest
    obtain ⟨tail, hcs⟩ := eq_cons_of_guarded hslash.symm
    exact hpair tail hstar.symm hcs

/-- Without its guards, a text that had none of its own is what it
was. -/
theorem unguarded_guarded {cs : List Char} (h : ¬ guardedMarks <:+: cs) :
    unguarded (guarded cs) = cs := by
  fun_induction guarded cs with
  | case1 => rfl
  | case2 cs ih =>
    simp only [List.infix_cons_iff, not_or] at h
    rw [unguarded, ih h.2.2]
  | case3 c cs hpair ih =>
    rw [List.infix_cons_iff, not_or] at h
    rw [unguarded, ih h.2]
    -- a guard behind the character is one of the text
    rintro rest rfl hguarded
    obtain ⟨tail, rfl⟩ := eq_cons_of_guarded hguarded
    rw [guarded_cons (.inl (by decide))] at hguarded
    obtain ⟨tail, rfl⟩ := eq_cons_of_guarded (List.cons.inj hguarded).2
    exact h.1 ⟨tail, rfl⟩

/-! ## 2. Where a comment is closed -/

/-- Marks that close a comment stand behind a line break if they do not
stand before it. -/
theorem closing_behind_break {line cs before after : List Char} (hline : ¬ closingMarks <:+: line)
    (h : line ++ '\n' :: cs = before ++ '*' :: '/' :: after) :
    ∃ rest, before = line ++ '\n' :: rest ∧ cs = rest ++ '*' :: '/' :: after := by
  rcases List.append_eq_append_iff.mp h with ⟨rest, hbefore, hcs⟩ | ⟨rest, hbefore, hcs⟩
  · cases rest with
    | nil => exact absurd (List.cons.inj hcs).1 (by decide)
    | cons c rest =>
      obtain ⟨rfl, htail⟩ := List.cons.inj hcs
      exact ⟨rest, hbefore, htail⟩
  · -- the marks begin on the line, and none of them is a line break
    cases rest with
    | nil => exact absurd (List.cons.inj hcs).1 (by decide)
    | cons c rest =>
      obtain ⟨rfl, htail⟩ := List.cons.inj hcs
      cases rest with
      | nil => exact absurd (List.cons.inj htail).1 (by decide)
      | cons d rest =>
        obtain ⟨rfl, -⟩ := List.cons.inj htail
        exact absurd ⟨before, rest, by simp [closingMarks, hbefore]⟩ hline

/-- Behind lines that close no comment, the marks stand where they stand
in the rest. -/
theorem closing_behind_lines {lines : List String}
    (hlines : ∀ line ∈ lines, ¬ closingMarks <:+: line.toList) {cs before after : List Char}
    (h : lines.flatMap endedLine ++ cs = before ++ '*' :: '/' :: after) :
    ∃ rest, before = lines.flatMap endedLine ++ rest ∧ cs = rest ++ '*' :: '/' :: after := by
  induction lines generalizing before with
  | nil => exact ⟨before, rfl, h⟩
  | cons line lines ih =>
    obtain ⟨hline, hlines⟩ := List.forall_mem_cons.mp hlines
    have hfirst : ∀ cs, (line :: lines).flatMap endedLine ++ cs =
        line.toList ++ '\n' :: (lines.flatMap endedLine ++ cs) := by
      intro cs
      simp [endedLine]
    rw [hfirst] at h
    obtain ⟨rest, rfl, hrest⟩ := closing_behind_break hline h
    obtain ⟨rest, rfl, hcs⟩ := ih hlines hrest
    exact ⟨rest, (hfirst rest).symm, hcs⟩

/-- Behind characters without a star, the marks are the first ones. -/
theorem closing_unique {front ending before after : List Char} (hfront : '*' ∉ front)
    (hending : '*' ∉ ending) (h : front ++ '*' :: '/' :: ending = before ++ '*' :: '/' :: after) :
    before = front ∧ after = ending := by
  rcases List.append_eq_append_iff.mp h with ⟨rest, hbefore, hcs⟩ | ⟨rest, hbefore, hcs⟩
  · cases rest with
    | nil =>
      rw [List.append_nil] at hbefore
      exact ⟨hbefore, (List.cons.inj (List.cons.inj hcs).2).2.symm⟩
    | cons c rest =>
      have hstar : '*' ∈ '/' :: ending := by
        rw [(List.cons.inj hcs).2]
        simp
      exact absurd ((List.mem_cons.mp hstar).resolve_left (by decide)) hending
  · cases rest with
    | nil =>
      rw [List.append_nil] at hbefore
      exact ⟨hbefore.symm, (List.cons.inj (List.cons.inj hcs).2).2⟩
    | cons c rest =>
      obtain ⟨rfl, -⟩ := List.cons.inj hcs
      exact absurd (by simp [hbefore]) hfront

/-! ## 3. The text of a comment -/

/-- What stands behind the last line of a comment: above a declaration,
at level 0, that line is ended too. -/
def ending (level : Nat) : String := if level = 0 then "\n" else ""

/-- The text of the comment for a description. -/
def text (level : Nat) (description : String) : String :=
  Text.joinWith "\n" (lines level description) ++ ending level

/-- The first line of a comment. -/
def openingLine (level : Nat) : String := Text.indent level ++ "/**"

/-- The line for a line of the description. -/
def innerLine (level : Nat) (line : String) : String := Text.indent level ++ bodyLine line

/-- The last line of a comment. -/
def closingLine (level : Nat) : String := Text.indent level ++ " */"

theorem lines_eq (level : Nat) (description : String) : lines level description =
    openingLine level :: (Text.lines description).map (innerLine level) ++ [closingLine level] := by
  rw [lines, List.map_append, List.map_cons, List.map_map]
  rfl

theorem lines_ne_nil (level : Nat) (description : String) : lines level description ≠ [] := by
  rw [lines_eq]
  exact List.cons_ne_nil _ _

/-- All lines of a comment but the last are ended. -/
theorem toList_text (level : Nat) (description : String) : (text level description).toList =
    (openingLine level :: (Text.lines description).map (innerLine level)).flatMap endedLine ++
      (((Text.indent level).toList ++ [' ']) ++ '*' :: '/' :: (ending level).toList) := by
  have hjoined := TypeExpr.joinWith_lines (lines_ne_nil level description)
  rw [lines_eq, List.flatMap_append, List.flatMap_singleton, endedLine, ← List.append_assoc]
    at hjoined
  rw [text, String.toList_append, lines_eq, List.append_cancel_right hjoined, closingLine,
    String.toList_append]
  simp

/-- The text is what is written for a description: above a declaration,
behind the banner, at level 0, and further in before a member, on lines
of its own. -/
def StandsBefore (description text : String) : Nat → Prop
  | 0 => ∀ (d : Declarations) (style : Style), d.description = some description →
      d.text style = String.join (style.banner.toList.map (· ++ "\n")) ++ text ++
        d.body.text d.name ++ String.join (d.enumerations.map fun e => "\n" ++ e.text style)
  | level + 1 => ∀ (head : PropertyHead) (type : String), head.description = some description →
      Text.joinWith "\n" (TypeExpr.memberLines (level + 1) head type) =
        text ++ "\n" ++ TypeExpr.memberPiece (level + 1) head type

theorem join_endedLines (description : String) :
    String.join ((lines 0 description).map (· ++ "\n")) = text 0 description := by
  have hjoined := TypeExpr.joinWith_lines (lines_ne_nil 0 description)
  apply String.toList_injective
  rw [String.toList_join, List.flatMap_map, text, String.toList_append]
  simp only [String.toList_append]
  exact hjoined.symm

theorem text_standsBefore (description : String) : ∀ level,
    StandsBefore description (text level description) level
  | 0 => fun d style h => by
    rw [Declarations.text, h, lines?, List.map_append, String.join_append, join_endedLines]
  | level + 1 => fun head type h => by
    rw [TypeExpr.memberLines, h, lines?,
      TypeExpr.joinWith_append (lines_ne_nil _ _) (List.cons_ne_nil _ _), text, ending,
      if_neg (Nat.succ_ne_zero level), String.append_empty]
    rfl

/-! ## 4. Reading a comment -/

/-- What stands on a line of a comment behind its indentation and its
gutter. -/
def behindGutter? (level : Nat) (line : List Char) : Option (List Char) :=
  match line.dropPrefix? (Text.indent level).toList with
  | some [' ', '*'] => some []
  | some (' ' :: '*' :: ' ' :: cs) => some cs
  | _ => none

/-- An empty line has its gutter without the space at the end. -/
theorem toList_bodyLine (line : String) :
    (line = "" ∧ (bodyLine line).toList = [' ', '*']) ∨
      (bodyLine line).toList = ' ' :: '*' :: ' ' :: guarded line.toList := by
  unfold bodyLine
  split
  · next hempty => exact .inl ⟨String.isEmpty_iff.mp hempty, rfl⟩
  · simp only [String.toList_append, String.toList_ofList]
    exact .inr rfl

theorem behindGutter?_innerLine (level : Nat) (line : String) :
    behindGutter? level (innerLine level line).toList = some (guarded line.toList) := by
  rw [innerLine, String.toList_append, behindGutter?,
    List.dropPrefix?_append_of_beq _ (beq_self_eq_true _)]
  rcases toList_bodyLine line with ⟨rfl, hline⟩ | hline
  · rw [hline]
    rfl
  · rw [hline]
    rfl

/-- The marks do not begin before the first star. -/
theorem closingMarks_behind {front cs : List Char} (hfront : '*' ∉ front)
    (h : closingMarks <:+: front ++ cs) : closingMarks <:+: cs := by
  induction front with
  | nil => exact h
  | cons c front ih =>
    obtain ⟨hc, hfront⟩ := not_or.mp (mt List.mem_cons.mpr hfront)
    rcases List.infix_cons_iff.mp h with ⟨rest, hrest⟩ | h
    · exact absurd (List.cons.inj hrest).1 hc
    · exact ih hfront h

/-- No line but the last closes the comment. -/
theorem not_closingMarks_innerLine (level : Nat) (line : String) :
    ¬ closingMarks <:+: (innerLine level line).toList := by
  rw [innerLine, String.toList_append]
  refine mt (closingMarks_behind (Text.notMem_indent (by decide) level)) ?_
  rcases toList_bodyLine line with ⟨-, hline⟩ | hline
  · rw [hline]
    decide
  · rw [hline]
    simp only [List.infix_cons_iff, not_or]
    exact ⟨by simp [closingMarks], by simp [closingMarks], by simp [closingMarks],
      not_closingMarks_guarded line.toList⟩

theorem not_closingMarks_openingLine (level : Nat) :
    ¬ closingMarks <:+: (openingLine level).toList := by
  rw [openingLine, String.toList_append]
  exact mt (closingMarks_behind (Text.notMem_indent (by decide) level)) (by decide)

/-- No line of a comment has a line break. -/
theorem break_notMem_lines {level : Nat} {description : String} :
    ∀ line ∈ lines level description, '\n' ∉ line.toList := by
  have hdescribed := (Text.hasLines_lines description.toList).break_notMem
  rw [String.ofList_toList, List.forall_mem_map] at hdescribed
  have hbehind : ∀ {s : String}, '\n' ∉ s.toList → '\n' ∉ (Text.indent level ++ s).toList := by
    intro s hs
    rw [String.toList_append, List.mem_append]
    exact not_or.mpr ⟨Text.notMem_indent (by decide) level, hs⟩
  have hinner : ∀ line ∈ Text.lines description, '\n' ∉ (innerLine level line).toList := by
    intro line hline
    refine hbehind ?_
    rcases toList_bodyLine line with ⟨-, hbody⟩ | hbody
    · rw [hbody]
      decide
    · rw [hbody]
      simp only [List.mem_cons, not_or]
      refine ⟨by decide, by decide, by decide, fun hbreak => ?_⟩
      exact (mem_guarded hbreak).elim (hdescribed line hline) (by decide)
  rw [lines_eq, List.cons_append, List.forall_mem_cons, List.forall_mem_append, List.forall_mem_map,
    List.forall_mem_singleton]
  exact ⟨hbehind (by decide), hinner, hbehind (by decide)⟩

/-- The lines of the text are those of the comment, and an empty one
behind the last line if that is ended. -/
theorem splitOn_text (level : Nat) (description : String) :
    Text.splitOn '\n' (text level description).toList =
      (lines level description).map String.toList ++ if level = 0 then [[]] else [] := by
  have hbreak : "\n".toList = ['\n'] := rfl
  have hlines := Text.splitOn_joinWith hbreak (lines_ne_nil level description) break_notMem_lines
  rw [text, String.toList_append, ending]
  split
  · show Text.splitOn '\n' (_ ++ '\n' :: []) = _
    rw [Text.splitOn_append_separator, hlines]
    rfl
  · rw [String.toList_empty, List.append_nil, List.append_nil, hlines]

/-- A line of the description is got back from its line in the comment,
unless the description holds guarded marks of its own. -/
theorem unguarded_innerLine {level : Nat} {description line : String}
    (hguards : ¬ guardedMarks <:+: description.toList) (hline : line ∈ Text.lines description) :
    (behindGutter? level (innerLine level line).toList).map unguarded = some line.toList := by
  have hdescribed := Text.hasLines_lines description.toList
  rw [String.ofList_toList] at hdescribed
  have hpiece := hdescribed.piece _ (List.mem_map_of_mem hline)
  rw [behindGutter?_innerLine, Option.map_some, unguarded_guarded fun h => hguards (h.trans hpiece)]

/-- The marks that close a comment are in the text once, at its end. -/
theorem text_closes (level : Nat) (description : String) :
    ∃ front, (text level description).toList = front ++ closingMarks ++ (ending level).toList ∧
      ∀ before after, (text level description).toList = before ++ closingMarks ++ after →
        before = front ∧ after = (ending level).toList := by
  have hlines : ∀ line ∈ openingLine level :: (Text.lines description).map (innerLine level),
      ¬ closingMarks <:+: line.toList := by
    rw [List.forall_mem_cons, List.forall_mem_map]
    exact ⟨not_closingMarks_openingLine level, fun line _ => not_closingMarks_innerLine level line⟩
  have hspaces : '*' ∉ (Text.indent level).toList ++ [' '] := by
    rw [List.mem_append]
    exact not_or.mpr ⟨Text.notMem_indent (by decide) level, by decide⟩
  have hending : '*' ∉ (ending level).toList := by
    unfold ending
    split <;> decide
  have htext := toList_text level description
  refine ⟨(openingLine level :: (Text.lines description).map (innerLine level)).flatMap endedLine ++
    ((Text.indent level).toList ++ [' ']), ?_, fun before after hmarks => ?_⟩
  · rw [htext, closingMarks]
    simp
  · rw [htext, closingMarks, List.append_assoc before] at hmarks
    obtain ⟨rest, rfl, hrest⟩ := closing_behind_lines hlines hmarks
    obtain ⟨rfl, rfl⟩ := closing_unique hspaces hending hrest
    exact ⟨rfl, rfl⟩

/-! ## 5. Comments -/

/-- A text is a comment that says what the description does, and no
more. -/
structure Confines (level : Nat) (description text : String) : Prop where
  /-- It begins, behind its indentation, with the marks of a doc
  comment. -/
  opens : ∃ rest, text.toList = (Text.indent level).toList ++ '/' :: '*' :: '*' :: rest
  /-- The marks that close a comment are in it once, at its end. -/
  closes : ∃ front, text.toList = front ++ closingMarks ++ (ending level).toList ∧
    ∀ before after, text.toList = before ++ closingMarks ++ after →
      before = front ∧ after = (ending level).toList
  /-- Between its first line and its last there is a line for each line
  of the description, which is got back from that, unless there are
  guarded marks in the description itself. -/
  inner : ∃ described body, Text.HasLines description.toList described ∧
    Text.splitOn '\n' text.toList =
      (openingLine level).toList :: body ++ (closingLine level).toList ::
        (if level = 0 then [[]] else []) ∧
    body.length = described.length ∧
    (¬ guardedMarks <:+: description.toList →
      body.map (fun line => (behindGutter? level line).map unguarded) = described.map some)

/-- Whatever a description says, the text that is written for it is
confined to one comment. -/
theorem confines_text (level : Nat) (description : String) :
    StandsBefore description (text level description) level ∧
      Confines level description (text level description) := by
  refine ⟨text_standsBefore description level, ?_, text_closes level description, ?_⟩
  · refine ⟨'\n' :: (((Text.lines description).map (innerLine level)).flatMap endedLine ++
      (((Text.indent level).toList ++ [' ']) ++ '*' :: '/' :: (ending level).toList)), ?_⟩
    rw [toList_text, List.flatMap_cons, endedLine, openingLine, String.toList_append]
    simp
  · have hdescribed := Text.hasLines_lines description.toList
    rw [String.ofList_toList] at hdescribed
    refine ⟨_, (Text.lines description).map fun line => (innerLine level line).toList, hdescribed,
      ?_, by simp, fun hguards => ?_⟩
    · rw [splitOn_text, lines_eq]
      simp
    · rw [List.map_map, List.map_map]
      exact List.map_congr_left fun line hline => unguarded_innerLine hguards hline

end TableMapper.TypeScript.DocComment
