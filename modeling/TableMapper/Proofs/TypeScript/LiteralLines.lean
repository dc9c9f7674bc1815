/-
TableMapper.Proofs.TypeScript.LiteralLines — the lines of a literal.

The level at which a literal is written shows in the spaces before its
lines and nowhere else (`render_indented_uniformly`). What is written
deeper is compared with whatever follows it, since whether a line begins
depends on the character before. No string and no key breaks a line: a
literal has the lines of its containers (`height`).
-/
import TableMapper.Proofs.Text.Splitting
import TableMapper.Proofs.TypeScript.LiteralGrammar

namespace TableMapper.TypeScript

/-! ## 1. Lines that stand deeper -/

/-- The lines of a text: what stands between its line breaks. -/
def linesOf (s : String) : List (List Char) := Text.splitOn '\n' s.toList

/-- A line with its indentation; an empty line has none. -/
def deeper (levels : Nat) (line : List Char) : List Char :=
  if line.isEmpty then [] else List.replicate (2 * levels) ' ' ++ line

/-- The characters, with each line that begins among them that many
levels deeper. Whether a line begins is known of the first character. -/
def deepened (levels : Nat) : Bool → List Char → List Char
  | _, [] => []
  | start, c :: cs =>
    if c = '\n' then c :: deepened levels true cs
    else if start then List.replicate (2 * levels) ' ' ++ c :: deepened levels false cs
    else c :: deepened levels false cs

theorem deepened_break (levels : Nat) (start : Bool) (cs : List Char) :
    deepened levels start ('\n' :: cs) = '\n' :: deepened levels true cs := by
  rw [deepened, if_pos rfl]

/-- Characters of a line that has begun stay as they are. -/
theorem deepened_append {levels : Nat} {s : List Char} (h : '\n' ∉ s) (rest : List Char) :
    deepened levels false (s ++ rest) = s ++ deepened levels false rest := by
  induction s with
  | nil => rfl
  | cons c s ih =>
    obtain ⟨hc, hs⟩ := not_or.mp (mt List.mem_cons.mpr h)
    rw [List.cons_append, deepened, if_neg (Ne.symm hc), if_neg Bool.false_ne_true, ih hs]
    rfl

/-- The first character of a line has its indentation before it. -/
theorem deepened_start {levels : Nat} {c : Char} (h : c ≠ '\n') (cs : List Char) :
    deepened levels true (c :: cs) =
      List.replicate (2 * levels) ' ' ++ deepened levels false (c :: cs) := by
  rw [deepened, deepened, if_neg h, if_neg h, if_pos rfl, if_neg Bool.false_ne_true]

theorem break_notMem_spaces (count : Nat) : '\n' ∉ List.replicate count ' ' :=
  fun h => absurd (List.eq_of_mem_replicate h) (by decide)

/-- Deepening does to each line what `deeper` does; the first line is
left alone where it has begun before. -/
theorem splitOn_deepened (levels : Nat) : ∀ {cs line : List Char} {lines : List (List Char)},
    Text.splitOn '\n' cs = line :: lines →
      Text.splitOn '\n' (deepened levels false cs) = line :: lines.map (deeper levels) ∧
        Text.splitOn '\n' (deepened levels true cs) =
          deeper levels line :: lines.map (deeper levels)
  | [], line, lines, h => by
    cases h
    exact ⟨rfl, rfl⟩
  | c :: cs, line, lines, h => by
    obtain ⟨next, others, hcs⟩ := List.exists_cons_of_ne_nil (Text.splitOn_ne_nil '\n' cs)
    obtain ⟨hfalse, htrue⟩ := splitOn_deepened levels hcs
    by_cases hc : c = '\n'
    · subst hc
      rw [Text.splitOn, if_pos rfl, hcs] at h
      cases h
      have hbroken : ∀ start, Text.splitOn '\n' (deepened levels start ('\n' :: cs)) =
          [] :: (next :: others).map (deeper levels) := by
        intro start
        rw [deepened_break, Text.splitOn, if_pos rfl, htrue, List.map_cons]
      exact ⟨hbroken false, hbroken true⟩
    · rw [Text.splitOn, if_neg hc, hcs] at h
      obtain ⟨rfl, rfl⟩ := List.cons.inj h
      have hbegun : Text.splitOn '\n' (deepened levels false (c :: cs)) =
          (c :: next) :: others.map (deeper levels) := by
        rw [deepened, if_neg hc, if_neg Bool.false_ne_true, Text.splitOn, if_neg hc, hfalse]
      refine ⟨hbegun, ?_⟩
      rw [deepened_start hc, Text.splitOn_append_of_notMem (break_notMem_spaces _) hbegun, deeper,
        if_neg (by simp)]

/-! ## 2. Texts at two levels -/

/-- The second text is the first with all its lines but the first that
many levels deeper, whatever follows. -/
def Deepens (levels : Nat) (s t : String) : Prop := ∀ rest,
  deepened levels false (s.toList ++ rest) = t.toList ++ deepened levels false rest

/-- The second text is the first with all its lines that many levels
deeper, whatever follows. -/
def DeepensLine (levels : Nat) (s t : String) : Prop := ∀ rest,
  deepened levels true (s.toList ++ rest) = t.toList ++ deepened levels false rest

/-- The text has a first character, which is no line break. -/
def Begins (s : String) : Prop := ∃ c cs, s.toList = c :: cs ∧ c ≠ '\n'

theorem deepens_of_notMem {levels : Nat} {s : String} (h : '\n' ∉ s.toList) : Deepens levels s s :=
  fun rest => deepened_append h rest

theorem Deepens.append {levels : Nat} {s t s' t' : String} (h : Deepens levels s t)
    (h' : Deepens levels s' t') : Deepens levels (s ++ s') (t ++ t') := by
  intro rest
  rw [String.toList_append, String.toList_append, List.append_assoc, List.append_assoc, h, h']

theorem Begins.append {s : String} (h : Begins s) (t : String) : Begins (s ++ t) := by
  obtain ⟨c, cs, hs, hc⟩ := h
  exact ⟨c, cs ++ t.toList, by rw [String.toList_append, hs, List.cons_append], hc⟩

/-- Both indentations of a line together are that of the sum of the
levels. -/
theorem replicate_append_indent (levels level : Nat) :
    List.replicate (2 * levels) ' ' ++ (Text.indent level).toList =
      (Text.indent (level + levels)).toList := by
  rw [Text.indent, Text.indent, String.toList_ofList, String.toList_ofList,
    List.replicate_append_replicate]
  congr 1
  omega

/-- Behind its indentation, a text is a line. -/
theorem Deepens.line {levels : Nat} {s t : String} (h : Deepens levels s t) (hs : Begins s)
    (level : Nat) :
    DeepensLine levels (Text.indent level ++ s) (Text.indent (level + levels) ++ t) := by
  intro rest
  obtain ⟨c, cs, hfront, hc⟩ : Begins (Text.indent level ++ s) := by
    obtain ⟨c, cs, hs, hc⟩ := hs
    cases level with
    | zero => exact ⟨c, cs, by rw [String.toList_append, hs]; rfl, hc⟩
    | succ level =>
      refine ⟨' ', List.replicate (2 * level + 1) ' ' ++ s.toList, ?_, by decide⟩
      rw [String.toList_append, Text.indent, String.toList_ofList]
      rfl
  rw [hfront, List.cons_append, deepened_start hc, ← List.cons_append, ← hfront,
    String.toList_append, List.append_assoc, deepened_append (Text.notMem_indent (by decide) level), h,
    ← List.append_assoc, replicate_append_indent, ← List.append_assoc, ← String.toList_append]

/-- Lines that are joined, and a line break behind them. -/
theorem deepened_joined {levels : Nat} {lines others : List String}
    (h : List.Forall₂ (DeepensLine levels) lines others) (rest : List Char) :
    deepened levels true ((Text.joinWith ",\n" lines).toList ++ '\n' :: rest) =
      (Text.joinWith ",\n" others).toList ++ '\n' :: deepened levels true rest := by
  induction h with
  | nil => exact deepened_break levels true rest
  | @cons line other lines others hline hrest ih =>
    cases hrest with
    | nil => rw [Text.joinWith, Text.joinWith, hline, deepened_break]
    | cons _ _ =>
      rw [Literal.toList_commaLines_cons, Literal.toList_commaLines_cons, List.append_assoc, hline,
        List.cons_append, List.cons_append]
      show _ ++ deepened levels false ([','] ++ '\n' :: _) = _
      rw [deepened_append (by decide), deepened_break, ih, List.append_assoc]
      rfl

/-! ## 3. Scalars and keys -/

theorem break_notMem_escape (c : Char) : '\n' ∉ Text.escape c := by
  have hdigit : ∀ n < 16, Text.hexDigit n ≠ '\n' := by decide
  unfold Text.escape
  split
  · decide
  split
  · decide
  split
  · decide
  next hbreak =>
  split
  · decide
  split
  · decide
  split
  · decide
  split
  · decide
  split
  · next hsmall =>
    simp only [List.mem_cons, List.not_mem_nil, or_false, not_or]
    exact ⟨by decide, by decide, by decide, by decide, Ne.symm (hdigit _ (by omega)),
      Ne.symm (hdigit _ (by omega))⟩
  · exact fun h => hbreak (List.mem_singleton.mp h).symm

/-- A string literal is on one line. -/
theorem break_notMem_quoted (s : String) : '\n' ∉ (Text.quoted s).toList := by
  rw [Text.quoted, String.toList_ofList, List.cons_append, List.mem_cons, List.mem_append,
    List.mem_flatMap, not_or, not_or]
  refine ⟨by decide, ?_, by decide⟩
  rintro ⟨c, -, hc⟩
  exact break_notMem_escape c hc

theorem break_notMem_of_isWord {s : String} (h : IsWord s) : '\n' ∉ s.toList :=
  fun hmem => absurd (h.2 _ hmem) (by decide)

/-- The text is not empty, and on one line. -/
def OneLine (s : String) : Prop := s ≠ "" ∧ '\n' ∉ s.toList

theorem oneLine_of_isWord {s : String} (h : IsWord s) : OneLine s :=
  ⟨fun hs => h.1 (by rw [hs]; rfl), break_notMem_of_isWord h⟩

theorem oneLine_quoted (s : String) : OneLine (Text.quoted s) := by
  refine ⟨fun hs => ?_, break_notMem_quoted s⟩
  have hfront : (Text.quoted s).toList = '"' :: (s.toList.flatMap Text.escape ++ ['"']) := by
    rw [Text.quoted, String.toList_ofList, List.cons_append]
  rw [hs] at hfront
  cases hfront

/-- A key is on one line. -/
theorem oneLine_propertyKey (key : String) : OneLine (propertyKey key) := by
  unfold propertyKey
  split
  · next h => exact oneLine_of_isWord (isWord_of_isIdentifier h)
  · exact oneLine_quoted key

theorem OneLine.begins {s : String} (h : OneLine s) : Begins s := by
  obtain ⟨c, cs, hs⟩ := List.exists_cons_of_ne_nil (mt String.toList_eq_nil_iff.mp h.1)
  refine ⟨c, cs, hs, ?_⟩
  rintro rfl
  exact h.2 (hs ▸ List.mem_cons_self)

/-! ## 4. Literals -/

namespace Literal

/-- A literal that holds no others. -/
def IsScalar : Literal → Prop
  | sequence _ => False
  | mapping _ => False
  | _ => True

theorem oneLine_bare : ∀ literal : Literal, literal.IsScalar → ∀ level,
    OneLine (bare level literal)
  | undefined, _, _ => oneLine_of_isWord
      (isWord_of_isIdentifier (show isIdentifier "undefined" = true by decide))
  | null, _, _ => oneLine_of_isWord
      (isWord_of_isIdentifier (show isIdentifier "null" = true by decide))
  | bool true, _, _ => oneLine_of_isWord
      (isWord_of_isIdentifier (show isIdentifier "true" = true by decide))
  | bool false, _, _ => oneLine_of_isWord
      (isWord_of_isIdentifier (show isIdentifier "false" = true by decide))
  | number n, _, _ => oneLine_of_isWord (isWord_numberText n)
  | text s, _, _ => oneLine_quoted s

theorem begins_bare (level : Nat) (literal : Literal) : Begins (bare level literal) := by
  cases literal with
  | sequence items =>
    have htext := toList_sequence level items []
    rw [List.append_nil] at htext
    exact ⟨_, _, htext, by decide⟩
  | mapping entries =>
    have htext := toList_mapping level entries []
    rw [List.append_nil] at htext
    exact ⟨_, _, htext, by decide⟩
  | undefined | null | bool | number | text => exact (oneLine_bare _ (by trivial) level).begins

/-- The line on which a container closes. -/
theorem deepened_closingLine {levels : Nat} {closing : Char} (h : closing ≠ '\n') (level : Nat)
    (rest : List Char) :
    deepened levels true ((Text.indent level).toList ++ closing :: rest) =
      (Text.indent (level + levels)).toList ++ closing :: deepened levels false rest := by
  have hmark : '\n' ∉ (String.singleton closing).toList := by simpa using Ne.symm h
  have hsame : Deepens levels (String.singleton closing) (String.singleton closing) :=
    deepens_of_notMem hmark
  have hline := hsame.line ⟨closing, [], by simp, h⟩ level
  simpa using hline rest

/-- A container between its brackets. -/
theorem deepens_container {levels level : Nat} {opening closing : Char} {s t : String}
    {lines others : List String} (hopening : opening ≠ '\n') (hclosing : closing ≠ '\n')
    (h : List.Forall₂ (DeepensLine levels) lines others)
    (hs : ∀ rest, s.toList ++ rest = opening :: '\n' ::
      ((Text.joinWith ",\n" lines).toList ++ closingLine level closing rest))
    (ht : ∀ rest, t.toList ++ rest = opening :: '\n' ::
      ((Text.joinWith ",\n" others).toList ++ closingLine (level + levels) closing rest)) :
    Deepens levels s t := by
  intro rest
  have hfront : ∀ cs, deepened levels false ([opening] ++ cs) =
      [opening] ++ deepened levels false cs := deepened_append (by simpa using Ne.symm hopening)
  rw [hs, ht, ← List.singleton_append, hfront, deepened_break, closingLine, deepened_joined h,
    deepened_closingLine hclosing]
  rfl

mutual

/-- A literal at one level is the literal at another with all its lines
but the first that much deeper. -/
theorem deepens_bare (levels : Nat) : ∀ (literal : Literal) (level : Nat),
    Deepens levels (bare level literal) (bare (level + levels) literal)
  | undefined, level => deepens_of_notMem (oneLine_bare undefined trivial level).2
  | null, level => deepens_of_notMem (oneLine_bare null trivial level).2
  | bool b, level => deepens_of_notMem (oneLine_bare (bool b) trivial level).2
  | number n, level => deepens_of_notMem (oneLine_bare (number n) trivial level).2
  | text s, level => deepens_of_notMem (oneLine_bare (text s) trivial level).2
  | sequence items, level => by
    have hlines := deepensLine_itemLines levels items (level + 1)
    rw [Nat.add_right_comm] at hlines
    exact deepens_container (by decide) (by decide) hlines (toList_sequence level items)
      (toList_sequence (level + levels) items)
  | mapping entries, level => by
    have hlines := deepensLine_entryLines levels entries (level + 1)
    rw [Nat.add_right_comm] at hlines
    exact deepens_container (by decide) (by decide) hlines (toList_mapping level entries)
      (toList_mapping (level + levels) entries)

theorem deepensLine_itemLines (levels : Nat) : ∀ (items : List Literal) (level : Nat),
    List.Forall₂ (DeepensLine levels) (itemLines level items) (itemLines (level + levels) items)
  | [], _ => .nil
  | item :: rest, level =>
    .cons ((deepens_bare levels item level).line (begins_bare level item) level)
      (deepensLine_itemLines levels rest level)

theorem deepensLine_entryLines (levels : Nat) : ∀ (entries : Fields Literal) (level : Nat),
    List.Forall₂ (DeepensLine levels) (entryLines level entries) (entryLines (level + levels) entries)
  | [], _ => .nil
  | (key, value) :: rest, level => by
    refine .cons ?_ (deepensLine_entryLines levels rest level)
    have hkey : Deepens levels (propertyKey key) (propertyKey key) :=
      deepens_of_notMem (oneLine_propertyKey key).2
    have hcolon : Deepens levels ": " ": " := deepens_of_notMem (by decide)
    have hentry := (hkey.append hcolon).append (deepens_bare levels value level)
    have hbegins := ((oneLine_propertyKey key).begins.append ": ").append (bare level value)
    simpa only [String.append_assoc] using hentry.line hbegins level

end

/-! ## 5. How many lines -/

mutual

/-- How many lines a literal takes: a container has its brackets on
lines of their own, and at least one line between them. -/
def height : Literal → Nat
  | sequence items => 2 + max 1 (itemHeights items).sum
  | mapping entries => 2 + max 1 (entryHeights entries).sum
  | _ => 1

/-- How many lines each item of a sequence takes. -/
def itemHeights : List Literal → List Nat
  | [] => []
  | item :: rest => height item :: itemHeights rest

/-- How many lines each entry of a mapping takes. -/
def entryHeights : Fields Literal → List Nat
  | [] => []
  | (_, value) :: rest => height value :: entryHeights rest

end

/-- The text takes that many lines. -/
def Takes (s : String) (lines : Nat) : Prop := s.toList.count '\n' + 1 = lines

theorem takes_one {s : String} (h : OneLine s) : Takes s 1 :=
  congrArg (· + 1) (List.count_eq_zero.mpr h.2)

theorem Takes.pos {s : String} {lines : Nat} (h : Takes s lines) : 1 ≤ lines :=
  h ▸ Nat.le_add_left 1 _

/-- What stands before a text on its first line adds no line. -/
theorem Takes.behind {s before : String} {lines : Nat} (h : Takes s lines)
    (hbefore : '\n' ∉ before.toList) : Takes (before ++ s) lines := by
  rw [Takes, String.toList_append, List.count_append, List.count_eq_zero.mpr hbefore, Nat.zero_add]
  exact h

/-- Joined texts take their lines, and without any text it is one. -/
theorem takes_joined {texts : List String} {heights : List Nat}
    (h : List.Forall₂ Takes texts heights) :
    Takes (Text.joinWith ",\n" texts) (max 1 heights.sum) := by
  induction h with
  | nil => rfl
  | @cons s height texts heights hs hrest ih =>
    cases hrest with
    | nil =>
      rw [Text.joinWith, List.sum_cons, List.sum_nil, Nat.add_zero, Nat.max_eq_right hs.pos]
      exact hs
    | cons ht _ =>
      have hpos := hs.pos
      have hnext := ht.pos
      unfold Takes at hs ih ⊢
      rw [toList_commaLines_cons, List.count_append, List.count_cons_of_ne (by decide),
        List.count_cons_self]
      simp only [List.sum_cons] at ih ⊢
      omega

theorem takes_container {opening closing : Char} (hopening : opening ≠ '\n')
    (hclosing : closing ≠ '\n') {s : String} {lines : List String} {level height : Nat}
    (hs : ∀ rest, s.toList ++ rest = opening :: '\n' ::
      ((Text.joinWith ",\n" lines).toList ++ closingLine level closing rest))
    (h : Takes (Text.joinWith ",\n" lines) height) : Takes s (2 + height) := by
  have htext := hs []
  rw [List.append_nil] at htext
  rw [Takes, htext, closingLine, List.count_cons_of_ne hopening, List.count_cons_self,
    List.count_append, List.count_cons_self, List.count_append,
    List.count_eq_zero.mpr (Text.notMem_indent (by decide) level), List.count_cons_of_ne hclosing,
    List.count_nil, ← h]
  omega

mutual

/-- A literal takes as many lines as it is high. -/
theorem takes_bare : ∀ (literal : Literal) (level : Nat), Takes (bare level literal) literal.height
  | undefined, level => takes_one (oneLine_bare undefined trivial level)
  | null, level => takes_one (oneLine_bare null trivial level)
  | bool b, level => takes_one (oneLine_bare (bool b) trivial level)
  | number n, level => takes_one (oneLine_bare (number n) trivial level)
  | text s, level => takes_one (oneLine_bare (text s) trivial level)
  | sequence items, level =>
    takes_container (by decide) (by decide) (toList_sequence level items)
      (takes_joined (takes_itemLines items (level + 1)))
  | mapping entries, level =>
    takes_container (by decide) (by decide) (toList_mapping level entries)
      (takes_joined (takes_entryLines entries (level + 1)))

theorem takes_itemLines : ∀ (items : List Literal) (level : Nat),
    List.Forall₂ Takes (itemLines level items) (itemHeights items)
  | [], _ => .nil
  | item :: rest, level =>
    .cons ((takes_bare item level).behind (Text.notMem_indent (by decide) level)) (takes_itemLines rest level)

theorem takes_entryLines : ∀ (entries : Fields Literal) (level : Nat),
    List.Forall₂ Takes (entryLines level entries) (entryHeights entries)
  | [], _ => .nil
  | (key, value) :: rest, level => by
    refine .cons ((takes_bare value level).behind ?_) (takes_entryLines rest level)
    simp only [String.toList_append, List.mem_append, not_or]
    exact ⟨⟨Text.notMem_indent (by decide) level, (oneLine_propertyKey key).2⟩, by decide⟩

end

/-- A literal has the lines that it takes wherever it is written. -/
theorem length_linesOf_render (literal : Literal) (place : Placement) :
    (linesOf (literal.render place)).length = literal.height := by
  rw [linesOf, Text.length_splitOn]
  refine (takes_bare literal place.level).behind ?_
  split
  · exact List.not_mem_nil
  · exact Text.notMem_indent (by decide) place.level

/-- A literal at a level has the lines that it has at level 0, each of
them indented, and an empty one left empty. Where it continues a line,
only the indentation before its first character is left out. It has the
lines of its containers, and no string and no key breaks a line. -/
theorem render_indented_uniformly (literal : Literal) (levels : Nat) :
    linesOf (literal.render ⟨levels, false⟩) =
        (linesOf (literal.render ⟨0, false⟩)).map (deeper levels) ∧
      (literal.render ⟨levels, false⟩).toList =
        List.replicate (2 * levels) ' ' ++ (literal.render ⟨levels, true⟩).toList ∧
      (∀ place, (linesOf (literal.render place)).length = literal.height) ∧
      ∀ s, '\n' ∉ (Text.quoted s).toList ∧ '\n' ∉ (propertyKey s).toList := by
  have hbare : ∀ levels, literal.render ⟨levels, true⟩ = bare levels literal := by
    intro levels
    rw [render, if_pos rfl, String.empty_append]
  have hindented : ∀ levels, literal.render ⟨levels, false⟩ =
      Text.indent levels ++ bare levels literal := by
    intro levels
    rw [render, if_neg Bool.false_ne_true]
  refine ⟨?_, ?_, length_linesOf_render literal,
    fun s => ⟨(oneLine_quoted s).2, (oneLine_propertyKey s).2⟩⟩
  · have hline := (deepens_bare levels literal 0).line (begins_bare 0 literal) 0 []
    obtain ⟨line, lines, hlines⟩ := List.exists_cons_of_ne_nil
      (Text.splitOn_ne_nil '\n' (literal.render ⟨0, false⟩).toList)
    rw [List.append_nil, ← hindented, Nat.zero_add, ← hindented, deepened, List.append_nil] at hline
    rw [linesOf, linesOf, ← hline, hlines, List.map_cons]
    exact (splitOn_deepened levels hlines).2
  · rw [hindented, hbare, String.toList_append, Text.indent, String.toList_ofList]

end Literal

end TableMapper.TypeScript
