/-
TableMapper.Proofs.Text.Splitting — splitting at a separator undoes
joining with it, a run of characters of one kind is cut off where
another kind begins, and the lines of a text are what stands between its
line ends.
-/
import TableMapper.Text.Basic

namespace TableMapper.Text

/-! ## 1. The first separator -/

/-- The part before the first separator holds none, and nothing is
lost. -/
theorem splitAtFirst?_eq_some_iff {separator : Char} {cs before after : List Char} :
    splitAtFirst? separator cs = some (before, after) ↔
      cs = before ++ separator :: after ∧ separator ∉ before := by
  induction cs generalizing before with
  | nil => simp [splitAtFirst?]
  | cons c cs ih =>
    rw [splitAtFirst?]
    split
    · next h =>
      subst h
      cases before with
      | nil => simp
      | cons b before =>
        simp only [Option.some.injEq, Prod.mk.injEq, List.cons_append, List.cons.injEq]
        constructor
        · rintro ⟨h, -⟩
          exact absurd h (by simp)
        · rintro ⟨⟨rfl, -⟩, h⟩
          exact absurd List.mem_cons_self h
    · next h =>
      cases before with
      | nil =>
        simp only [Option.map_eq_some_iff, List.nil_append, List.cons.injEq]
        constructor
        · rintro ⟨p, -, hp⟩
          exact absurd (Prod.mk.inj hp).1 (by simp)
        · rintro ⟨⟨hc, -⟩, -⟩
          exact absurd hc h
      | cons b before =>
        simp only [Option.map_eq_some_iff, Prod.exists, Prod.mk.injEq, List.cons.injEq,
          List.cons_append, List.mem_cons, not_or]
        constructor
        · rintro ⟨x, y, hxy, ⟨rfl, rfl⟩, rfl⟩
          obtain ⟨hcs, hb⟩ := ih.mp hxy
          exact ⟨⟨rfl, hcs⟩, Ne.symm h, hb⟩
        · rintro ⟨⟨rfl, hcs⟩, -, hb⟩
          exact ⟨before, after, ih.mpr ⟨hcs, hb⟩, ⟨rfl, rfl⟩, rfl⟩

/-! ## 2. All separators -/

theorem splitOn_of_notMem {separator : Char} {cs : List Char} (h : separator ∉ cs) :
    splitOn separator cs = [cs] := by
  induction cs with
  | nil => rfl
  | cons c cs ih =>
    obtain ⟨hc, hcs⟩ := not_or.mp (mt List.mem_cons.mpr h)
    rw [splitOn, if_neg (Ne.symm hc), ih hcs]

theorem splitOn_append_cons {separator : Char} (rest : List Char) {cs : List Char}
    (h : separator ∉ cs) :
    splitOn separator (cs ++ separator :: rest) = cs :: splitOn separator rest := by
  induction cs with
  | nil => rw [List.nil_append, splitOn, if_pos rfl]
  | cons c cs ih =>
    obtain ⟨hc, hcs⟩ := not_or.mp (mt List.mem_cons.mpr h)
    rw [List.cons_append, splitOn, if_neg (Ne.symm hc), ih hcs]

theorem splitOn_ne_nil (separator : Char) (cs : List Char) : splitOn separator cs ≠ [] := by
  cases cs with
  | nil => exact List.cons_ne_nil _ _
  | cons c cs =>
    rw [splitOn]
    split
    · exact List.cons_ne_nil _ _
    · split <;> exact List.cons_ne_nil _ _

theorem splitOn_ne_singleton_nil {separator : Char} {cs : List Char} (h : cs ≠ []) :
    splitOn separator cs ≠ [[]] := by
  obtain ⟨c, cs, rfl⟩ := List.exists_cons_of_ne_nil h
  rw [splitOn]
  split
  · simp [splitOn_ne_nil]
  · split <;> simp

/-- Characters without a separator belong to the first part behind
them. -/
theorem splitOn_append_of_notMem {separator : Char} {before cs part : List Char}
    {parts : List (List Char)} (hbefore : separator ∉ before)
    (h : splitOn separator cs = part :: parts) :
    splitOn separator (before ++ cs) = (before ++ part) :: parts := by
  induction before with
  | nil => exact h
  | cons c before ih =>
    obtain ⟨hc, hbefore⟩ := not_or.mp (mt List.mem_cons.mpr hbefore)
    rw [List.cons_append, splitOn, if_neg (Ne.symm hc), ih hbefore]
    rfl

/-- There is one part more than there are separators. -/
theorem length_splitOn (separator : Char) :
    ∀ cs : List Char, (splitOn separator cs).length = cs.count separator + 1
  | [] => rfl
  | c :: cs => by
    have ih := length_splitOn separator cs
    obtain ⟨part, parts, hparts⟩ := List.exists_cons_of_ne_nil (splitOn_ne_nil separator cs)
    rw [hparts] at ih
    rw [splitOn, hparts]
    split
    · next h => rw [h, List.count_cons_self, List.length_cons, ih]
    · next h => rw [List.count_cons_of_ne h, ← ih, List.length_cons, List.length_cons]

/-- A separator between two texts separates the parts of the one from
those of the other. -/
theorem splitOn_append_separator (separator : Char) (rest : List Char) :
    ∀ cs : List Char, splitOn separator (cs ++ separator :: rest) =
      splitOn separator cs ++ splitOn separator rest
  | [] => splitOn_append_cons rest List.not_mem_nil
  | c :: cs => by
    have ih := splitOn_append_separator separator rest cs
    obtain ⟨part, parts, hparts⟩ := List.exists_cons_of_ne_nil (splitOn_ne_nil separator cs)
    rw [hparts] at ih
    rw [List.cons_append, splitOn, splitOn, ih, hparts]
    split <;> rfl

/-- The parts between separators hold no separator. -/
theorem notMem_of_mem_splitOn {separator : Char} :
    ∀ {cs part : List Char}, part ∈ splitOn separator cs → separator ∉ part
  | [], part, h => by
    rw [List.mem_singleton.mp h]
    exact List.not_mem_nil
  | c :: cs, part, h => by
    rw [splitOn] at h
    split at h
    · rcases List.mem_cons.mp h with rfl | h
      · exact List.not_mem_nil
      · exact notMem_of_mem_splitOn h
    · next hc =>
      have ih : ∀ {part}, part ∈ splitOn separator cs → separator ∉ part := notMem_of_mem_splitOn
      split at h
      · rw [List.mem_singleton.mp h]
        simpa using Ne.symm hc
      · next first parts hs =>
        rw [hs] at ih
        rcases List.mem_cons.mp h with rfl | h
        · exact List.not_mem_cons_of_ne_of_not_mem (Ne.symm hc) (ih List.mem_cons_self)
        · exact ih (List.mem_cons_of_mem _ h)

/-- Of joined pieces the first comes first, with the separator behind
it. -/
theorem toList_joinWith_cons (separator piece next : String) (pieces : List String) :
    (joinWith separator (piece :: next :: pieces)).toList =
      piece.toList ++ (separator.toList ++ (joinWith separator (next :: pieces)).toList) := by
  rw [joinWith.eq_3 _ _ _ (List.cons_ne_nil _ _), String.toList_append, String.toList_append,
    List.append_assoc]

/-- Parts that are joined are split at the same places. -/
theorem splitOn_joinWith {separator : String} {c : Char} (hseparator : separator.toList = [c]) :
    ∀ {parts : List String}, parts ≠ [] → (∀ part ∈ parts, c ∉ part.toList) →
      splitOn c (joinWith separator parts).toList = parts.map String.toList
  | [part], _, h => splitOn_of_notMem (h part List.mem_cons_self)
  | part :: next :: parts, _, h => by
    have hpart := h part List.mem_cons_self
    have ih := splitOn_joinWith hseparator (List.cons_ne_nil next parts)
      (fun p hp => h p (List.mem_cons_of_mem _ hp))
    rw [toList_joinWith_cons, hseparator, List.singleton_append, splitOn_append_cons _ hpart, ih]
    rfl

/-- Parts that are joined by slashes are split at the same places. -/
theorem splitOn_joinWith_slash {parts : List String} (hne : parts ≠ [])
    (h : ∀ part ∈ parts, '/' ∉ part.toList) :
    splitOn '/' (joinWith "/" parts).toList = parts.map String.toList :=
  splitOn_joinWith rfl hne h

/-! ## 3. Runs -/

/-- No character of the kind stands first. -/
def EndsRun (kind : Char → Bool) (rest : List Char) : Prop := ∀ c ∈ rest.head?, kind c = false

theorem endsRun_nil (kind : Char → Bool) : EndsRun kind [] := fun _ hc => absurd hc (by simp)

theorem endsRun_cons {kind : Char → Bool} {c : Char} (h : kind c = false) (rest : List Char) :
    EndsRun kind (c :: rest) := by
  intro d hd
  obtain rfl := Option.some.inj hd
  exact h

theorem takeWhile_run {kind : Char → Bool} {run rest : List Char} (h : ∀ c ∈ run, kind c = true)
    (hrest : EndsRun kind rest) : (run ++ rest).takeWhile kind = run := by
  rw [List.takeWhile_append_of_pos h]
  cases rest with
  | nil => rw [List.takeWhile_nil, List.append_nil]
  | cons c rest => rw [List.takeWhile_cons_of_neg (by simp [hrest c rfl]), List.append_nil]

theorem dropWhile_run {kind : Char → Bool} {run rest : List Char} (h : ∀ c ∈ run, kind c = true)
    (hrest : EndsRun kind rest) : (run ++ rest).dropWhile kind = rest := by
  rw [List.dropWhile_append_of_pos h]
  cases rest with
  | nil => rfl
  | cons c rest => rw [List.dropWhile_cons_of_neg (by simp [hrest c rfl])]

/-- Where the run ends there is one way to cut it off. -/
theorem append_run_inj {kind : Char → Bool} {run run' rest rest' : List Char}
    (h : run ++ rest = run' ++ rest') (hrun : ∀ c ∈ run, kind c = true)
    (hrun' : ∀ c ∈ run', kind c = true) (hrest : EndsRun kind rest) (hrest' : EndsRun kind rest') :
    run = run' ∧ rest = rest' := by
  constructor
  · rw [← takeWhile_run hrun hrest, h, takeWhile_run hrun' hrest']
  · rw [← dropWhile_run hrun hrest, h, dropWhile_run hrun' hrest']

/-! ## 4. Lines -/

/-- The lines of a text. A line ends at a line feed or at a carriage
return with a line feed, and what is left behind the last end is a line
too. -/
inductive HasLines : List Char → List (List Char) → Prop where
  | nothing : HasLines [] []
  | last {line : List Char} : line ≠ [] → '\n' ∉ line → HasLines line [line]
  | ended {line rest : List Char} {lines : List (List Char)} : '\n' ∉ line →
      line.getLast? ≠ some '\r' → HasLines rest lines →
        HasLines (line ++ '\n' :: rest) (line :: lines)
  | returned {line rest : List Char} {lines : List (List Char)} : '\n' ∉ line →
      HasLines rest lines → HasLines (line ++ '\r' :: '\n' :: rest) (line :: lines)

theorem HasLines.break_notMem {cs : List Char} {lines : List (List Char)} (h : HasLines cs lines) :
    ∀ line ∈ lines, '\n' ∉ line := by
  induction h with
  | nothing => exact fun _ h => absurd h List.not_mem_nil
  | last _ hline => exact List.forall_mem_singleton.mpr hline
  | ended hline _ _ ih => exact List.forall_mem_cons.mpr ⟨hline, ih⟩
  | returned hline _ ih => exact List.forall_mem_cons.mpr ⟨hline, ih⟩

/-- A line is a piece of the text. -/
theorem HasLines.piece {cs : List Char} {lines : List (List Char)} (h : HasLines cs lines) :
    ∀ line ∈ lines, line <:+: cs := by
  induction h with
  | nothing => exact fun _ h => absurd h List.not_mem_nil
  | @last line _ _ => exact List.forall_mem_singleton.mpr (List.infix_refl line)
  | @ended line rest _ _ _ _ ih =>
    refine List.forall_mem_cons.mpr ⟨List.infix_append [] line _, fun other hother => ?_⟩
    exact (ih other hother).trans ⟨line ++ ['\n'], [], by simp⟩
  | @returned line rest _ _ _ ih =>
    refine List.forall_mem_cons.mpr ⟨List.infix_append [] line _, fun other hother => ?_⟩
    exact (ih other hother).trans ⟨line ++ ['\r', '\n'], [], by simp⟩

/-- An indentation is of spaces only. -/
theorem notMem_indent {c : Char} (h : c ≠ ' ') (level : Nat) : c ∉ (indent level).toList := by
  rw [indent, String.toList_ofList]
  exact fun hc => h (List.eq_of_mem_replicate hc)

theorem lines_of_notMem {line : List Char} (h : '\n' ∉ line) :
    (lines (String.ofList line)).map String.toList = if line = [] then [] else [line] := by
  rw [lines, String.toList_ofList, splitOn_of_notMem h]
  by_cases hline : line = [] <;> simp [hline]

theorem lines_append_break {line : List Char} (h : '\n' ∉ line) (rest : List Char) :
    (lines (String.ofList (line ++ '\n' :: rest))).map String.toList =
      chompReturn line :: (lines (String.ofList rest)).map String.toList := by
  obtain ⟨part, parts, hrest⟩ := List.exists_cons_of_ne_nil (splitOn_ne_nil '\n' rest)
  rw [lines, lines, String.toList_ofList, String.toList_ofList, splitOn_append_cons rest h, hrest]
  simp only [List.dropLast_cons_cons, List.getLast?_cons_cons, List.map_cons]
  split <;> simp

/-- The lines that a text is split into are its lines. -/
theorem hasLines_lines (cs : List Char) :
    HasLines cs ((lines (String.ofList cs)).map String.toList) := by
  by_cases hbreak : '\n' ∈ cs
  · obtain ⟨line, rest, hcs, hline⟩ := List.eq_append_cons_of_mem hbreak
    have ih := hasLines_lines rest
    rw [hcs, lines_append_break hline, chompReturn]
    split
    · next hreturn =>
      obtain ⟨before, rfl⟩ := List.getLast?_eq_some_iff.mp hreturn
      rw [List.dropLast_concat, List.append_assoc]
      exact .returned (fun h => hline (List.mem_append_left _ h)) ih
    · next hreturn => exact .ended hline hreturn ih
  · rw [lines_of_notMem hbreak]
    split
    · next h =>
      rw [h]
      exact .nothing
    · next h => exact .last h hbreak
termination_by cs.length
decreasing_by
  rw [hcs, List.length_append, List.length_cons]
  omega

end TableMapper.Text
