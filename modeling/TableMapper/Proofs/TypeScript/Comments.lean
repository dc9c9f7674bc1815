/-
TableMapper.Proofs.TypeScript.Comments — comments are passed over.

Whatever a description says, the comment around it ends where its last
line does: no line of it can close the comment early.
-/
import TableMapper.Proofs.TypeScript.Tokens
import TableMapper.TypeScript.DocComment

namespace TableMapper.TypeScript

/-! ## 1. Inside a comment -/

/-- A line with its end. -/
def endedLine (line : String) : List Char := line.toList ++ ['\n']

theorem tokensFrom?_comment {c : Char} (h : c ≠ '*') (cs : List Char) :
    tokensFrom? .comment (c :: cs) = tokensFrom? .comment cs := by
  have hstep : step? .comment c = some ([], .comment) := by
    rw [step?, if_neg h]
  exact tokensFrom?_silent hstep cs

theorem tokensFrom?_comment_star (cs : List Char) :
    tokensFrom? .comment ('*' :: cs) = tokensFrom? .star cs :=
  tokensFrom?_silent rfl cs

/-- Behind a star, only a slash is different. -/
theorem tokensFrom?_star {c : Char} (h : c ≠ '/') (cs : List Char) :
    tokensFrom? .star (c :: cs) = tokensFrom? .comment (c :: cs) := by
  by_cases hstar : c = '*'
  · subst hstar
    have hstep : step? .star '*' = some ([], .star) := rfl
    rw [tokensFrom?_silent hstep, tokensFrom?_comment_star]
  · have hstep : step? .star c = some ([], .comment) := by
      rw [step?, if_neg h, if_neg hstar]
    rw [tokensFrom?_silent hstep, tokensFrom?_comment hstar]

theorem tokensFrom?_comment_indent (level : Nat) (cs : List Char) :
    tokensFrom? .comment ((Text.indent level).toList ++ cs) = tokensFrom? .comment cs := by
  rw [Text.indent, String.toList_ofList]
  induction 2 * level with
  | zero => rfl
  | succ n ih =>
    rw [List.replicate_succ, List.cons_append, tokensFrom?_comment (by decide), ih]

namespace DocComment

theorem guarded_cons {c : Char} {cs : List Char} (h : c ≠ '*' ∨ cs.head? ≠ some '/') :
    guarded (c :: cs) = c :: guarded cs := by
  rw [guarded]
  rintro d rfl rfl
  rcases h with h | h
  · exact absurd rfl h
  · exact absurd rfl h

/-- What a character does that is not the first of a pair that closes,
given what the rest does. -/
theorem tokensFrom?_guarded_cons {rest : List Char} {c : Char} {cs : List Char}
    (h : c ≠ '*' ∨ cs.head? ≠ some '/')
    (hcomment : tokensFrom? .comment (guarded cs ++ '\n' :: rest) = tokensFrom? .comment rest)
    (hstar : cs.head? ≠ some '/' →
      tokensFrom? .star (guarded cs ++ '\n' :: rest) = tokensFrom? .comment rest) :
    tokensFrom? .comment (guarded (c :: cs) ++ '\n' :: rest) = tokensFrom? .comment rest := by
  rw [guarded_cons h, List.cons_append]
  by_cases hc : c = '*'
  · subst hc
    rw [tokensFrom?_comment_star]
    exact hstar (h.resolve_left (not_not_intro rfl))
  · rw [tokensFrom?_comment hc]
    exact hcomment

/-- A guarded line stays in the comment, whether or not a star stands
before it. -/
theorem tokensFrom?_guarded (rest : List Char) : ∀ cs : List Char,
    tokensFrom? .comment (guarded cs ++ '\n' :: rest) = tokensFrom? .comment rest ∧
      (cs.head? ≠ some '/' →
        tokensFrom? .star (guarded cs ++ '\n' :: rest) = tokensFrom? .comment rest)
  | [] => by
    have hline : tokensFrom? .comment ('\n' :: rest) = tokensFrom? .comment rest :=
      tokensFrom?_comment (by decide) rest
    refine ⟨hline, fun _ => ?_⟩
    rw [guarded, List.nil_append, tokensFrom?_star (by decide), hline]
  | [c] => by
    obtain ⟨hcomment, hstar⟩ := tokensFrom?_guarded rest []
    have hline := tokensFrom?_guarded_cons (c := c) (.inr (by decide)) hcomment hstar
    refine ⟨hline, fun hslash => ?_⟩
    rw [guarded_cons (.inr (by decide)), List.cons_append] at hline ⊢
    rw [tokensFrom?_star (fun h => hslash (congrArg some h)), hline]
  | c :: d :: cs => by
    by_cases hpair : c = '*' ∧ d = '/'
    · obtain ⟨rfl, rfl⟩ := hpair
      obtain ⟨hcomment, -⟩ := tokensFrom?_guarded rest cs
      have hline : tokensFrom? .comment (guarded ('*' :: '/' :: cs) ++ '\n' :: rest) =
          tokensFrom? .comment rest := by
        rw [guarded, List.cons_append, List.cons_append, List.cons_append, tokensFrom?_comment_star,
          tokensFrom?_star (by decide), tokensFrom?_comment (by decide),
          tokensFrom?_comment (by decide), hcomment]
      refine ⟨hline, fun _ => ?_⟩
      rw [guarded, List.cons_append] at hline ⊢
      rw [tokensFrom?_star (by decide), hline]
    · have h : c ≠ '*' ∨ (d :: cs).head? ≠ some '/' := by
        rcases not_and_or.mp hpair with hc | hd
        · exact .inl hc
        · exact .inr fun heq => hd (Option.some.inj heq)
      obtain ⟨hcomment, hstar⟩ := tokensFrom?_guarded rest (d :: cs)
      have hline := tokensFrom?_guarded_cons h hcomment hstar
      refine ⟨hline, fun hslash => ?_⟩
      rw [guarded_cons h, List.cons_append] at hline ⊢
      rw [tokensFrom?_star (fun hc => hslash (congrArg some hc)), hline]

/-- A line of a description stays in the comment. -/
theorem tokensFrom?_bodyLine (level : Nat) (line : String) (rest : List Char) :
    tokensFrom? .comment (endedLine (Text.indent level ++ bodyLine line) ++ rest) =
      tokensFrom? .comment rest := by
  rw [endedLine, String.toList_append, List.append_assoc, List.append_assoc,
    tokensFrom?_comment_indent]
  unfold bodyLine
  split
  · show tokensFrom? .comment (' ' :: '*' :: '\n' :: rest) = _
    rw [tokensFrom?_comment (by decide), tokensFrom?_comment_star, tokensFrom?_star (by decide),
      tokensFrom?_comment (by decide)]
  · simp only [String.toList_append, String.toList_ofList]
    show tokensFrom? .comment (' ' :: '*' :: ' ' :: (guarded line.toList ++ '\n' :: rest)) = _
    rw [tokensFrom?_comment (by decide), tokensFrom?_comment_star, tokensFrom?_star (by decide),
      tokensFrom?_comment (by decide), (tokensFrom?_guarded rest line.toList).1]

theorem tokensFrom?_bodyLines (level : Nat) (rest : List Char) (body : List String) :
    tokensFrom? .comment
        ((body.map fun line => Text.indent level ++ bodyLine line).flatMap endedLine ++ rest) =
      tokensFrom? .comment rest := by
  induction body with
  | nil => rfl
  | cons line body ih =>
    rw [List.map_cons, List.flatMap_cons, List.append_assoc, tokensFrom?_bodyLine, ih]

/-! ## 2. Whole comments -/

/-- The comment for a description is passed over. -/
theorem closes_lines (level : Nat) (description : String) :
    Closes ((lines level description).flatMap endedLine) [] := by
  have hopen : ∀ rest, tokensFrom? .between (endedLine (Text.indent level ++ "/**") ++ rest) =
      tokensFrom? .comment rest := by
    intro rest
    have hslash : step? .between '/' = some ([], .slash) := rfl
    have hcomment : step? .slash '*' = some ([], .comment) := rfl
    rw [endedLine, String.toList_append, List.append_assoc, List.append_assoc, closes_indent level]
    show (tokensFrom? .between ('/' :: '*' :: '*' :: '\n' :: rest)).map ([] ++ ·) = _
    rw [tokensFrom?_silent hslash, tokensFrom?_silent hcomment, tokensFrom?_comment_star,
      tokensFrom?_star (by decide), tokensFrom?_comment (by decide)]
    exact congrFun Option.map_id _
  have hclose : ∀ rest, tokensFrom? .comment (endedLine (Text.indent level ++ " */") ++ rest) =
      tokensFrom? .between rest := by
    intro rest
    have hslash : step? .star '/' = some ([], .between) := rfl
    have hline : step? .between '\n' = some ([], .between) := rfl
    rw [endedLine, String.toList_append, List.append_assoc, List.append_assoc,
      tokensFrom?_comment_indent]
    show tokensFrom? .comment (' ' :: '*' :: '/' :: '\n' :: rest) = _
    rw [tokensFrom?_comment (by decide), tokensFrom?_comment_star, tokensFrom?_silent hslash,
      tokensFrom?_silent hline]
  intro rest
  rw [lines, List.map_append, List.map_cons, List.flatMap_append, List.flatMap_cons,
    List.append_assoc, List.append_assoc, hopen, List.map_map]
  show tokensFrom? .comment (((Text.lines description).map fun line =>
      Text.indent level ++ bodyLine line).flatMap endedLine ++ _) = _
  rw [tokensFrom?_bodyLines, List.map_singleton, List.flatMap_singleton, hclose]
  exact (congrFun Option.map_id _).symm

/-- The comment for a description is passed over, if there is one. -/
theorem closes_lines? (level : Nat) : ∀ description : Option String,
    Closes ((lines? level description).flatMap endedLine) []
  | none => Closes.nil
  | some description => closes_lines level description

end DocComment

end TableMapper.TypeScript
