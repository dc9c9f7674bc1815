/-
TableMapper.Proofs.Text.PascalCase — which names are identifiers in
Pascal case.

The words of a name are the name without its separators
(`flatten_words`). Of an ASCII name each character is a cluster, and
putting it in capitals or in small letters does not change what it may
be in an identifier. So an ASCII name in Pascal case is an identifier if
and only if the name is one once its separators are gone
(`isIdentifier_pascalCase`). No name in Pascal case begins with an ASCII
small letter, whatever its characters (`pascalCase_head`).
-/
import Mathlib.Data.List.Forall2
import TableMapper.Text.Words
import TableMapper.TypeScript.Identifier

namespace TableMapper.Text

open TypeScript (isIdentifier isIdentifierChars isIdentifierPart isIdentifierStart)

/-! ## 1. Words -/

/-- The words of clusters are the clusters that are no separators. -/
theorem flatten_wordsAfter (current gs : List Cluster) :
    (wordsAfter current gs).flatten =
      current.reverse.flatten ++ (gs.filter (!·.isSeparator)).flatten := by
  induction gs generalizing current with
  | nil => simp [wordsAfter]
  | cons g rest ih =>
    rw [wordsAfter]
    split
    · next hseparator => simp [ih, hseparator]
    · next hseparator =>
      split
      · simp [ih, hseparator]
      · simp [ih, hseparator]

theorem flatten_words (name : List Char) :
    (words name).flatten = ((clusters name).filter (!·.isSeparator)).flatten := by
  rw [words, List.flatten_filter_not_isEmpty, flatten_wordsAfter]
  rfl

/-! ## 2. ASCII names -/

/-- All characters are ASCII. -/
abbrev Ascii (cs : List Char) : Prop := ∀ c ∈ cs, c.toNat < 128

/-- A character that separates words. -/
def isSeparatorChar (c : Char) : Bool := c == '-' || c == '_' || c == ' '

theorem inRanges_eq_false {ranges : List (Nat × Nat)} (h : ∀ range ∈ ranges, 128 ≤ range.1)
    {c : Char} (hc : c.toNat < 128) : inRanges ranges c = false := by
  rw [inRanges, List.any_eq_false]
  intro range hrange
  have := h range hrange
  simp
  omega

/-- No ASCII character goes on with the cluster before it. -/
theorem continues_eq_false {before : List Char} {c : Char} (hbefore : Ascii before)
    (hc : c.toNat < 128) : continues before c = false := by
  have hjoiner : c ≠ joiner := by
    rintro rfl
    exact absurd hc (by decide)
  have hprepended : before.head?.any (inRanges prependedRanges) = false := by
    cases before with
    | nil => rfl
    | cons b bs => exact inRanges_eq_false (by decide) (hbefore b List.mem_cons_self)
  have hextend : inRanges extendRanges c = false := inRanges_eq_false (by decide +kernel) hc
  have hmark : inRanges spacingMarkRanges c = false := inRanges_eq_false (by decide +kernel) hc
  have hpictograph : inRanges pictographRanges c = false :=
    inRanges_eq_false (by decide +kernel) hc
  simp [continues, hextend, hjoiner, hmark, hprepended, hpictograph]

theorem clustersAfter_ascii {c : Char} (hc : c.toNat < 128) {cs : List Char} (h : Ascii cs) :
    clustersAfter [c] cs = (c :: cs).map fun c => [c] := by
  induction cs generalizing c with
  | nil => rfl
  | cons d ds ih =>
    obtain ⟨hd, hds⟩ := List.forall_mem_cons.mp h
    rw [clustersAfter, continues_eq_false (List.forall_mem_singleton.mpr hc) hd,
      if_neg Bool.false_ne_true, ih hd hds]
    rfl

theorem clusters_ascii {cs : List Char} (h : Ascii cs) : clusters cs = cs.map fun c => [c] := by
  cases cs with
  | nil => rfl
  | cons c cs =>
    obtain ⟨hc, hcs⟩ := List.forall_mem_cons.mp h
    exact clustersAfter_ascii hc hcs

/-- The words of an ASCII name are its characters but for the
separators. -/
theorem flatten_words_ascii {name : List Char} (h : Ascii name) :
    (words name).flatten = name.filter (!isSeparatorChar ·) := by
  have hseparator : ∀ c : Char, Cluster.isSeparator [c] = isSeparatorChar c := by
    intro c
    simp [Cluster.isSeparator, isSeparatorChar]
  rw [flatten_words, clusters_ascii h, List.filter_map, ← List.flatMap_def, List.flatMap_singleton']
  simp only [Function.comp_def, hseparator]

/-! ## 3. Characters of identifiers -/

/-- One character may stand in an identifier where the other may. -/
structure SamePart (c d : Char) : Prop where
  start : isIdentifierStart c = isIdentifierStart d
  part : isIdentifierPart c = isIdentifierPart d

/-- What holds of the first codes holds of the ASCII characters. -/
theorem forall_ascii {p : Char → Prop} (h : ∀ n < 128, p (Char.ofNat n)) {c : Char}
    (hc : c.toNat < 128) : p c := by
  have hcode := h c.toNat hc
  rwa [Char.ofNat_toNat] at hcode

theorem samePart_toUpper {c : Char} (hc : c.toNat < 128) : SamePart c c.toUpper :=
  ⟨forall_ascii (p := fun c => isIdentifierStart c = isIdentifierStart c.toUpper) (by decide) hc,
    forall_ascii (p := fun c => isIdentifierPart c = isIdentifierPart c.toUpper) (by decide) hc⟩

theorem samePart_toLower {c : Char} (hc : c.toNat < 128) : SamePart c c.toLower :=
  ⟨forall_ascii (p := fun c => isIdentifierStart c = isIdentifierStart c.toLower) (by decide) hc,
    forall_ascii (p := fun c => isIdentifierPart c = isIdentifierPart c.toLower) (by decide) hc⟩

theorem isIdentifierChars_congr {cs ds : List Char} (h : List.Forall₂ SamePart cs ds) :
    isIdentifierChars cs = isIdentifierChars ds := by
  cases h with
  | nil => rfl
  | cons hfirst hrest =>
    have hall : ∀ {cs ds : List Char}, List.Forall₂ SamePart cs ds →
        cs.all isIdentifierPart = ds.all isIdentifierPart := by
      intro cs ds h
      induction h with
      | nil => rfl
      | cons hfirst _ ih => rw [List.all_cons, List.all_cons, hfirst.part, ih]
    rw [isIdentifierChars, isIdentifierChars, hfirst.start, hall hrest]

/-! ## 4. Pascal case -/

theorem toSmallsAfter_ascii (before : List Char) {cs : List Char} (h : Ascii cs) :
    toSmallsAfter before cs = cs.map Char.toLower := by
  induction cs generalizing before with
  | nil => rfl
  | cons c cs ih =>
    obtain ⟨hc, hcs⟩ := List.forall_mem_cons.mp h
    have hsigma : c ≠ 'Σ' := by
      rintro rfl
      exact absurd hc (by decide)
    rw [toSmallsAfter, smallBetween, if_neg hsigma, small, if_pos hc, ih _ hcs]
    rfl

theorem capitalized_ascii {word : List Char} (h : Ascii word) :
    List.Forall₂ SamePart word (capitalized word) := by
  cases word with
  | nil => exact .nil
  | cons c cs =>
    obtain ⟨hc, hcs⟩ := List.forall_mem_cons.mp h
    rw [capitalized, capital, if_pos hc, toSmalls, toSmallsAfter_ascii [] hcs]
    refine .cons (samePart_toUpper hc) ?_
    show List.Forall₂ SamePart cs (cs.map Char.toLower)
    rw [List.forall₂_map_right_iff]
    exact List.forall₂_same.mpr fun d hd => samePart_toLower (hcs d hd)

theorem flatMap_capitalized_ascii {ws : List (List Char)} (h : ∀ word ∈ ws, Ascii word) :
    List.Forall₂ SamePart ws.flatten (ws.flatMap capitalized) := by
  induction ws with
  | nil => exact .nil
  | cons word rest ih =>
    obtain ⟨hword, hrest⟩ := List.forall_mem_cons.mp h
    exact List.rel_append (capitalized_ascii hword) (ih hrest)

/-- An ASCII name in Pascal case is an identifier if and only if the
name is one without its separators. -/
theorem isIdentifier_pascalCase {name : String} (h : Ascii name.toList) :
    isIdentifier (pascalCase name) =
      isIdentifierChars (name.toList.filter (!isSeparatorChar ·)) := by
  have hwords : ∀ word ∈ words name.toList, Ascii word := by
    intro word hword c hc
    have hmem : c ∈ (words name.toList).flatten := List.mem_flatten.mpr ⟨word, hword, hc⟩
    rw [flatten_words_ascii h] at hmem
    exact h c (List.mem_of_mem_filter hmem)
  rw [isIdentifier, pascalCase, String.toList_ofList, ← flatten_words_ascii h]
  exact (isIdentifierChars_congr (flatMap_capitalized_ascii hwords)).symm

/-! ## 5. First letters -/

/-- The codes of the ASCII small letters. -/
def isSmallCode (n : Nat) : Bool := 0x61 ≤ n && n ≤ 0x7a

theorem isSmallCode_ofNat {n : Nat} (h : isSmallCode n = false) :
    isSmallCode (Char.ofNat n).toNat = false := by
  by_cases hvalid : n.isValidChar
  · have hcode : (Char.ofNat n).toNat = n := by
      rw [Char.ofNat, dif_pos hvalid]
      rfl
    rwa [hcode]
  · rw [Char.ofNat, dif_neg hvalid]
    rfl

/-- No entry of the table of long capitals is empty or begins with a
small letter. -/
theorem longCapitals_head : ∀ entry ∈ longCapitals,
    ∃ n ns, entry.2 = n :: ns ∧ isSmallCode n = false := by
  have hall : longCapitals.all (fun entry => entry.2.head?.any (!isSmallCode ·)) = true := by
    decide +kernel
  intro entry hentry
  have h := List.all_eq_true.mp hall entry hentry
  cases hcodes : entry.2 with
  | nil => rw [hcodes] at h; cases h
  | cons n ns =>
    rw [hcodes] at h
    exact ⟨n, ns, rfl, by simpa using h⟩

/-- No run of capitals gets from beyond the ASCII characters to a small
letter. -/
theorem capitalRuns_apart : ∀ run ∈ capitalRuns, run.last < 0x80 ∨
    0x7a < run.first + run.distance ∨ run.last + run.distance < 0x61 := by
  decide +kernel

theorem counterpart?_capital {run : CaseRun} (hrun : run ∈ capitalRuns) {c d : Char}
    (hc : ¬ c.toNat < 0x80) (h : run.counterpart? c = some d) : isSmallCode d.toNat = false := by
  unfold CaseRun.counterpart? at h
  split at h
  · next hrange =>
    cases h
    apply isSmallCode_ofNat
    simp only [Bool.and_eq_true, decide_eq_true_eq] at hrange
    rcases capitalRuns_apart run hrun with h | h | h <;> simp [isSmallCode] <;> omega
  · cases h

/-- A capital form begins with no ASCII small letter. -/
theorem capital_head (c : Char) :
    ∃ d ds, capital c = d :: ds ∧ isSmallCode d.toNat = false := by
  unfold capital
  split
  · next hc =>
    have hupper : isSmallCode c.toUpper.toNat = false :=
      forall_ascii (p := fun c => isSmallCode c.toUpper.toNat = false) (by decide) hc
    exact ⟨_, [], rfl, hupper⟩
  · next hc =>
    unfold counterpart
    split
    · next codes hlookup =>
      obtain ⟨before, after, htable, -⟩ := List.lookup_eq_some_iff.mp hlookup
      have hentry : (c.toNat, codes) ∈ longCapitals := by simp [htable]
      obtain ⟨n, ns, rfl, hn⟩ := longCapitals_head _ hentry
      exact ⟨_, _, rfl, isSmallCode_ofNat hn⟩
    · refine ⟨_, [], rfl, ?_⟩
      cases hfind : capitalRuns.findSome? (·.counterpart? c) with
      | none => simp [isSmallCode]; omega
      | some d =>
        obtain ⟨run, hrun, hd⟩ := List.exists_of_findSome?_eq_some hfind
        exact counterpart?_capital hrun hc hd

/-- A name in Pascal case begins with no ASCII small letter. -/
theorem pascalCase_head {name : String} {c : Char}
    (h : (pascalCase name).toList.head? = some c) : isSmallCode c.toNat = false := by
  rw [pascalCase, String.toList_ofList] at h
  cases hwords : words name.toList with
  | nil => rw [hwords] at h; cases h
  | cons word rest =>
    have hword : word ≠ [] := by
      have hmem : word ∈ words name.toList := hwords ▸ List.mem_cons_self
      simpa using (List.mem_filter.mp hmem).2
    obtain ⟨d, ds, rfl⟩ := List.exists_cons_of_ne_nil hword
    obtain ⟨e, es, hcapital, he⟩ := capital_head d
    rw [hwords, List.flatMap_cons, capitalized, hcapital] at h
    cases h
    exact he

end TableMapper.Text
