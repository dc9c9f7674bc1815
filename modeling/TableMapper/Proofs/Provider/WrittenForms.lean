/-
TableMapper.Proofs.Provider.WrittenForms — which texts are providers.

`DefaultForm` and `NamedForm` say which provider a text writes, without
a look at how it is read. What is read is what is written in one of the
two forms, the first if it has both (`parse_reads_forms`); so a provider
is written in one way only, and its text is read as the provider again.
-/
import TableMapper.Provider
import TableMapper.Proofs.Text.Splitting

namespace TableMapper.Provider

/-! ## 1. Characters -/

/-- The letters from `a` to `z` in either case, and the two characters
that are a case variant of one of them: the long s and the Kelvin
sign. -/
def Letter (c : Char) : Prop :=
  ('a' ≤ c ∧ c ≤ 'z') ∨ ('A' ≤ c ∧ c ≤ 'Z') ∨ c = '\u017f' ∨ c = '\u212a'

instance : DecidablePred Letter := fun c =>
  inferInstanceAs
    (Decidable (('a' ≤ c ∧ c ≤ 'z') ∨ ('A' ≤ c ∧ c ≤ 'Z') ∨ c = '\u017f' ∨ c = '\u212a'))

/-- What a symbol begins with. -/
def SymbolStart (c : Char) : Prop := Letter c ∨ c = '_' ∨ c = '$'

/-- What a symbol goes on with. -/
def SymbolPart (c : Char) : Prop := SymbolStart c ∨ ('0' ≤ c ∧ c ≤ '9')

/-- The characters are a symbol. -/
inductive SpellsSymbol : List Char → Prop where
  | mk {c : Char} {cs : List Char} : SymbolStart c → (∀ d ∈ cs, SymbolPart d) →
      SpellsSymbol (c :: cs)

theorem isLetter_iff {c : Char} : isLetter c = true ↔ Letter c := by
  have halpha : c.isAlpha = (decide ('A' ≤ c ∧ c ≤ 'Z') ||
      (decide ('a' ≤ c) && decide (c ≤ 'z'))) := rfl
  simp only [isLetter, Letter, halpha, Bool.or_eq_true, Bool.and_eq_true, decide_eq_true_eq]
  constructor
  · rintro (((h | h) | h) | h)
    · exact .inr (.inl h)
    · exact .inl h
    · exact .inr (.inr (.inl h))
    · exact .inr (.inr (.inr h))
  · rintro (h | h | h | h)
    · exact .inl (.inl (.inr h))
    · exact .inl (.inl (.inl h))
    · exact .inl (.inr h)
    · exact .inr h

theorem isSymbolStart_iff {c : Char} : isSymbolStart c = true ↔ SymbolStart c := by
  rw [isSymbolStart, SymbolStart, Bool.or_eq_true, Bool.or_eq_true, isLetter_iff, or_assoc,
    decide_eq_true_eq, decide_eq_true_eq]

theorem isSymbolPart_iff {c : Char} : isSymbolPart c = true ↔ SymbolPart c := by
  rw [isSymbolPart, SymbolPart, Bool.or_eq_true, isSymbolStart_iff]
  simp only [Char.isDigit, Bool.and_eq_true, decide_eq_true_eq, Char.le_def]

theorem isSymbol_iff {cs : List Char} : isSymbol cs = true ↔ SpellsSymbol cs := by
  cases cs with
  | nil => exact iff_of_false Bool.false_ne_true fun h => nomatch h
  | cons c cs =>
    rw [isSymbol, Bool.and_eq_true, List.all_eq_true, isSymbolStart_iff]
    simp only [isSymbolPart_iff]
    constructor
    · rintro ⟨hc, hcs⟩
      exact .mk hc hcs
    · rintro ⟨hc, hcs⟩
      exact ⟨hc, hcs⟩

/-- No other character stands in a symbol. -/
theorem SpellsSymbol.notMem {cs : List Char} (h : SpellsSymbol cs) {mark : Char}
    (hmark : isSymbolPart mark = false) : mark ∉ cs := by
  obtain ⟨hstart, hparts⟩ := h
  rw [List.mem_cons]
  rintro (rfl | hmem)
  · rw [isSymbolPart, isSymbolStart_iff.mpr hstart] at hmark
    cases hmark
  · rw [isSymbolPart_iff.mpr (hparts mark hmem)] at hmark
    cases hmark

/-- A module path names a package: a letter, then letters, hyphens and
underscores, of which there is one at least, and behind them nothing, or
a slash and the rest of a line. -/
inductive NamesPackage : List Char → Prop where
  | mk {c : Char} {cs tail : List Char} : Letter c → cs ≠ [] →
      (∀ d ∈ cs, Letter d ∨ d = '-' ∨ d = '_') →
      (tail = [] ∨ ∃ line, tail = '/' :: line ∧ '\n' ∉ line) → NamesPackage (c :: (cs ++ tail))

/-- What stands behind the name of a package ends the run of its
characters, as long as a slash does. -/
theorem endsRun_of_tail {p : Char → Bool} (hslash : p '/' = false) {tail : List Char}
    (htail : tail = [] ∨ ∃ line, tail = '/' :: line ∧ '\n' ∉ line) : Text.EndsRun p tail := by
  rcases htail with rfl | ⟨line, rfl, -⟩
  · exact Text.endsRun_nil _
  · exact Text.endsRun_cons hslash _

theorem isPackagePart_iff {c : Char} :
    isPackagePart c = true ↔ Letter c ∨ c = '-' ∨ c = '_' := by
  rw [isPackagePart, Bool.or_eq_true, Bool.or_eq_true, isLetter_iff, or_assoc,
    decide_eq_true_eq, decide_eq_true_eq]

theorem isPackagePath_iff {path : List Char} :
    isPackagePath path = true ↔ NamesPackage path := by
  constructor
  · intro h
    cases path with
    | nil => exact absurd h Bool.false_ne_true
    | cons c rest =>
      rw [isPackagePath, Bool.and_eq_true, Bool.and_eq_true, isLetter_iff] at h
      obtain ⟨⟨hc, hfirst⟩, htail⟩ := h
      have hrest := List.takeWhile_append_dropWhile (p := isPackagePart) (l := rest)
      rw [← hrest]
      have hrun := List.all_eq_true.mp (List.all_takeWhile (p := isPackagePart) (l := rest))
      refine .mk hc ?_ (fun d hd => isPackagePart_iff.mp (hrun d hd)) ?_
      · cases rest with
        | nil => cases hfirst
        | cons d rest =>
          rw [List.takeWhile_cons_of_pos (by simpa using hfirst)]
          exact List.cons_ne_nil _ _
      · split at htail
        · next hnil => exact .inl hnil
        · next slash line hline =>
          rw [Bool.and_eq_true, decide_eq_true_eq, List.all_eq_true] at htail
          obtain ⟨rfl, hall⟩ := htail
          refine .inr ⟨line, hline, fun hmem => ?_⟩
          simpa using hall '\n' hmem
  · rintro @⟨c, cs, tail, hc, hne, hcs, htail⟩
    have hrun : ∀ d ∈ cs, isPackagePart d = true := fun d hd => isPackagePart_iff.mpr (hcs d hd)
    rw [isPackagePath, Bool.and_eq_true, Bool.and_eq_true, isLetter_iff,
      Text.dropWhile_run hrun (endsRun_of_tail (by decide) htail)]
    refine ⟨⟨hc, ?_⟩, ?_⟩
    · obtain ⟨d, ds, rfl⟩ := List.exists_cons_of_ne_nil hne
      simpa using hrun d List.mem_cons_self
    · rcases htail with rfl | ⟨line, rfl, hline⟩
      · rfl
      · simp only [decide_true, Bool.true_and, List.all_eq_true, decide_eq_true_eq]
        rintro d hd rfl
        exact hline hd

/-! ## 2. Forms -/

/-- The text writes the default export of a module: `symbol=module`. -/
inductive DefaultForm : String → Provider → Prop where
  | mk {symbol path : String} : SpellsSymbol symbol.toList → path ≠ "" → '=' ∉ path.toList →
      DefaultForm (symbol ++ "=" ++ path) ⟨.defaultExport, path, symbol⟩

/-- The text writes a named export of a module: `module#symbol`. -/
inductive NamedForm : String → Provider → Prop where
  | mk {symbol path : String} : path ≠ "" → '#' ∉ path.toList → SpellsSymbol symbol.toList →
      NamedForm (path ++ "#" ++ symbol) ⟨.namedExport, path, symbol⟩

/-- Two parts with a character between them. -/
theorem eq_append_of_toList {s : String} {before after : List Char} {mark : Char}
    (h : s.toList = before ++ mark :: after) :
    s = String.ofList before ++ String.singleton mark ++ String.ofList after := by
  rw [← String.toList_inj, h]
  simp

theorem readDefault?_eq_some_iff {s : String} {p : Provider} :
    readDefault? s.toList = some p ↔ DefaultForm s p := by
  constructor
  · intro h
    unfold readDefault? at h
    split at h
    · next symbol path hsplit =>
      split at h
      · next hparts =>
        obtain rfl := Option.some.inj h
        simp only [Bool.and_eq_true, List.all_eq_true, Bool.not_eq_true', List.isEmpty_eq_false_iff,
          decide_eq_true_eq] at hparts
        obtain ⟨⟨hsymbol, hne⟩, hpath⟩ := hparts
        rw [eq_append_of_toList (Text.splitAtFirst?_eq_some_iff.mp hsplit).1]
        refine .mk ?_ (mt String.ofList_eq_empty_iff.mp hne) ?_
        · rw [String.toList_ofList]
          exact isSymbol_iff.mp hsymbol
        · rw [String.toList_ofList]
          exact fun hmem => hpath '=' hmem rfl
      · cases h
    · cases h
  · rintro @⟨symbol, path, hsymbol, hne, hpath⟩
    have hsplit : Text.splitAtFirst? '=' (symbol ++ "=" ++ path).toList =
        some (symbol.toList, path.toList) :=
      Text.splitAtFirst?_eq_some_iff.mpr ⟨by simp, hsymbol.notMem (by decide)⟩
    rw [readDefault?, hsplit]
    simp only [String.ofList_toList]
    refine if_pos ?_
    simp only [Bool.and_eq_true, List.all_eq_true, Bool.not_eq_true', List.isEmpty_eq_false_iff,
      decide_eq_true_eq]
    exact ⟨⟨isSymbol_iff.mpr hsymbol, mt String.toList_eq_nil_iff.mp hne⟩,
      fun d hd heq => hpath (heq ▸ hd)⟩

theorem readNamed?_eq_some_iff {s : String} {p : Provider} :
    readNamed? s.toList = some p ↔ NamedForm s p := by
  constructor
  · intro h
    unfold readNamed? at h
    split at h
    · next path symbol hsplit =>
      split at h
      · next hparts =>
        obtain rfl := Option.some.inj h
        simp only [Bool.and_eq_true, Bool.not_eq_true', List.isEmpty_eq_false_iff] at hparts
        obtain ⟨hs, hpath⟩ := Text.splitAtFirst?_eq_some_iff.mp hsplit
        rw [eq_append_of_toList hs]
        refine .mk (mt String.ofList_eq_empty_iff.mp hparts.1) ?_ ?_
        · rw [String.toList_ofList]
          exact hpath
        · rw [String.toList_ofList]
          exact isSymbol_iff.mp hparts.2
      · cases h
    · cases h
  · rintro @⟨symbol, path, hne, hpath, hsymbol⟩
    have hsplit : Text.splitAtFirst? '#' (path ++ "#" ++ symbol).toList =
        some (path.toList, symbol.toList) :=
      Text.splitAtFirst?_eq_some_iff.mpr ⟨by simp, hpath⟩
    rw [readNamed?, hsplit]
    simp only [String.ofList_toList]
    refine if_pos ?_
    simp only [Bool.and_eq_true, Bool.not_eq_true', List.isEmpty_eq_false_iff]
    exact ⟨mt String.toList_eq_nil_iff.mp hne, isSymbol_iff.mpr hsymbol⟩

/-- What has one of the forms is the written form of the provider. -/
theorem DefaultForm.text_eq {s : String} {p : Provider} (h : DefaultForm s p) : p.text = s := by
  cases h
  rfl

theorem NamedForm.text_eq {s : String} {p : Provider} (h : NamedForm s p) : p.text = s := by
  cases h
  rfl

/-! ## 3. Reading -/

/-- A text is read as the provider that it writes; the default form goes
first. -/
theorem parse_eq_ok_iff {s : String} {p : Provider} :
    parse s = .ok p ↔ DefaultForm s p ∨ NamedForm s p ∧ ∀ q, ¬DefaultForm s q := by
  rw [← readDefault?_eq_some_iff, ← readNamed?_eq_some_iff]
  simp only [← readDefault?_eq_some_iff]
  rw [parse]
  cases hdefault : readDefault? s.toList with
  | some q => simp
  | none =>
    cases hnamed : readNamed? s.toList with
    | some q => simp
    | none => simp

/-- A text in neither form is no provider, and is named by the error. -/
theorem parse_eq_error_iff {s : String} {e : SyntaxError} :
    parse s = .error e ↔ e = ⟨s⟩ ∧ ∀ p, ¬(DefaultForm s p ∨ NamedForm s p) := by
  simp only [← readDefault?_eq_some_iff, ← readNamed?_eq_some_iff]
  rw [parse]
  cases hdefault : readDefault? s.toList with
  | some q => exact iff_of_false (by simp) fun h => h.2 q (.inl rfl)
  | none =>
    cases hnamed : readNamed? s.toList with
    | some q => exact iff_of_false (by simp) fun h => h.2 q (.inr rfl)
    | none => simp [eq_comm]

/-- What is read is written again as it was. -/
theorem text_of_parse {s : String} {p : Provider} (h : parse s = .ok p) : p.text = s := by
  rcases parse_eq_ok_iff.mp h with h | ⟨h, -⟩
  · exact h.text_eq
  · exact h.text_eq

/-- A text is read as a provider exactly if it is one of the two forms of
it, the first if it has both, and otherwise it is what the error names.
The provider has the text for its written form, so that it is read from
this text alone, and its module is a file exactly if its path names no
package. -/
theorem parse_reads_forms (s : String) :
    (∀ p, parse s = .ok p ↔ DefaultForm s p ∨ NamedForm s p ∧ ∀ q, ¬DefaultForm s q) ∧
      ((∃ p, parse s = .ok p) ↔ ∃ p, DefaultForm s p ∨ NamedForm s p) ∧
      (parse s = .error ⟨s⟩ ↔ ∀ p, ¬(DefaultForm s p ∨ NamedForm s p)) ∧
      ∀ p, parse s = .ok p →
        p.text = s ∧ parse p.text = .ok p ∧ p.isLocal = isFilePath p.modulePath ∧
          (isFilePath p.modulePath = true ↔ ¬NamesPackage p.modulePath.toList) ∧
          ∀ t, parse t = .ok p → t = s := by
  refine ⟨fun p => parse_eq_ok_iff, ?_, ?_, fun p hp => ?_⟩
  · constructor
    · rintro ⟨p, hp⟩
      exact ⟨p, (parse_eq_ok_iff.mp hp).imp_right And.left⟩
    · rintro ⟨p, hp⟩
      cases hread : parse s with
      | ok q => exact ⟨q, rfl⟩
      | error e => exact absurd hp ((parse_eq_error_iff.mp hread).2 p)
  · rw [parse_eq_error_iff]
    exact and_iff_right rfl
  · have htext := text_of_parse hp
    have hfile : isFilePath p.modulePath = true ↔ ¬NamesPackage p.modulePath.toList := by
      rw [isFilePath, Bool.not_eq_true', ← isPackagePath_iff, Bool.not_eq_true]
    refine ⟨htext, htext ▸ hp, rfl, hfile, fun t ht => ?_⟩
    rw [← htext, text_of_parse ht]

/-- A text in both forms is the default export of a file, and no other
text is. -/
theorem parse_reads_forms_both :
    parse "gen=./lib#thing" = .ok ⟨.defaultExport, "./lib#thing", "gen"⟩ ∧
      NamedForm "gen=./lib#thing" ⟨.namedExport, "gen=./lib", "thing"⟩ ∧
      ∀ t, parse t = .ok ⟨.defaultExport, "./lib#thing", "gen"⟩ → t = "gen=./lib#thing" := by
  have hsymbol : ∀ symbol : String, isSymbol symbol.toList = true → SpellsSymbol symbol.toList :=
    fun symbol => isSymbol_iff.mp
  have hdefault : DefaultForm ("gen" ++ "=" ++ "./lib#thing") _ :=
    .mk (hsymbol "gen" (by decide)) (by decide) (by decide)
  have hnamed : NamedForm ("gen=./lib" ++ "#" ++ "thing") _ :=
    .mk (by decide) (by decide) (hsymbol "thing" (by decide))
  obtain ⟨hreads, -, -, hall⟩ := parse_reads_forms "gen=./lib#thing"
  have hread := (hreads _).mpr (.inl hdefault)
  exact ⟨hread, hnamed, (hall _ hread).2.2.2.2⟩

end TableMapper.Provider
