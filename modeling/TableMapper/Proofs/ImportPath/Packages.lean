/-
TableMapper.Proofs.ImportPath.Packages — which packages are imported by
their names.

`PackageSpecifier` is the grammar of what names a module of a package.
A module path is told from a file path by a simpler pattern, and what
the pattern misses is taken for a file: the specifier is then the way
there from the directory of the importing file. `kept_iff` says that
this leaves the package alone, wherever the importing file is, exactly
if its specifier is `Plain`; a scope, a digit, a dot, a name of one
letter or a line break in the path behind it is enough to go wrong.
-/
import TableMapper.Generated.Mapper
import TableMapper.Proofs.Location.Written
import TableMapper.Proofs.Provider.WrittenForms

namespace TableMapper

/-! ## 1. Package specifiers -/

/-- What the name of a package begins with. -/
def PackageStart (c : Char) : Prop := ('a' ≤ c ∧ c ≤ 'z') ∨ ('0' ≤ c ∧ c ≤ '9')

/-- What the name of a package goes on with. -/
def PackagePart (c : Char) : Prop := PackageStart c ∨ c = '.' ∨ c = '_' ∨ c = '-'

instance : DecidablePred PackageStart := fun c =>
  inferInstanceAs (Decidable (('a' ≤ c ∧ c ≤ 'z') ∨ ('0' ≤ c ∧ c ≤ '9')))

instance : DecidablePred PackagePart := fun c =>
  inferInstanceAs (Decidable (PackageStart c ∨ c = '.' ∨ c = '_' ∨ c = '-'))

/-- The characters are the name of a package. -/
inductive SpellsPackage : List Char → Prop where
  | mk {c : Char} {cs : List Char} : PackageStart c → (∀ d ∈ cs, PackagePart d) →
      SpellsPackage (c :: cs)

theorem SpellsPackage.exists_cons {name : List Char} (h : SpellsPackage name) :
    ∃ c cs, name = c :: cs ∧ PackageStart c ∧ ∀ d ∈ cs, PackagePart d := by
  obtain ⟨hstart, hparts⟩ := h
  exact ⟨_, _, rfl, hstart, hparts⟩

/-- What names a module of a package: `name`, `@scope/name`, and either
with a path inside the package behind it. -/
structure PackageSpecifier where
  scope : Option String
  name : String
  subpath : Option String
  scope_proper : ∀ s ∈ scope, s ≠ "" ∧ '/' ∉ s.toList
  name_spelled : SpellsPackage name.toList

namespace PackageSpecifier

/-- The text before the name. -/
def opening (q : PackageSpecifier) : String :=
  match q.scope with
  | none => ""
  | some s => "@" ++ s ++ "/"

/-- The text behind the name. -/
def closing (q : PackageSpecifier) : String :=
  match q.subpath with
  | none => ""
  | some path => "/" ++ path

/-- The written form of a package specifier. -/
def text (q : PackageSpecifier) : String := q.opening ++ q.name ++ q.closing

/-- The specifier is of the kind that the pattern for module paths was
written for: two letters or more, hyphens and underscores among them,
and one line at most behind them. -/
structure Plain (q : PackageSpecifier) : Prop where
  unscoped : q.scope = none
  long : 2 ≤ q.name.toList.length
  worded : ∀ c ∈ q.name.toList, c.isDigit = false ∧ c ≠ '.'
  oneLine : ∀ path ∈ q.subpath, '\n' ∉ path.toList

end PackageSpecifier

/-! ## 2. The pattern for module paths -/

theorem isDigit_of_lower {c : Char} (h : 'a' ≤ c ∧ c ≤ 'z') : c.isDigit = false := by
  have hnine : ¬c ≤ '9' := fun h9 => absurd (Char.le_trans h.1 h9) (by decide)
  rw [Char.isDigit, Bool.and_eq_false_iff, decide_eq_false_iff_not, decide_eq_false_iff_not]
  exact .inr hnine

theorem isDigit_of_range {c : Char} (h : '0' ≤ c ∧ c ≤ '9') : c.isDigit = true := by
  simpa [Char.isDigit, Char.le_def] using h

theorem not_letter_of_range {c : Char} (h : '0' ≤ c ∧ c ≤ '9') : ¬Provider.Letter c := by
  rintro (⟨ha, -⟩ | ⟨ha, -⟩ | rfl | rfl)
  · exact absurd (Char.le_trans ha h.2) (by decide)
  · exact absurd (Char.le_trans ha h.2) (by decide)
  · exact absurd h (by decide)
  · exact absurd h (by decide)

theorem PackageStart.letter_iff {c : Char} (h : PackageStart c) :
    Provider.Letter c ↔ c.isDigit = false := by
  rcases h with h | h
  · exact iff_of_true (.inl h) (isDigit_of_lower h)
  · exact iff_of_false (not_letter_of_range h) (by simp [isDigit_of_range h])

/-- Of the characters of a package name, the pattern takes all but
digits and dots. -/
theorem PackagePart.pattern_iff {c : Char} (h : PackagePart c) :
    (Provider.Letter c ∨ c = '-' ∨ c = '_') ↔ c.isDigit = false ∧ c ≠ '.' := by
  rcases h with h | rfl | rfl | rfl
  · have hne : ∀ mark, ¬PackageStart mark → c ≠ mark := fun mark hmark heq => hmark (heq ▸ h)
    simp [h.letter_iff, hne '-' (by decide), hne '_' (by decide), hne '.' (by decide)]
  · decide
  · decide
  · decide

/-- No name of a package goes on behind a slash. -/
theorem PackagePart.ne_slash {c : Char} (h : PackagePart c) : decide (c ≠ '/') = true := by
  rw [decide_eq_true_eq]
  rintro rfl
  exact absurd h (by decide)

/-- Where a text is split at its first slash, the pattern is split
there, too. -/
theorem namesPackage_append_iff {c : Char} {cs tail : List Char}
    (hrun : ∀ d ∈ cs, decide (d ≠ '/') = true)
    (hends : Text.EndsRun (fun d => decide (d ≠ '/')) tail) :
    Provider.NamesPackage (c :: (cs ++ tail)) ↔ Provider.Letter c ∧ cs ≠ [] ∧
      (∀ d ∈ cs, Provider.Letter d ∨ d = '-' ∨ d = '_') ∧
        (tail = [] ∨ ∃ line, tail = '/' :: line ∧ '\n' ∉ line) := by
  constructor
  · intro h
    generalize hrest : cs ++ tail = rest at h
    obtain @⟨_, run, line, hletter, hne, hpattern, hline⟩ := h
    have hrun' : ∀ d ∈ run, decide (d ≠ '/') = true := by
      intro d hd
      rw [decide_eq_true_eq]
      rintro rfl
      exact absurd (hpattern '/' hd) (by decide)
    obtain ⟨rfl, rfl⟩ := Text.append_run_inj hrest hrun hrun' hends
      (Provider.endsRun_of_tail (by decide) hline)
    exact ⟨hletter, hne, hpattern, hline⟩
  · rintro ⟨hletter, hne, hpattern, hline⟩
    exact .mk hletter hne hpattern hline

namespace PackageSpecifier

theorem endsRun_closing (q : PackageSpecifier) :
    Text.EndsRun (fun c => decide (c ≠ '/')) q.closing.toList := by
  unfold closing
  cases q.subpath with
  | none => exact Text.endsRun_nil _
  | some path =>
    rw [String.toList_append]
    exact Text.endsRun_cons (by decide) _

/-- What stands behind the name is what the pattern takes there, if it
has no line break. -/
theorem closing_iff (q : PackageSpecifier) :
    (q.closing.toList = [] ∨ ∃ line, q.closing.toList = '/' :: line ∧ '\n' ∉ line) ↔
      ∀ path ∈ q.subpath, '\n' ∉ path.toList := by
  unfold closing
  cases q.subpath with
  | none => simp
  | some path => simp

/-- The pattern takes a scope for no package. -/
theorem not_namesPackage_of_scope {q : PackageSpecifier} {s : String} (h : q.scope = some s) :
    ¬Provider.NamesPackage q.text.toList := by
  have htext : ∃ rest, q.text.toList = '@' :: rest := by
    simp [text, opening, h]
  obtain ⟨rest, hrest⟩ := htext
  rw [hrest]
  rintro ⟨hletter, -⟩
  exact absurd hletter (by decide)

/-- The pattern for module paths takes the plain specifiers, and no
others. -/
theorem isPackagePath_iff_plain (q : PackageSpecifier) :
    Provider.isPackagePath q.text.toList = true ↔ q.Plain := by
  rw [Provider.isPackagePath_iff]
  cases hscope : q.scope with
  | some s =>
    refine iff_of_false (not_namesPackage_of_scope hscope) fun h => ?_
    rw [h.unscoped] at hscope
    cases hscope
  | none =>
    have htext : q.text.toList = q.name.toList ++ q.closing.toList := by
      simp [text, opening, hscope]
    obtain ⟨c, cs, hname, hstart, hparts⟩ := q.name_spelled.exists_cons
    have hdot : c ≠ '.' := by
      rintro rfl
      exact absurd hstart (by decide)
    rw [htext, hname, List.cons_append, namesPackage_append_iff
      (fun d hd => (hparts d hd).ne_slash) q.endsRun_closing, hstart.letter_iff, q.closing_iff]
    constructor
    · rintro ⟨hletter, hne, hpattern, hline⟩
      refine ⟨hscope, ?_, ?_, hline⟩
      · rw [hname, List.length_cons]
        have := List.length_pos_iff.mpr hne
        omega
      · rw [hname, List.forall_mem_cons]
        exact ⟨⟨hletter, hdot⟩, fun d hd => (hparts d hd).pattern_iff.mp (hpattern d hd)⟩
    · rintro ⟨-, hlong, hworded, hline⟩
      rw [hname, List.length_cons] at hlong
      rw [hname, List.forall_mem_cons] at hworded
      refine ⟨hworded.1.1, ?_, ?_, hline⟩
      · rintro rfl
        simp at hlong
      · exact fun d hd => (hparts d hd).pattern_iff.mpr (hworded.2 d hd)

end PackageSpecifier

/-! ## 3. Files inside a target -/

namespace Location

/-- A path whose first part is a name or `..` goes on from where it is
seen. -/
theorem ofString_of_parts {path : String} {first : List Char} {rest : List (List Char)}
    (h : Text.splitOn '/' path.toList = first :: rest) (hfirst : first ≠ [])
    (hdot : first ≠ ['.']) :
    ofString path = ⟨false, (first :: rest).filterMap stepOf?⟩ := by
  unfold ofString
  rw [h]
  split
  · next heq => exact absurd (List.cons.inj heq).1 hfirst
  · next heq => exact absurd (List.cons.inj heq).1 hdot
  · rfl

/-- A name behind a path is one more step. -/
theorem ofString_child {path name : String} (hpath : path ≠ "") (hname : ProperName name) :
    ofString (path ++ "/" ++ name) =
      ⟨(ofString path).rooted, (ofString path).steps ++ [.name name]⟩ := by
  have htext : (path ++ "/" ++ name).toList = path.toList ++ '/' :: name.toList := by simp
  have hsplit : Text.splitOn '/' (path ++ "/" ++ name).toList =
      Text.splitOn '/' path.toList ++ [name.toList] := by
    rw [htext, Text.splitOn_append_separator, Text.splitOn_of_notMem hname.1]
  have hlast : ∀ parts : List (List Char), (parts ++ [name.toList]).filterMap stepOf? =
      parts.filterMap stepOf? ++ [.name name] := fun parts => by
    rw [List.filterMap_append, List.filterMap_cons, hname.2, List.filterMap_nil]
  obtain ⟨first, rest, hparts⟩ := List.exists_cons_of_ne_nil (Text.splitOn_ne_nil '/' path.toList)
  rw [hparts] at hsplit
  by_cases hnil : first = []
  · subst hnil
    cases rest with
    | nil =>
      have hne := mt String.toList_eq_nil_iff.mp hpath
      exact absurd hparts (Text.splitOn_ne_singleton_nil hne)
    | cons second rest =>
      unfold ofString
      rw [hsplit, hparts]
      exact congrArg (Location.mk true) (hlast (second :: rest))
  · by_cases hdot : first = ['.']
    · subst hdot
      unfold ofString
      rw [hsplit, hparts]
      exact congrArg (fun steps => Location.mk false (.here :: steps)) (hlast rest)
    · rw [ofString_of_parts hsplit hnil hdot, ofString_of_parts hparts hnil hdot]
      exact congrArg (Location.mk false) (hlast (first :: rest))

theorem dropCommon_self : ∀ steps : List Step, dropCommon steps steps = ([], [])
  | [] => rfl
  | step :: steps => by rw [dropCommon, if_pos rfl, dropCommon_self steps]

/-- The way from a directory to itself has no steps. -/
theorem relative_self (l : Location) : l.relative l = ⟨false, []⟩ := by
  obtain ⟨rooted, steps⟩ := l
  cases rooted <;> simp [relative, dropCommon_self]

/-- What is one step further is one step further in normal form, too. -/
theorem parent?_normalize_join (base : Location) (rooted : Bool) (steps : List Step)
    (name : String) :
    (base.join ⟨rooted, steps ++ [.name name]⟩).normalize.parent? =
      some (base.join ⟨rooted, steps⟩).normalize := by
  have hjoin : base.join ⟨rooted, steps ++ [.name name]⟩ =
      ⟨(base.join ⟨rooted, steps⟩).rooted, (base.join ⟨rooted, steps⟩).steps ++ [.name name]⟩ := by
    unfold join
    split
    · rfl
    · split
      · rfl
      · simp
  rw [hjoin]
  simp [normalize, parent?, walk]
end Location

namespace ImportPath

open Location

/-- No step leads from a file inside a target to the target. -/
theorem way_of_inside (base : Location) {target name : String} (htarget : target ≠ "")
    (hname : ProperName name) : way base (target ++ "/" ++ name) target = ⟨false, []⟩ := by
  simp only [way, ofString_child htarget hname, parent?_normalize_join, Option.getD_some]
  exact relative_self _

/-- A file inside a file path refers to it as to its own directory. -/
theorem resolve_of_inside (base : Location) {target name : String} (htarget : target ≠ "")
    (hname : ProperName name) (hfile : Provider.isFilePath target = true) :
    resolve base (target ++ "/" ++ name) target = "./" := by
  rw [resolve, if_pos hfile, way_of_inside base htarget hname]
  decide
end ImportPath

/-! ## 4. Packages that keep their names -/

/-- The line that imports the symbol of a provider from the module of
that specifier. -/
def Provider.importFrom (p : Provider) (specifier : String) : String :=
  match p.form with
  | .defaultExport => "import " ++ p.symbol ++ " = require('" ++ specifier ++ "');"
  | .namedExport => "import \x7b " ++ p.symbol ++ " \x7d from '" ++ specifier ++ "';"

theorem Provider.importFrom_inj {p : Provider} {s t : String} :
    p.importFrom s = p.importFrom t ↔ s = t := by
  refine ⟨fun h => ?_, congrArg p.importFrom⟩
  have hlist := congrArg String.toList h
  unfold importFrom at hlist
  rw [← String.toList_inj]
  cases hform : p.form <;> simpa [hform] using hlist

theorem Mapper.providerImport_eq (m : Mapper) (base : Location) (p : Provider) :
    m.providerImport base p = p.importFrom (m.providerSpecifier base p) := by
  unfold providerImport Provider.importFrom
  cases p.form <;> rfl

/-- The specifier of a provider is what the module path resolves to,
whether the module is a file or not. -/
theorem Mapper.providerSpecifier_eq (m : Mapper) (base : Location) (p : Provider) :
    m.providerSpecifier base p = ImportPath.resolve base m.outPath p.modulePath := by
  rw [providerSpecifier, ImportPath.resolve, Provider.isLocal]
  split <;> rfl

namespace PackageSpecifier

theorem isFilePath_eq_false_iff (q : PackageSpecifier) :
    Provider.isFilePath q.text = false ↔ q.Plain := by
  rw [Provider.isFilePath, Bool.not_eq_false', isPackagePath_iff_plain]

theorem text_ne_empty (q : PackageSpecifier) : q.text ≠ "" := by
  obtain ⟨c, cs, hname, -⟩ := q.name_spelled.exists_cons
  intro h
  have := congrArg String.toList h
  simp [text, hname] at this

/-- No specifier of a package is the relative path of a directory. -/
theorem text_ne_here (q : PackageSpecifier) : q.text ≠ "./" := by
  obtain ⟨c, cs, hname, hstart, -⟩ := q.name_spelled.exists_cons
  intro h
  have hlist := congrArg String.toList h
  cases hscope : q.scope with
  | some s => simp [text, opening, hscope] at hlist
  | none =>
    have hc : c = '.' := by
      simp [text, opening, hscope, hname] at hlist
      exact hlist.1
    rw [hc] at hstart
    exact absurd hstart (by decide)

/-- Every file resolves the package to itself exactly if the specifier
is plain: otherwise a file inside the path that the specifier is taken
for does not. -/
theorem resolve_eq_iff (q : PackageSpecifier) (base : Location) :
    (∀ origin, ImportPath.resolve base origin q.text = q.text) ↔ q.Plain := by
  rw [← isFilePath_eq_false_iff]
  constructor
  · intro h
    rw [← Bool.not_eq_true]
    intro hfile
    have hname : Location.ProperName "index" := ⟨by decide, rfl⟩
    have hinside := ImportPath.resolve_of_inside base q.text_ne_empty hname hfile
    rw [h] at hinside
    exact q.text_ne_here hinside
  · intro h origin
    rw [ImportPath.resolve, h]
    rfl

/-- Every file resolves the specifier of a package to itself exactly if
the specifier is plain. So a provider that is read with this module path
is taken for one of a package, and is imported under this path from
wherever the mapper is generated to, exactly in that case; and the path
can be written behind every symbol, unless it holds an equals sign. -/
theorem kept_iff (q : PackageSpecifier) (base : Location) (m : Mapper) :
    ((∀ outPath, ImportPath.resolve base outPath q.text = q.text) ↔ q.Plain) ∧
      (∀ s p, Provider.parse s = .ok p → p.modulePath = q.text →
        (p.isLocal = false ↔ q.Plain) ∧
          ((∀ outPath, Mapper.providerImport { m with outPath } base p = p.importFrom q.text) ↔
            q.Plain)) ∧
      ∀ symbol, Provider.SpellsSymbol symbol.toList → '=' ∉ q.text.toList →
        Provider.parse (symbol ++ "=" ++ q.text) = .ok ⟨.defaultExport, q.text, symbol⟩ := by
  refine ⟨q.resolve_eq_iff base, fun s p _ hpath => ⟨?_, ?_⟩, fun symbol hsymbol hequals => ?_⟩
  · rw [Provider.isLocal, hpath, isFilePath_eq_false_iff]
  · simp only [Mapper.providerImport_eq, Mapper.providerSpecifier_eq, hpath,
      Provider.importFrom_inj]
    exact q.resolve_eq_iff base
  · exact Provider.parse_eq_ok_iff.mpr (.inl (.mk hsymbol q.text_ne_empty hequals))

/-- A digit in the name is enough: the package is imported as a file
beside the directory of the mapper. -/
theorem base64_not_kept :
    ∃ q : PackageSpecifier, q.text = "base64-js" ∧ ¬q.Plain ∧
      (∃ p, Provider.parse "base64=base64-js" = .ok p ∧ p.modulePath = q.text ∧ p.isLocal = true ∧
        ∀ (base : Location) (m : Mapper), ∃ outPath,
          Mapper.providerImport { m with outPath } base p ≠ p.importFrom q.text) ∧
      ImportPath.resolve ⟨true, [.name "project"]⟩ "./src/UserMapper.ts" q.text =
        "../base64-js" := by
  have hparts : "ase64-js".toList.all (fun d => decide (PackagePart d)) = true := by decide
  have hspelled : SpellsPackage "base64-js".toList := .mk (by decide) fun d hd =>
    of_decide_eq_true (List.all_eq_true.mp hparts d hd)
  let q : PackageSpecifier := ⟨none, "base64-js", none, by simp, hspelled⟩
  let p : Provider := ⟨.defaultExport, "base64-js", "base64"⟩
  have hplain : ¬q.Plain := fun h =>
    absurd (h.worded '6' (show '6' ∈ "base64-js".toList by decide)) (by decide)
  have hread : Provider.parse "base64=base64-js" = .ok p := by rfl
  have hresolved : ImportPath.resolve ⟨true, [.name "project"]⟩ "./src/UserMapper.ts" "base64-js" =
      "../base64-js" := by decide
  refine ⟨q, rfl, hplain, ⟨p, hread, rfl, by decide, fun base m => ?_⟩, hresolved⟩
  obtain ⟨-, hreads, -⟩ := q.kept_iff base m
  exact Classical.not_forall.mp (mt (hreads _ p hread rfl).2.mp hplain)

end PackageSpecifier

end TableMapper
