/-
TableMapper.Proofs.ImportPath.Way — the import path of a file is the way
to it.

The way between two files is a path without `.`: some steps up and then
names, or at the root one step up too many. Followed from the directory
of the importing file it leads to the target (`follow_way`), read again
from its written form it is itself (`ofString_written`), and the import
path is that form but for an extension at the end and `./` in front
(`resolve_follows`). It does not matter that the normal form of a path
which climbs above the root may keep a step up: on the way back that
step counts as one directory, and from the root it leads nowhere.
-/
import TableMapper.Proofs.ImportPath.Specifier

namespace TableMapper.ImportPath

open Location

/-! ## 1. Ways -/

/-- Steps that are a relative path as it is written: no step stays, and
each name is a single step. -/
structure IsWay (steps : List Step) : Prop where
  moves : .here ∉ steps
  proper : ProperSteps steps

/-- The way between two files consists of written steps, and leads from
the directory of the first to the second. -/
theorem follow_way {base : Location} (hb : base.rooted = true) (hproper : ProperSteps base.steps)
    (origin target : String) :
    ∃ steps, way base origin target = ⟨false, steps⟩ ∧ IsWay steps ∧
      follow (placeFrom (follow [] base.steps) (ofString origin)).dropLast steps =
        placeFrom (follow [] base.steps) (ofString target) := by
  obtain ⟨common, back, forth, hback, hforth, horigin, htarget, hsteps, hway⟩ :=
    way_eq hb origin target
  have hnames : ProperSteps (common ++ forth) := by
    rw [hsteps]
    exact properSteps_normalize (properSteps_join hproper (properSteps_ofString target))
  refine ⟨_, hway, ⟨?_, ?_⟩, ?_⟩
  · intro hhere
    rcases List.mem_append.mp hhere with hhere | hhere
    · exact absurd (List.eq_of_mem_replicate hhere) (by simp)
    · exact hforth.here_notMem (List.mem_append_right _ hhere)
  · exact (hnames.of_subset fun _ h => List.mem_append_right _ h).behind_ups back.length
  · rw [horigin, htarget, follow_append, follow_back hback, follow_append]

/-! ## 2. Written ways -/

/-- A step of a way is written as neither nothing nor a dot. -/
theorem IsWay.text_ne {steps : List Step} (h : IsWay steps) {step : Step} (hmem : step ∈ steps) :
    step.text ≠ "" ∧ step.text ≠ "." := by
  cases step with
  | here => exact absurd hmem h.moves
  | up => decide
  | name s =>
    have hs := (h.proper s hmem).2
    constructor
    · rintro (rfl : s = "")
      exact absurd hs (by decide)
    · rintro (rfl : s = ".")
      exact absurd hs (by decide)

/-- A way is read back from its written form. -/
theorem ofString_written {steps : List Step} (h : IsWay steps) :
    ofString (Text.joinWith "/" (steps.map Step.text)) = ⟨false, steps⟩ := by
  cases steps with
  | nil => rfl
  | cons step rest =>
    obtain ⟨hempty, hdot⟩ := h.text_ne List.mem_cons_self
    have hsplit := Text.splitOn_joinWith_slash (List.cons_ne_nil step.text (rest.map Step.text))
      (slash_notMem_text h.proper)
    have hread := filterMap_stepOf?_text h.proper h.moves
    rw [List.map_cons] at hread ⊢
    unfold ofString
    rw [hsplit, List.map_cons]
    split
    · next heq => exact absurd (String.toList_injective (List.cons.inj heq).1) hempty
    · next heq => exact absurd (String.toList_injective (List.cons.inj heq).1) hdot
    · rw [← List.map_cons, List.filterMap_map]
      exact congrArg (Location.mk false) hread

/-- A file name and the name that is imported for it: without `.js` or
`.ts` at the end if something stands before that, and else as it is. -/
inductive Shortened : String → String → Prop where
  | extension {stem ending : String} : stem ≠ "" → ending ∈ [".js", ".ts"] →
      Shortened (stem ++ ending) stem
  | whole {name : String} :
      (∀ stem ending, ending ∈ [".js", ".ts"] → name = stem ++ ending → stem = "") →
      Shortened name name

theorem shortened_withoutExtension (name : String) : Shortened name (withoutExtension name) := by
  have hends : ∀ (ending : List Char) {c : Char} {cs : List Char},
      name.toList.reverse = ending.reverse ++ c :: cs →
        name = String.ofList (c :: cs).reverse ++ String.ofList ending := by
    intro ending c cs h
    apply String.toList_injective
    rw [List.reverse_eq_iff.mp h]
    simp
  unfold withoutExtension
  split
  · next c cs h =>
    rw [hends ['.', 't', 's'] h]
    exact .extension (by simp) (by decide)
  · next c cs h =>
    rw [hends ['.', 'j', 's'] h]
    exact .extension (by simp) (by decide)
  · next hts hjs =>
    refine .whole fun stem ending hending hname => ?_
    cases hstem : stem.toList.reverse with
    | nil => exact String.toList_eq_nil_iff.mp (List.reverse_eq_nil_iff.mp hstem)
    | cons c cs =>
      have hreverse : name.toList.reverse = ending.toList.reverse ++ c :: cs := by
        rw [hname, String.toList_append, List.reverse_append, hstem]
      simp only [List.mem_cons, List.not_mem_nil, or_false] at hending
      rcases hending with rfl | rfl
      · exact absurd hreverse (hjs c cs)
      · exact absurd hreverse (hts c cs)

/-- The text of an import path for a way: its parts between slashes, the
last of them shortened, with `./` in front of a single part or of
none. -/
def IsPathOf (steps : List Step) (path : String) : Prop :=
  steps = [] ∧ path = "./" ∨ ∃ front last short,
    steps.map Step.text = front ++ [last] ∧ Shortened last short ∧
      path = (if front = [] then "./" else "") ++ Text.joinWith "/" (front ++ [short])

theorem isPathOf_specifier (steps : List Step) : IsPathOf steps (specifier ⟨false, steps⟩) := by
  rcases List.eq_nil_or_concat steps with rfl | ⟨front, last, rfl⟩
  · exact .inl ⟨rfl, rfl⟩
  · rw [List.concat_eq_append]
    refine .inr ⟨front.map Step.text, last.text, _, by simp, shortened_withoutExtension _, ?_⟩
    have hparts : specifierParts ⟨false, front ++ [last]⟩ =
        front.map Step.text ++ [withoutExtension last.text] := by
      simp [specifierParts, mapLast_append_singleton]
    rw [specifier_eq rfl, hparts]
    cases front with
    | nil => rfl
    | cons step rest => simp

/-- The import path for a longer way does not begin with `./`. -/
theorem IsPathOf.lead_iff {steps : List Step} {path : String} (h : IsPathOf steps path)
    (hway : IsWay steps) : (∃ rest, path = "./" ++ rest) ↔ steps.length ≤ 1 := by
  rcases h with ⟨rfl, rfl⟩ | ⟨front, last, short, hsteps, -, rfl⟩
  · exact ⟨fun _ => Nat.zero_le 1, fun _ => ⟨"", rfl⟩⟩
  · have hlength := congrArg List.length hsteps
    rw [List.length_map, List.length_append, List.length_singleton] at hlength
    cases front with
    | nil => exact ⟨fun _ => by simp [hlength], fun _ => ⟨_, rfl⟩⟩
    | cons first rest =>
      rw [hlength, List.length_cons]
      refine ⟨?_, fun h => absurd h (by omega)⟩
      rintro ⟨tail, htail⟩
      exfalso
      have hmem : first ∈ steps.map Step.text := by simp [hsteps]
      have hslash := slash_notMem_text hway.proper first hmem
      obtain ⟨step, hstep, rfl⟩ := List.mem_map.mp hmem
      rw [if_neg (List.cons_ne_nil _ _), String.empty_append, List.cons_append,
        Text.joinWith.eq_3 _ _ _ (by simp)] at htail
      have hlist := congrArg String.toList htail
      rw [String.toList_append, String.toList_append, List.append_assoc] at hlist
      -- both sides are cut at their first slash
      have hcut := Text.splitAtFirst?_eq_some_iff.mpr ⟨hlist.symm, hslash⟩
      have hdots : ("./" ++ tail).toList = ['.'] ++ '/' :: tail.toList := String.toList_append
      have hboth := hcut.symm.trans
        (Text.splitAtFirst?_eq_some_iff.mpr ⟨hdots, (by decide : '/' ∉ ['.'])⟩)
      exact (hway.text_ne hstep).2 (String.toList_injective (Prod.mk.inj (Option.some.inj hboth)).1)

/-! ## 3. Import paths -/

/-- The import path of a file is the text of a way, and the way leads to
the file from the directory of the importing one. -/
theorem resolve_follows (workingDirectory origin target : String)
    (hbase : (ofString workingDirectory).rooted = true)
    (htarget : Provider.isFilePath target = true) :
    ∃ steps, IsWay steps ∧
      ofString (Text.joinWith "/" (steps.map Step.text)) = ⟨false, steps⟩ ∧
      follow (placeFrom (placeFrom [] (ofString workingDirectory)) (ofString origin)).dropLast
        steps = placeFrom (placeFrom [] (ofString workingDirectory)) (ofString target) ∧
      IsPathOf steps (resolve (ofString workingDirectory) origin target) ∧
      ((∃ rest, resolve (ofString workingDirectory) origin target = "./" ++ rest) ↔
        steps.length ≤ 1) := by
  have hplace : placeFrom [] (ofString workingDirectory) =
      follow [] (ofString workingDirectory).steps := by
    rw [placeFrom, if_pos hbase]
  obtain ⟨steps, hsteps, hway, hfollow⟩ :=
    follow_way hbase (properSteps_ofString workingDirectory) origin target
  have hpath : IsPathOf steps (resolve (ofString workingDirectory) origin target) := by
    rw [resolve, if_pos htarget, hsteps]
    exact isPathOf_specifier steps
  rw [hplace]
  exact ⟨steps, hway, ofString_written hway, hfollow, hpath, hpath.lead_iff hway⟩

/-- Two files above the working directory, of which one is said to be
above the root: the way goes up once more than there are directories. -/
theorem resolve_follows_above_root :
    (ofString "/work").rooted = true ∧ Provider.isFilePath "/lib//ids.ts/" = true ∧
      ∃ steps, IsWay steps ∧ follow ["maps"] steps = ["lib", "ids.ts"] ∧
        IsPathOf steps "../../lib/ids" := by
  have hbase : (ofString "/work").rooted = true := by decide
  have htarget : Provider.isFilePath "/lib//ids.ts/" = true := by decide
  have hpath : resolve (ofString "/work") "../../maps/./Mapper.ts" "/lib//ids.ts/" =
      "../../lib/ids" := by decide
  obtain ⟨steps, hway, -, hfollow, hsteps, -⟩ :=
    resolve_follows "/work" "../../maps/./Mapper.ts" "/lib//ids.ts/" hbase htarget
  exact ⟨hbase, htarget, steps, hway, hfollow, hpath ▸ hsteps⟩

end TableMapper.ImportPath
