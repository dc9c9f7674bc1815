/-
TableMapper.Proofs.ImportPath.Specifier — the import specifiers of a
mapper file lead to the files they are meant for.

`Reaches` is the property of one specifier: read again as a path and
followed from the directory of the importing file, it leads to the
module, which is the target without an extension that the module
resolver supplies. `resolve_reaches` proves it of every target that is
a file path, and the theorem about mappers is this for each of their
imports.
-/
import TableMapper.Generated.Mapper
import TableMapper.Proofs.Location.Written

namespace TableMapper.ImportPath

open Location

/-! ## 1. Extensions -/

/-- A file name without the extension `.ts` or `.js`; a name that is
nothing but the extension keeps it. -/
def withoutExtension (name : String) : String :=
  match name.toList.reverse with
  | 's' :: 't' :: '.' :: c :: cs => String.ofList (c :: cs).reverse
  | 's' :: 'j' :: '.' :: c :: cs => String.ofList (c :: cs).reverse
  | _ => name

/-- The module of a file at a place: the way its name leads on without
the extension. -/
def moduleAt (file : List String) : List String :=
  match file.getLast? with
  | none => []
  | some name => placeFrom file.dropLast (ofString (withoutExtension name))

theorem stem_of_reverse {name : String} (extension : List Char) {rest : List Char}
    (hdot : '.' ∉ extension) (h : name.toList.reverse = extension ++ '.' :: rest) :
    stem name = if !rest.isEmpty && inferredExtensions.contains extension.reverse then
      String.ofList rest.reverse else name := by
  have hsplit : Text.splitAtFirst? '.' name.toList.reverse = some (extension, rest) :=
    Text.splitAtFirst?_eq_some_iff.mpr ⟨h, hdot⟩
  rw [stem, hsplit]

/-- The stem of a name is the name without its extension. -/
theorem stem_eq_withoutExtension (name : String) : stem name = withoutExtension name := by
  unfold withoutExtension
  split
  · next c cs h =>
    rw [stem_of_reverse ['s', 't'] (by decide) h]
    rfl
  · next c cs h =>
    rw [stem_of_reverse ['s', 'j'] (by decide) h]
    rfl
  · next hts hjs =>
    cases hsplit : Text.splitAtFirst? '.' name.toList.reverse with
    | none => rw [stem, hsplit]
    | some parts =>
      obtain ⟨extension, rest⟩ := parts
      obtain ⟨hrev, hdot⟩ := Text.splitAtFirst?_eq_some_iff.mp hsplit
      rw [stem_of_reverse extension hdot hrev, if_neg]
      intro hinferred
      obtain ⟨hrest, hext⟩ := Bool.and_eq_true_iff.mp hinferred
      cases rest with
      | nil => exact absurd hrest (by simp)
      | cons c cs =>
        have hmem : extension.reverse = ['j', 's'] ∨ extension.reverse = ['t', 's'] := by
          simpa [inferredExtensions] using hext
        rcases hmem with he | he
        · rw [List.reverse_eq_iff.mp he] at hrev
          exact hjs c cs hrev
        · rw [List.reverse_eq_iff.mp he] at hrev
          exact hts c cs hrev

/-- What a part of a written path is: it holds no slash, and is not
empty. -/
def WrittenPart (part : String) : Prop := '/' ∉ part.toList ∧ part ≠ ""

theorem WrittenPart.withoutExtension {name : String} (h : WrittenPart name) :
    WrittenPart (withoutExtension name) := by
  have hrev : '/' ∉ name.toList.reverse := by simpa using h.1
  unfold ImportPath.withoutExtension
  split
  · next hname =>
    rw [hname] at hrev
    exact ⟨by simp_all, by simp⟩
  · next hname =>
    rw [hname] at hrev
    exact ⟨by simp_all, by simp⟩
  · exact h

theorem writtenPart_of_properName {s : String} (h : ProperName s) : WrittenPart s := by
  refine ⟨h.1, ?_⟩
  rintro rfl
  exact absurd h.2 (by decide)

theorem writtenPart_text {steps : List Step} (h : ProperSteps steps) :
    ∀ part ∈ steps.map Step.text, WrittenPart part := by
  intro part hp
  obtain ⟨step, hm, rfl⟩ := List.mem_map.mp hp
  cases step with
  | here => exact ⟨by decide, by decide⟩
  | up => exact ⟨by decide, by decide⟩
  | name s => exact writtenPart_of_properName (h s hm)

/-- A single part is a path that leads where its step leads. -/
theorem placeFrom_part {part : String} (h : WrittenPart part) (place : List String) :
    placeFrom place (ofString part) =
      follow place ([part].filterMap fun part => stepOf? part.toList) :=
  follow_ofString_joinWith [part] (by simpa using h.2) (List.cons_ne_nil _ _) (by simpa using h.1)
    place

/-- A file whose name has no extension to lose is its own module. -/
theorem moduleAt_eq_self {file : List String} (hproper : ∀ name ∈ file, ProperName name)
    (hkept : ∀ name ∈ file.getLast?, withoutExtension name = name) : moduleAt file = file := by
  rcases List.eq_nil_or_concat file with rfl | ⟨front, name, rfl⟩
  · rfl
  · rw [List.concat_eq_append] at hproper hkept ⊢
    have hname := hproper name (by simp)
    have hstep : [name].filterMap (fun part => stepOf? part.toList) = [.name name] := by
      rw [List.filterMap_cons, hname.2, List.filterMap_nil]
    unfold moduleAt
    rw [List.getLast?_concat, List.dropLast_concat]
    show placeFrom front (ofString (withoutExtension name)) = _
    rw [hkept name (by simp), placeFrom_part (writtenPart_of_properName hname), hstep]
    rfl

/-! ## 2. The last part -/

theorem mapLast_append_singleton (f : String → String) (last : String) :
    ∀ parts : List String, mapLast f (parts ++ [last]) = parts ++ [f last]
  | [] => rfl
  | [_] => rfl
  | part :: next :: parts => by
    have ih := mapLast_append_singleton f last (next :: parts)
    rw [List.cons_append, List.cons_append] at ih
    simp [mapLast, ih]

theorem length_mapLast (f : String → String) :
    ∀ parts : List String, (mapLast f parts).length = parts.length
  | [] => rfl
  | [_] => rfl
  | part :: next :: parts => by
    simp [mapLast, length_mapLast f (next :: parts)]

theorem mapLast_stem : ∀ parts : List String, mapLast stem parts = mapLast withoutExtension parts
  | [] => rfl
  | [last] => by rw [mapLast, mapLast, stem_eq_withoutExtension]
  | part :: next :: parts => by
    simp [mapLast, mapLast_stem (next :: parts)]

/-- Taking the extension from the last part leaves written parts. -/
theorem writtenPart_mapLast {parts : List String} (h : ∀ part ∈ parts, WrittenPart part) :
    ∀ part ∈ mapLast withoutExtension parts, WrittenPart part := by
  rcases List.eq_nil_or_concat parts with rfl | ⟨front, last, rfl⟩
  · simp [mapLast]
  · rw [List.concat_eq_append] at h ⊢
    intro part hpart
    rw [mapLast_append_singleton] at hpart
    rcases List.mem_append.mp hpart with hp | hp
    · exact h part (List.mem_append_left _ hp)
    · rw [List.mem_singleton.mp hp]
      exact (h last (by simp)).withoutExtension

/-- The parts of the specifier for a way. -/
def specifierParts (way : Location) : List String :=
  mapLast withoutExtension (way.steps.map Step.text)

theorem specifier_eq {way : Location} (hrooted : way.rooted = false) :
    specifier way = if 1 < (specifierParts way).length
      then Text.joinWith "/" (specifierParts way)
      else "./" ++ Text.joinWith "/" (specifierParts way) := by
  have hparts : mapLast stem way.segments = specifierParts way := by
    rw [mapLast_stem, segments, hrooted]
    rfl
  unfold specifier
  rw [hparts]

/-- A specifier, read again, leads where the parts of the way lead once
the last of them has lost its extension. -/
theorem follow_specifier {way : Location} (hrooted : way.rooted = false)
    (hproper : ProperSteps way.steps) (place : List String) :
    placeFrom place (ofString (specifier way)) =
      follow place ((specifierParts way).filterMap fun part => stepOf? part.toList) := by
  have hwritten := writtenPart_mapLast (writtenPart_text hproper)
  rw [specifier_eq hrooted]
  unfold specifierParts
  generalize mapLast withoutExtension (way.steps.map Step.text) = parts at hwritten
  match parts, hwritten with
  | [], _ => rfl
  | [part], h =>
    -- the leading dot is a part of its own, which leads nowhere
    have hslash : ∀ p ∈ [".", part], '/' ∉ p.toList := by
      simpa using (h part List.mem_cons_self).1
    exact follow_ofString_joinWith [".", part] (by simp) (by simp) hslash place
  | part :: next :: parts, h =>
    rw [if_pos (by simp)]
    refine follow_ofString_joinWith _ ?_ (by simp) (fun p hp => (h p hp).1) place
    simpa using (h part List.mem_cons_self).2

/-! ## 3. Specifiers that reach -/

/-- A specifier in the file `origin` leads to the module `target`, both
seen from the directory `directory`: it leads there unless the file
lies inside the target and the name of the target has an extension to
lose, and it is relative on its face unless the target lies in a
directory below that of the file. -/
structure Reaches (directory : List String) (origin target specifier : String) : Prop where
  leads : (placeFrom directory (ofString target) <+:
        (placeFrom directory (ofString origin)).dropLast →
      ∀ name ∈ (placeFrom directory (ofString target)).getLast?, withoutExtension name = name) →
    placeFrom (placeFrom directory (ofString origin)).dropLast (ofString specifier) =
      moduleAt (placeFrom directory (ofString target))
  relative : (∃ rest, specifier = "./" ++ rest) ∨ (∃ rest, specifier = "../" ++ rest) ∨
    ∃ names : List String, 2 ≤ names.length ∧
      placeFrom directory (ofString target) =
        (placeFrom directory (ofString origin)).dropLast ++ names ∧
      specifier = Text.joinWith "/" (mapLast withoutExtension names)

/-- The way between two files that are seen from a rooted base: as many
steps up as the directory of the first lies behind the common start,
and then those to the second. -/
theorem way_eq {base : Location} (hb : base.rooted = true) (origin target : String) :
    ∃ common back forth : List Step,
      NormalSteps (common ++ back) ∧ NormalSteps (common ++ forth) ∧
      (placeFrom (follow [] base.steps) (ofString origin)).dropLast = follow [] (common ++ back) ∧
      placeFrom (follow [] base.steps) (ofString target) = follow [] (common ++ forth) ∧
      common ++ forth = (base.join (ofString target)).normalize.steps ∧
      way base origin target = ⟨false, List.replicate back.length .up ++ forth⟩ := by
  have horigin : (base.join (ofString origin)).normalize.rooted = true :=
    join_rooted hb (ofString origin)
  have htarget : (base.join (ofString target)).normalize.rooted = true :=
    join_rooted hb (ofString target)
  obtain ⟨hrooted, hnormal, hfollow⟩ := parent?_spec horigin (normalSteps_normalize _)
  obtain ⟨common, back, forth, hback, hforth, hway⟩ := relative_eq hrooted htarget
  refine ⟨common, back, forth, hback ▸ hnormal, hforth ▸ normalSteps_normalize _, ?_, ?_,
    hforth.symm, hway⟩
  · rw [← hback, hfollow, follow_normalize_join hb]
  · rw [← hforth, follow_normalize_join hb]

/-- Where a target has a name behind the common start, the parts of the
specifier lead to its module. -/
theorem follow_specifierParts {common back front : List Step} {s : String}
    (hback : NormalSteps (common ++ back)) (hproper : ProperSteps front) (hhere : .here ∉ front)
    (hs : ProperName s) :
    follow (follow [] (common ++ back)) ((specifierParts
        ⟨false, List.replicate back.length .up ++ (front ++ [.name s])⟩).filterMap
          fun part => stepOf? part.toList) =
      moduleAt (follow [] (common ++ (front ++ [.name s]))) := by
  have hplace : follow [] (common ++ (front ++ [.name s])) =
      follow [] (common ++ front) ++ [s] := by
    rw [← List.append_assoc, follow_append]
    rfl
  have hups := hproper.behind_ups back.length
  have hnotHere : .here ∉ List.replicate back.length .up ++ front := by
    simp [hhere]
  have hwritten := (writtenPart_of_properName hs).withoutExtension
  unfold specifierParts moduleAt
  rw [← List.append_assoc, List.map_append, List.map_cons, List.map_nil, mapLast_append_singleton,
    List.filterMap_append, filterMap_stepOf?_text hups hnotHere, follow_append, follow_append,
    follow_back hback, hplace, List.getLast?_concat, List.dropLast_concat]
  show follow (follow (follow [] common) front) _ =
    placeFrom (follow [] (common ++ front)) (ofString (withoutExtension s))
  rw [placeFrom_part hwritten, follow_append]
  rfl

/-- Nothing is taken from a way that ends with a step up, or has no
steps. -/
theorem specifierParts_of_up {steps : List Step} (h : ∀ step ∈ steps.getLast?, step = .up) :
    specifierParts ⟨false, steps⟩ = steps.map Step.text := by
  rcases List.eq_nil_or_concat steps with rfl | ⟨front, last, rfl⟩
  · rfl
  · rw [List.concat_eq_append] at h ⊢
    rw [h last (by simp)]
    unfold specifierParts
    rw [List.map_append, List.map_singleton, mapLast_append_singleton]
    rfl

/-- Where a target has no name behind the common start, the parts of the
specifier lead to the target itself. -/
theorem follow_specifierParts_of_up {common back forth : List Step}
    (hback : NormalSteps (common ++ back)) (hproper : ProperSteps forth) (hhere : .here ∉ forth)
    (hforth : ∀ step ∈ forth.getLast?, step = .up) :
    follow (follow [] (common ++ back)) ((specifierParts
        ⟨false, List.replicate back.length .up ++ forth⟩).filterMap
          fun part => stepOf? part.toList) =
      follow [] (common ++ forth) := by
  have hups := hproper.behind_ups back.length
  have hnotHere : .here ∉ List.replicate back.length .up ++ forth := by
    simp [hhere]
  have hlast : ∀ step ∈ (List.replicate back.length Step.up ++ forth).getLast?, step = .up := by
    intro step hstep
    rw [List.getLast?_append, Option.mem_def, Option.or_eq_some_iff] at hstep
    rcases hstep with hstep | ⟨-, hstep⟩
    · exact hforth step hstep
    · exact List.eq_of_mem_replicate (List.mem_of_getLast? hstep)
  rw [specifierParts_of_up hlast, filterMap_stepOf?_text hups hnotHere, follow_append,
    follow_back hback, follow_append]

/-- The names of a place are those that the steps started from and those
of the steps. -/
theorem mem_follow {name : String} {steps : List Step} {place : List String}
    (h : name ∈ follow place steps) : name ∈ place ∨ .name name ∈ steps := by
  induction steps generalizing place with
  | nil => exact .inl h
  | cons step steps ih =>
    cases step with
    | here => exact (ih h).imp_right (List.mem_cons_of_mem _)
    | up => exact (ih h).imp (List.dropLast_subset place ·) (List.mem_cons_of_mem _)
    | name s =>
      rcases ih h with h | h
      · rcases List.mem_append.mp h with h | h
        · exact .inl h
        · rw [List.mem_singleton.mp h]
          exact .inr List.mem_cons_self
      · exact .inr (List.mem_cons_of_mem _ h)

/-- Steps behind a common start lead below its place. -/
theorem prefix_of_follow {common back : List Step} (h : NormalSteps (common ++ back)) :
    follow [] common <+: follow [] (common ++ back) := by
  rw [← follow_back h, follow_ups]
  exact List.take_prefix _ _

/-- The parts of the specifier lead to the module of the target, unless
they should have led from inside the target to one of another name. -/
theorem follow_specifierParts_moduleAt {common back forth : List Step}
    (hback : NormalSteps (common ++ back)) (hforth : NormalSteps (common ++ forth))
    (hproper : ProperSteps (common ++ forth))
    (hinside : follow [] (common ++ forth) <+: follow [] (common ++ back) →
      ∀ name ∈ (follow [] (common ++ forth)).getLast?, withoutExtension name = name) :
    follow (follow [] (common ++ back)) ((specifierParts
        ⟨false, List.replicate back.length .up ++ forth⟩).filterMap
          fun part => stepOf? part.toList) =
      moduleAt (follow [] (common ++ forth)) := by
  have hforthProper : ProperSteps forth := hproper.of_subset fun _ h => List.mem_append_right _ h
  have hnotHere : .here ∉ forth := fun h => hforth.here_notMem (List.mem_append_right _ h)
  have hnames : ∀ name ∈ follow [] (common ++ forth), ProperName name := fun name hname =>
    hproper name ((mem_follow hname).resolve_left List.not_mem_nil)
  rcases List.eq_nil_or_concat forth with rfl | ⟨front, last, rfl⟩
  · -- the file lies inside the target
    rw [List.append_nil] at hinside hnames
    have hkept := hinside (prefix_of_follow hback)
    rw [follow_specifierParts_of_up hback hforthProper hnotHere (by simp), List.append_nil,
      moduleAt_eq_self hnames hkept]
  · rw [List.concat_eq_append] at hforth hforthProper hnotHere ⊢
    cases last with
    | here => exact absurd (by simp) hnotHere
    | up =>
      -- a step up at the end stands at the root, which has no name
      have hroot : follow [] (common ++ (front ++ [.up])) = [] := by
        rw [← List.append_assoc] at hforth ⊢
        rw [hforth.eq_nil_of_up]
        rfl
      rw [follow_specifierParts_of_up hback hforthProper hnotHere (by simp), hroot]
      rfl
    | name s =>
      refine follow_specifierParts hback ?_ ?_ (hforthProper s (by simp))
      · exact hforthProper.of_subset fun step h => by simp [h]
      · exact fun h => hnotHere (by simp [h])

theorem text_names (names : List String) : (names.map Step.name).map Step.text = names := by
  rw [List.map_map]
  exact List.map_id names

/-- The specifier for a longer way that starts with a step up shows
this. -/
theorem joinWith_up {steps : List Step}
    (h : 1 < (specifierParts ⟨false, .up :: steps⟩).length) :
    ∃ rest, Text.joinWith "/" (specifierParts ⟨false, .up :: steps⟩) = "../" ++ rest := by
  cases steps with
  | nil => exact absurd h (by decide)
  | cons step steps =>
    have hne : mapLast withoutExtension ((step :: steps).map Step.text) ≠ [] := by
      intro hnil
      have := congrArg List.length hnil
      simp [length_mapLast] at this
    refine ⟨Text.joinWith "/" (mapLast withoutExtension ((step :: steps).map Step.text)), ?_⟩
    show Text.joinWith "/" (".." :: mapLast withoutExtension ((step :: steps).map Step.text)) = _
    rw [Text.joinWith.eq_3 _ _ _ hne]
    rfl

/-- A specifier by which a file imports a file path reaches it. -/
theorem resolve_reaches {base : Location} (hb : base.rooted = true) (hbase : ProperSteps base.steps)
    (origin : String) {target : String} (ht : Provider.isFilePath target = true) :
    Reaches (follow [] base.steps) origin target (resolve base origin target) := by
  obtain ⟨common, back, forth, hback, hforth, horigin, htarget, hsteps, hway⟩ :=
    way_eq hb origin target
  have hproper : ProperSteps (common ++ forth) := by
    rw [hsteps]
    exact properSteps_normalize (properSteps_join hbase (properSteps_ofString target))
  have hwayProper : ProperSteps (way base origin target).steps := by
    rw [hway]
    exact (hproper.of_subset fun _ h => List.mem_append_right _ h).behind_ups back.length
  have hresolve : resolve base origin target = specifier (way base origin target) := by
    rw [resolve, if_pos ht]
  rw [hresolve]
  constructor
  · intro hinside
    rw [horigin, htarget] at hinside
    rw [horigin, htarget, follow_specifier (by rw [hway]) hwayProper, hway]
    exact follow_specifierParts_moduleAt hback hforth hproper hinside
  · rw [specifier_eq (by rw [hway]), hway]
    split
    · next hlong =>
      cases back with
      | cons step back => exact .inr (.inl (joinWith_up hlong))
      | nil =>
        rcases hforth.append_right with ⟨names, rfl⟩ | ⟨steps, rfl⟩
        · refine .inr (.inr ⟨names, ?_, ?_, ?_⟩)
          · have : 1 < names.length := by simpa [specifierParts, length_mapLast] using hlong
            exact this
          · rw [horigin, htarget, follow_append, follow_names, List.append_nil]
          · show Text.joinWith "/" (mapLast withoutExtension ((names.map .name).map Step.text)) = _
            rw [text_names]
        · exact .inr (.inl (joinWith_up hlong))
    · exact .inl ⟨_, rfl⟩

end TableMapper.ImportPath

/-! ## 4. The imports of a mapper -/

namespace TableMapper.Mapper

open Location ImportPath

/-- The specifiers in a mapper file reach the item types, unless their
path is spelled like a package, and the modules of all local
providers. -/
theorem specifiers_reach (m : Mapper) (workingDirectory : String)
    (h : (ofString workingDirectory).rooted = true) :
    (Provider.isFilePath m.item.outPath = true →
      Reaches (placeFrom [] (ofString workingDirectory)) m.outPath m.item.outPath
        (m.itemSpecifier (ofString workingDirectory))) ∧
    ∀ p ∈ m.item.providers.values, p.isLocal = true → ∃ specifier before after,
      m.providerImport (ofString workingDirectory) p = before ++ "'" ++ specifier ++ "'" ++ after ∧
      Reaches (placeFrom [] (ofString workingDirectory)) m.outPath p.modulePath specifier := by
  have hplace : placeFrom [] (ofString workingDirectory) =
      follow [] (ofString workingDirectory).steps := by
    unfold placeFrom
    rw [h]
    rfl
  have hproper := properSteps_ofString workingDirectory
  rw [hplace]
  constructor
  · intro hfile
    exact resolve_reaches h hproper m.outPath hfile
  · intro p _ hlocal
    have hspecifier : m.providerSpecifier (ofString workingDirectory) p =
        resolve (ofString workingDirectory) m.outPath p.modulePath := if_pos hlocal
    have hreaches := resolve_reaches h hproper m.outPath hlocal
    rw [← hspecifier] at hreaches
    cases hform : p.form with
    | defaultExport =>
      refine ⟨_, "import " ++ p.symbol ++ " = require(", ");", ?_, hreaches⟩
      simp [providerImport, hform, String.append_assoc]
    | namedExport =>
      refine ⟨_, "import \x7b " ++ p.symbol ++ " \x7d from ", ";", ?_, hreaches⟩
      simp [providerImport, hform, String.append_assoc]

/-- A mapper with its file and the file of its item types at the given
paths, and one provider. -/
def between (outPath itemPath : String) (provider : Provider) : Mapper where
  name := "UserMapper"
  item :=
    { schema := ⟨"User", none, .empty, none⟩
      outPath := itemPath
      overwrite := true
      providers := Dictionary.empty.insert "id" provider }
  tableName := "Users"
  keys := ⟨"id", none⟩
  globalIndexes := []
  localIndexes := []
  outPath := outPath
  overwrite := true

/-- The ways up to the directory that is imported, in which the mapper
is, and to a provider beside the project. -/
theorem specifiers_reach_example :
    let m := between "./src/mappers/UserMapper.ts" "./src" ⟨.namedExport, "../ids.js", "next"⟩
    (ofString "/home/project").rooted = true ∧
      placeFrom ["home", "project", "src", "mappers"]
        (ofString (m.itemSpecifier (ofString "/home/project"))) = ["home", "project", "src"] ∧
      ∃ specifier before after,
        m.providerImport (ofString "/home/project") ⟨.namedExport, "../ids.js", "next"⟩ =
          before ++ "'" ++ specifier ++ "'" ++ after ∧
        placeFrom ["home", "project", "src", "mappers"] (ofString specifier) = ["home", "ids"] := by
  intro m
  have hrooted : (ofString "/home/project").rooted = true := by decide
  have horigin : (placeFrom (placeFrom [] (ofString "/home/project"))
      (ofString m.outPath)).dropLast = ["home", "project", "src", "mappers"] := by decide
  have hitem : placeFrom (placeFrom [] (ofString "/home/project")) (ofString m.item.outPath) =
      ["home", "project", "src"] := by decide
  have hids : placeFrom (placeFrom [] (ofString "/home/project")) (ofString "../ids.js") =
      ["home", "ids.js"] := by decide
  obtain ⟨hreaches, hproviders⟩ := specifiers_reach m "/home/project" hrooted
  obtain ⟨specifier, before, after, himport, hprovider⟩ :=
    hproviders ⟨.namedExport, "../ids.js", "next"⟩ (List.mem_singleton.mpr rfl) (by decide)
  have hitemLeads := (hreaches (by decide)).leads
  have hproviderLeads := hprovider.leads
  rw [horigin, hitem] at hitemLeads
  rw [horigin, hids] at hproviderLeads
  exact ⟨hrooted, hitemLeads fun _ => by decide, specifier, before, after, himport,
    hproviderLeads fun h => absurd h (by decide)⟩

/-- Three files of item types that are not reached by a relative
specifier: one in a directory below, whose specifier has no leading
`./`; one with a path that is spelled like a package, which is taken for
one; and one that is also the directory of the mapper. -/
theorem not_all_specifiers_relative :
    let specifier (outPath itemPath : String) : String :=
      (between outPath itemPath ⟨.namedExport, "../ids.js", "next"⟩).itemSpecifier
        (ofString "/home/project")
    (specifier "./src/UserMapper.ts" "./src/models/User.ts" = "models/User" ∧
      (∀ rest, "models/User" ≠ "./" ++ rest) ∧ ∀ rest, "models/User" ≠ "../" ++ rest) ∧
    (specifier "./UserMapper.ts" "src/User.ts" = "src/User.ts" ∧
      (∀ rest, "src/User.ts" ≠ "./" ++ rest) ∧ ∀ rest, "src/User.ts" ≠ "../" ++ rest) ∧
    (specifier "./User.ts/UserMapper.ts" "./User.ts" = "./" ∧
      placeFrom ["home", "project", "User.ts"] (ofString "./") ≠
        moduleAt ["home", "project", "User.ts"]) := by
  refine ⟨⟨by decide, ?_, ?_⟩, ⟨by decide, ?_, ?_⟩, by decide, by decide⟩
  all_goals
    intro rest h
    have hhead := congrArg (fun s : String => s.toList.head?) h
    simp [String.toList_append] at hhead

end TableMapper.Mapper
