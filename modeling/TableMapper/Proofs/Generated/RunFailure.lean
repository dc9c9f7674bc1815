/-
TableMapper.Proofs.Generated.RunFailure — which failure of a run is
reported.

A run goes over its mappers twice: all of them are constructed, and only
then are their files generated. Each pass stops at the first mapper, in
declaration order, that fails in it. What follows is that a failure of
construction is reported before any failure of generation, and so
exactly when the report names the first mapper that fails at all.
-/
import TableMapper.Generated.Run
import TableMapper.Proofs.Except

namespace TableMapper

open TypeScript (Style)

namespace Settings

/-! ## 1. The two passes -/

/-- The mapper of an entry. -/
def construct (entry : String × MapperSettings) : Except MapperError Mapper :=
  Mapper.ofSettings entry.1 entry.2

/-- What an entry comes to by itself: its mapper is constructed, and its
files are generated. -/
def runAlone (style : Style) (base : Location) (entry : String × MapperSettings) :
    Except MapperError (List SourceFile) := do
  (← construct entry).generate style base

/-- The error is that of the first entry for which a computation fails,
under the name of the entry. -/
def FirstFailure {β : Type} (f : String × MapperSettings → Except MapperError β)
    (entries : Fields MapperSettings) (e : GenerationError) : Prop :=
  ∃ s, FirstError f entries (e.mapper, s) e.error

variable {style : Style} {base : Location}

theorem name_of_construct {entry : String × MapperSettings} {m : Mapper}
    (h : construct entry = .ok m) : m.name = entry.1 := by
  obtain ⟨item, -, h⟩ := bind_eq_ok_iff.mp h
  obtain rfl := Except.ok.inj h
  rfl

/-- A list of entries has a first failure if its first entry fails, or
does not and the others have one. -/
theorem firstFailure_cons_iff {β : Type} {f : String × MapperSettings → Except MapperError β}
    {name : String} {s : MapperSettings} {rest : Fields MapperSettings} {e : GenerationError} :
    FirstFailure f ((name, s) :: rest) e ↔
      (f (name, s) = .error e.error ∧ e.mapper = name) ∨
        (∃ b, f (name, s) = .ok b) ∧ FirstFailure f rest e := by
  constructor
  · rintro ⟨s', h⟩
    cases h with
    | here h => exact .inl ⟨h, rfl⟩
    | later hb h => exact .inr ⟨hb, s', h⟩
  · rintro (⟨h, rfl⟩ | ⟨hb, s', h⟩)
    · exact ⟨s, .here h⟩
    · exact ⟨s', .later hb h⟩

/-- There is one first failure at most. -/
theorem FirstFailure.unique {β : Type} {f : String × MapperSettings → Except MapperError β}
    {entries : Fields MapperSettings} {e e' : GenerationError} (h : FirstFailure f entries e)
    (h' : FirstFailure f entries e') : e = e' := by
  obtain ⟨s, h⟩ := h
  obtain ⟨s', h'⟩ := h'
  obtain ⟨hentry, herror⟩ := FirstError.unique h h'
  obtain ⟨mapper, error⟩ := e
  obtain rfl : mapper = e'.mapper := congrArg Prod.fst hentry
  obtain rfl : error = e'.error := herror
  rfl

/-- The mappers are constructed one by one, up to the first failure. -/
theorem mappersOf_eq_error_iff {entries : Fields MapperSettings} {e : GenerationError} :
    mappersOf entries = .error e ↔ FirstFailure construct entries e := by
  induction entries with
  | nil =>
    constructor
    · intro h
      cases h
    · rintro ⟨s, h⟩
      cases h
  | cons entry rest ih =>
    obtain ⟨name, s⟩ := entry
    rw [firstFailure_cons_iff, ← ih, mappersOf, construct]
    cases Mapper.ofSettings name s with
    | error e' =>
      constructor
      · intro h
        obtain rfl := Except.error.inj h
        exact .inl ⟨rfl, rfl⟩
      · rintro (⟨he, rfl⟩ | ⟨⟨m, hm⟩, -⟩)
        · rw [Except.error.inj he]
        · cases hm
    | ok m =>
      constructor
      · intro h
        rcases bind_eq_error_iff.mp h with h | ⟨ms, -, h⟩
        · exact .inr ⟨⟨m, rfl⟩, h⟩
        · cases h
      · rintro (⟨h, -⟩ | ⟨-, h⟩)
        · cases h
        · exact bind_eq_error_iff.mpr (.inl h)

/-- There are mappers if every entry has one. -/
theorem exists_mappersOf_iff {entries : Fields MapperSettings} :
    (∃ mappers, mappersOf entries = .ok mappers) ↔
      ∀ entry ∈ entries, ∃ m, construct entry = .ok m := by
  induction entries with
  | nil => exact ⟨fun _ _ h => absurd h List.not_mem_nil, fun _ => ⟨[], rfl⟩⟩
  | cons entry rest ih =>
    obtain ⟨name, s⟩ := entry
    rw [List.forall_mem_cons, ← ih, mappersOf, construct]
    cases Mapper.ofSettings name s with
    | error e => simp
    | ok m =>
      constructor
      · rintro ⟨mappers, h⟩
        obtain ⟨others, hothers, -⟩ := bind_eq_ok_iff.mp h
        exact ⟨⟨m, rfl⟩, others, hothers⟩
      · rintro ⟨-, others, hothers⟩
        exact ⟨m :: others, bind_eq_ok_iff.mpr ⟨others, hothers, rfl⟩⟩

/-- Mappers that were all constructed are run one by one, up to the
first that fails by itself. -/
theorem stageMappers_eq_error_iff {entries : Fields MapperSettings} {mappers : List Mapper}
    (h : mappersOf entries = .ok mappers) (staging : Staging) {e : GenerationError} :
    stageMappers style base staging mappers = .error e ↔
      FirstFailure (runAlone style base) entries e := by
  induction entries generalizing mappers staging with
  | nil =>
    obtain rfl := Except.ok.inj h
    constructor
    · intro h
      cases h
    · rintro ⟨s, h⟩
      cases h
  | cons entry rest ih =>
    obtain ⟨name, s⟩ := entry
    rw [mappersOf] at h
    split at h
    · cases h
    · next m hm =>
      obtain ⟨others, hothers, h⟩ := bind_eq_ok_iff.mp h
      obtain rfl := Except.ok.inj h
      have hname : m.name = name := name_of_construct (show construct (name, s) = .ok m from hm)
      have halone : runAlone style base (name, s) = m.generate style base := by
        rw [runAlone, construct, hm]
        rfl
      rw [firstFailure_cons_iff, stageMappers, halone, hname]
      cases m.generate style base with
      | error e' =>
        constructor
        · intro h
          obtain rfl := Except.error.inj h
          exact .inl ⟨rfl, rfl⟩
        · rintro (⟨he, rfl⟩ | ⟨⟨files, hfiles⟩, -⟩)
          · rw [Except.error.inj he]
          · cases hfiles
      | ok files =>
        rw [show _ ↔ _ from ih hothers (staging.stage files)]
        constructor
        · exact fun h => .inr ⟨⟨files, rfl⟩, h⟩
        · rintro (⟨h, -⟩ | ⟨-, h⟩)
          · cases h
          · exact h

/-! ## 2. The report -/

/-- A run fails with the first failure of construction, or, if all
mappers can be constructed, with the first failure at all. -/
theorem generateFiles_eq_error_iff (s : Settings) (style : Style) (base : Location)
    {e : GenerationError} :
    s.generateFiles style base = .error e ↔
      FirstFailure construct s.mappers.entries e ∨
        (∀ entry ∈ s.mappers.entries, ∃ m, construct entry = .ok m) ∧
          FirstFailure (runAlone style base) s.mappers.entries e := by
  rw [generateFiles, bind_eq_error_iff, mappersOf_eq_error_iff, ← exists_mappersOf_iff]
  refine or_congr Iff.rfl ?_
  constructor
  · rintro ⟨mappers, hmappers, h⟩
    rcases bind_eq_error_iff.mp h with h | ⟨staging, -, h⟩
    · exact ⟨⟨mappers, hmappers⟩, (stageMappers_eq_error_iff hmappers {}).mp h⟩
    · cases h
  · rintro ⟨⟨mappers, hmappers⟩, h⟩
    exact ⟨mappers, hmappers,
      bind_eq_error_iff.mpr (.inl ((stageMappers_eq_error_iff hmappers {}).mpr h))⟩

/-- All entries come to a result, or there is a first failure. -/
theorem all_or_exists_firstFailure {β : Type}
    (f : String × MapperSettings → Except MapperError β) (entries : Fields MapperSettings) :
    (∀ entry ∈ entries, ∃ b, f entry = .ok b) ∨ ∃ e, FirstFailure f entries e := by
  rcases FirstFault.all_or_exists (fun entry => exists_ok_or_error (f entry)) entries with
    hall | ⟨⟨name, s⟩, error, hfirst⟩
  · exact .inl hall
  · exact .inr ⟨⟨name, error⟩, s, hfirst⟩

/-- What is reported of a run in which a mapper fails, by construction
or by generation. The first mapper that fails is the one reported, with
its own error, exactly if it is the first that fails in construction
too, or if all mappers can be constructed. Otherwise the report is of
the first failure of construction. -/
theorem reports_first_failure_iff (s : Settings) (style : Style) (base : Location)
    (h : ∃ entry ∈ s.mappers.entries, ∃ e, runAlone style base entry = .error e) :
    ∃ e, FirstFailure (runAlone style base) s.mappers.entries e ∧
      (s.generateFiles style base = .error e ↔
        FirstFailure construct s.mappers.entries e ∨
          ∀ entry ∈ s.mappers.entries, ∃ m, construct entry = .ok m) ∧
      ((¬ ∀ entry ∈ s.mappers.entries, ∃ m, construct entry = .ok m) →
        ∃ e', FirstFailure construct s.mappers.entries e' ∧
          s.generateFiles style base = .error e') := by
  rcases all_or_exists_firstFailure (runAlone style base) s.mappers.entries with
    hall | ⟨e, hfirst⟩
  · obtain ⟨entry, hentry, e, he⟩ := h
    obtain ⟨files, hfiles⟩ := hall entry hentry
    exact absurd (he.symm.trans hfiles) (by simp)
  refine ⟨e, hfirst, ?_, ?_⟩
  · rw [generateFiles_eq_error_iff]
    constructor
    · exact Or.imp_right And.left
    · exact Or.imp_right fun hall => ⟨hall, hfirst⟩
  · intro hsome
    rcases all_or_exists_firstFailure construct s.mappers.entries with hall | ⟨e', he'⟩
    · exact absurd hall hsome
    · exact ⟨e', he', (generateFiles_eq_error_iff s style base).mpr (.inl he')⟩

/-- Settings of a mapper whose items have no properties. -/
def bareMapper (hashKey : String) (providers : Fields String) : MapperSettings where
  outPath := "./Mapper.ts"
  overwrite := none
  tableName := "Table"
  hashKey := hashKey
  rangeKey := none
  globalIndexes := []
  localIndexes := []
  item :=
    { outPath := "./Item.ts"
      overwrite := none
      schema :=
        { name := "Record"
          required := none
          properties := .empty
          additionalProperties := none }
      defaultProviders := .ofFields providers }

/-- Two mappers, of which the first has a key without a property, and
the second a provider that is none. -/
def twoFailures : Settings where
  mappers := .ofFields [("First", bareMapper "id" []), ("Second", bareMapper "id" [("at", "now")])]

/-- Of these two it is the second that is reported. -/
theorem twoFailures_reported :
    ∃ e, FirstFailure (runAlone {} (.ofString "/")) twoFailures.mappers.entries e ∧
      e = ⟨"First", .item (.noProperty "id" "Record")⟩ ∧
      twoFailures.generateFiles {} (.ofString "/") ≠ .error e ∧
      twoFailures.generateFiles {} (.ofString "/") =
        .error ⟨"Second", .item (.badProvider "at" ⟨"now"⟩)⟩ := by
  have halone : runAlone {} (.ofString "/") ("First", bareMapper "id" []) =
      .error (.item (.noProperty "id" "Record")) := rfl
  have hsecond : construct ("Second", bareMapper "id" [("at", "now")]) =
      .error (.item (.badProvider "at" ⟨"now"⟩)) := rfl
  have halone' : FirstFailure (runAlone {} (.ofString "/")) twoFailures.mappers.entries
      ⟨"First", .item (.noProperty "id" "Record")⟩ := ⟨_, .here halone⟩
  have hsecond' : FirstFailure construct twoFailures.mappers.entries
      ⟨"Second", .item (.badProvider "at" ⟨"now"⟩)⟩ := ⟨_, .later ⟨_, rfl⟩ (.here hsecond)⟩
  obtain ⟨e, hfirst, -, hreport⟩ := reports_first_failure_iff twoFailures {} (.ofString "/")
    ⟨_, List.mem_cons_self, _, halone⟩
  obtain rfl := hfirst.unique halone'
  obtain ⟨e', he', hreported⟩ := hreport fun hall => by
    obtain ⟨m, hm⟩ := hall _ (List.mem_cons_of_mem _ List.mem_cons_self)
    exact absurd (hsecond.symm.trans hm) (by simp)
  obtain rfl := he'.unique hsecond'
  refine ⟨_, hfirst, rfl, ?_, hreported⟩
  rw [hreported]
  simp

end Settings

end TableMapper
