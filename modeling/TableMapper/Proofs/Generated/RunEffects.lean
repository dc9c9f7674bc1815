/-
TableMapper.Proofs.Generated.RunEffects — what a run does to the files
around it.

A run that cannot generate its files touches nothing. Otherwise each
file is written or left alone as the disk was when the run began: the
files before it in the list are other files (`Apart`), so that what is
written for them does not matter to it. This is the invariant of the
loop over the files; `WrittenAt` says what the disk has become.
-/
import Mathlib.Data.List.Pairwise
import TableMapper.Generated.Writing
import TableMapper.Proofs.Files.Following
import TableMapper.Proofs.Generated.KeyAttributes
import TableMapper.Proofs.Generated.MapperFailure
import TableMapper.Proofs.Generated.Staging

namespace TableMapper

open TypeScript (Style)

/-! ## 1. Writing one file -/

namespace SourceFile

/-- The file is left alone: it may not be overwritten, and something is
in its place. -/
def isKept (d : Disk) (base : Place) (f : SourceFile) : Bool :=
  !f.overwrite && match d.hasEntry base f.path with
    | .ok found => found
    | .error _ => false

theorem isKept_eq_true_iff {d : Disk} {base : Place} {f : SourceFile} :
    f.isKept d base = true ↔ f.overwrite = false ∧ d.hasEntry base f.path = .ok true := by
  unfold isKept
  cases d.hasEntry base f.path <;> simp

/-- The header and the body of a file, as bytes. -/
def bytes (f : SourceFile) : ByteArray := (header ++ "\n" ++ f.body).toUTF8

/-- Only a file that may not be overwritten is looked for before it is
written. -/
theorem run_write (base : Place) (d : Disk) (f : SourceFile) :
    (f.write (Disk.access base)).run d =
      match if f.overwrite then .ok false else d.hasEntry base f.path with
      | .error e => (.error e, d)
      | .ok true => (.ok false, d)
      | .ok false =>
        match d.write base f.path f.content with
        | .error e => (.error e, d)
        | .ok d' => (.ok true, d') := by
  cases hmay : f.overwrite with
  | true =>
    cases hwrite : d.write base f.path f.content <;>
      simp [SourceFile.write, hmay, Disk.access, hwrite] <;> rfl
  | false =>
    cases hentry : d.hasEntry base f.path with
    | error e =>
      simp [SourceFile.write, hmay, Disk.access, hentry]
      rfl
    | ok found =>
      cases found with
      | true =>
        simp [SourceFile.write, hmay, Disk.access, hentry]
        rfl
      | false =>
        cases hwrite : d.write base f.path f.content <;>
          simp [SourceFile.write, hmay, Disk.access, hentry, hwrite] <;> rfl

/-- What writing a file without a failure has done: nothing to a file
that may not be overwritten and was there, and else its content is set
at the place of its path. -/
theorem write_cases {base : Place} {d d' : Disk} {f : SourceFile} {isWritten : Bool}
    (h : (f.write (Disk.access base)).run d = (.ok isWritten, d')) :
    (isWritten = false ∧ f.isKept d base = true ∧ d' = d) ∨
    (isWritten = true ∧ (f.overwrite = false → d.hasEntry base f.path = .ok false) ∧
      ∃ place, d.target base f.path = .ok place ∧ d' = d.set place (.file f.bytes)) := by
  rw [run_write] at h
  split at h
  · cases h
  · next hentry =>
    cases h
    refine .inl ⟨rfl, ?_, rfl⟩
    rw [isKept_eq_true_iff]
    cases hmay : f.overwrite <;> simp_all
  · next hentry =>
    split at h
    · cases h
    · next hwrite =>
      cases h
      obtain ⟨place, htarget, rfl⟩ := map_eq_ok_iff.mp hwrite
      refine .inr ⟨rfl, ?_, place, htarget, rfl⟩
      intro hmay
      simpa [hmay] using hentry

/-! ## 2. Writing all files -/

theorem run_writeAll_cons (base : Place) (d : Disk) (f : SourceFile) (rest : List SourceFile) :
    (writeAll (Disk.access base) (f :: rest)).run d =
      match (f.write (Disk.access base)).run d with
      | (.error e, between) =>
        (.error (.write f.path e), ((writeAll (Disk.access base) rest).run between).2)
      | (.ok isWritten, between) =>
        (((writeAll (Disk.access base) rest).run between).1.map (·.cons f.path isWritten),
          ((writeAll (Disk.access base) rest).run between).2) := by
  rw [writeAll, StateT.run_bind]
  cases hwrite : (f.write (Disk.access base)).run d with
  | mk outcome between => cases outcome <;> simp [bind] <;> rfl

/-- All files are written if the first is, and then the others. -/
theorem writeAll_cons_eq_ok {base : Place} {d d' : Disk} {f : SourceFile}
    {rest : List SourceFile} {report : Report}
    (h : (writeAll (Disk.access base) (f :: rest)).run d = (.ok report, d')) :
    ∃ isWritten between others,
      (f.write (Disk.access base)).run d = (.ok isWritten, between) ∧
      (writeAll (Disk.access base) rest).run between = (.ok others, d') ∧
      report = others.cons f.path isWritten := by
  rw [run_writeAll_cons] at h
  split at h
  · cases h
  next isWritten between hwrite =>
  obtain ⟨hreport, rfl⟩ := Prod.mk.inj h
  obtain ⟨others, hothers, rfl⟩ := map_eq_ok_iff.mp hreport
  exact ⟨isWritten, between, others, hwrite, Prod.ext hothers rfl, rfl⟩

/-- The paths of two files denote different places. -/
def Apart (d : Disk) (base : Place) (f g : SourceFile) : Prop :=
  ∀ place, d.Denotes base f.path place → ¬ d.Denotes base g.path place

/-- Files are apart in either order. -/
instance (d : Disk) (base : Place) : Std.Symm (Apart d base) where
  symm _ _ h place hg hf := h place hf hg

/-- What the loop over files does to a disk that has changed only in
places that the files do not denote. -/
structure Written (d : Disk) (base : Place) (files : List SourceFile) (before after : Disk)
    (report : Report) : Prop where
  /-- Files may have been written, and nothing else was done. -/
  disk : ∃ places, d.WrittenAt places after
  /-- A file that is not left alone has its content. -/
  content : ∀ f ∈ files, f.isKept d base = false →
    ∃ place, d.target base f.path = .ok place ∧ after.get? place = some (.file f.bytes)
  /-- Whether a file that may not be overwritten was there is known. -/
  known : ∀ f ∈ files, f.overwrite = false → ∃ found, d.hasEntry base f.path = .ok found
  /-- All other places are left alone. -/
  elsewhere : ∀ place,
    (∀ f ∈ files, f.isKept d base = false → d.target base f.path ≠ .ok place) →
      after.get? place = before.get? place
  written : report.written = (files.filter fun f => !f.isKept d base).map path
  skipped : report.skipped = (files.filter fun f => f.isKept d base).map path

namespace Written

variable {d : Disk} {base : Place} {f : SourceFile} {rest : List SourceFile}
  {before after : Disk} {report : Report}

/-- A file is left alone before the others are written. -/
theorem cons_kept (hkept : f.isKept d base = true)
    (h : Written d base rest before after report) :
    Written d base (f :: rest) before after (report.cons f.path false) := by
  obtain ⟨hmay, hentry⟩ := isKept_eq_true_iff.mp hkept
  constructor
  · exact h.disk
  · rintro g hg hnew
    rcases List.mem_cons.mp hg with rfl | hg
    · exact absurd hkept (by simp [hnew])
    · exact h.content g hg hnew
  · intro g hg hg'
    rcases List.mem_cons.mp hg with rfl | hg
    · exact ⟨true, hentry⟩
    · exact h.known g hg hg'
  · intro place hplace
    exact h.elsewhere place (List.forall_mem_cons.mp hplace).2
  · simp [Report.cons, hkept, h.written]
  · simp [Report.cons, hkept, h.skipped]

/-- A file is written before the others, which are other files. -/
theorem cons_written {place : Place}
    (hnew : f.overwrite = false → d.hasEntry base f.path = .ok false)
    (htarget : d.target base f.path = .ok place) (hapart : ∀ g ∈ rest, Apart d base f g)
    (h : Written d base rest (before.set place (.file f.bytes)) after report) :
    Written d base (f :: rest) before after (report.cons f.path true) := by
  have hkept : f.isKept d base = false := by
    refine Bool.eq_false_iff.mpr fun hkept => ?_
    obtain ⟨hmay, hentry⟩ := isKept_eq_true_iff.mp hkept
    exact absurd ((hnew hmay).symm.trans hentry) (by simp)
  have hroot : place ≠ [] := by
    obtain ⟨_, _, _, _, _, _, _, _, _, _, rfl, _⟩ := Disk.target_eq_ok_iff.mp htarget
    simp
  have hlast : after.get? place = some (.file f.bytes) := by
    rw [h.elsewhere, Disk.get?_set place _ before hroot, if_pos rfl]
    intro g hg _ hsame
    exact hapart g hg place (.inl htarget) (.inl hsame)
  constructor
  · exact h.disk
  · rintro g hg hgnew
    rcases List.mem_cons.mp hg with rfl | hg
    · exact ⟨place, htarget, hlast⟩
    · exact h.content g hg hgnew
  · intro g hg hmay
    rcases List.mem_cons.mp hg with rfl | hg
    · exact ⟨false, hnew hmay⟩
    · exact h.known g hg hmay
  · intro other hother
    obtain ⟨hf, hrest⟩ := List.forall_mem_cons.mp hother
    have hne : other ≠ place := by
      rintro rfl
      exact hf hkept htarget
    rw [h.elsewhere other hrest, Disk.get?_set place _ before hroot, if_neg hne]
  · simp [Report.cons, hkept, h.written]
  · simp [Report.cons, hkept, h.skipped]

end Written

/-- The loop treats each file as the disk was before all of them. -/
theorem written_of_writeAll {d : Disk} {base : Place} {files : List SourceFile}
    (hapart : files.Pairwise (Apart d base)) {places : List Place} {before after : Disk}
    {report : Report} (hdisk : d.WrittenAt places before)
    (hother : ∀ f ∈ files, ∀ place ∈ places, ¬ d.Denotes base f.path place)
    (hrun : (writeAll (Disk.access base) files).run before = (.ok report, after)) :
    Written d base files before after report := by
  induction files generalizing places before report with
  | nil =>
    cases hrun
    constructor <;> first | exact ⟨places, hdisk⟩ | simp
  | cons f rest ih =>
    obtain ⟨hf, hrest⟩ := List.pairwise_cons.mp hapart
    obtain ⟨hotherf, hotherRest⟩ := List.forall_mem_cons.mp hother
    obtain ⟨isWritten, between, others, hwrite, hloop, rfl⟩ := writeAll_cons_eq_ok hrun
    rcases write_cases hwrite with ⟨rfl, hkept, rfl⟩ | ⟨rfl, hnew, place, htarget, rfl⟩
    · obtain ⟨hmay, hentry⟩ := isKept_eq_true_iff.mp hkept
      have hkept := isKept_eq_true_iff.mpr ⟨hmay, hdisk.hasEntry_eq_ok hotherf hentry⟩
      exact (ih hrest hdisk hotherRest hloop).cons_kept hkept
    · rw [hdisk.target_eq_ok_iff] at htarget
      have hfile : d.isDirectory place = false := by
        obtain ⟨_, _, _, _, _, _, _, _, _, _, _, hfile⟩ := Disk.target_eq_ok_iff.mp htarget
        exact hfile
      have hmore : ∀ g ∈ rest, ∀ other ∈ place :: places, ¬ d.Denotes base g.path other := by
        intro g hg other hmem
        rcases List.mem_cons.mp hmem with rfl | hmem
        · exact hf g hg other (.inl htarget)
        · exact hotherRest g hg other hmem
      have hwritten := ih hrest (hdisk.set hfile f.bytes) hmore hloop
      exact hwritten.cons_written (fun hmay => hdisk.hasEntry_eq_ok hotherf (hnew hmay)) htarget hf

end SourceFile

/-! ## 3. Where files belong -/

/-- Where the two files of a mapper belong, and whether they may be
overwritten: that of the item types, and its own. -/
def MapperSettings.outputs (s : MapperSettings) : List (String × Bool) :=
  [(s.item.outPath, s.item.overwrite.getD true), (s.outPath, s.overwrite.getD true)]

/-- Where a file belongs, and whether it may be overwritten. -/
def SourceFile.output (f : SourceFile) : String × Bool := (f.path, f.overwrite)

namespace Settings

variable {style : Style} {directory : Location}

/-- The files of a mapper belong where its settings say. -/
theorem outputs_of_runAlone {name : String} {s : MapperSettings} {m : Mapper}
    {files : List SourceFile} (hm : Mapper.ofSettings name s = .ok m)
    (hfiles : m.generate style directory = .ok files) :
    files.map SourceFile.output = s.outputs := by
  obtain ⟨item, hitem, hm⟩ := bind_eq_ok_iff.mp hm
  obtain rfl := Except.ok.inj hm
  obtain ⟨providers, -, hitem⟩ := bind_eq_ok_iff.mp (mapError_eq_ok_iff.mp hitem)
  obtain rfl := Except.ok.inj hitem
  obtain ⟨table, -, hfiles⟩ := bind_eq_ok_iff.mp hfiles
  obtain ⟨itemFile, hitemFile, hfiles⟩ := bind_eq_ok_iff.mp hfiles
  obtain ⟨keyType, -, hfiles⟩ := bind_eq_ok_iff.mp hfiles
  obtain rfl := Except.ok.inj hfiles
  obtain ⟨types, -, hitemFile⟩ := bind_eq_ok_iff.mp (mapError_eq_ok_iff.mp hitemFile)
  obtain rfl := Except.ok.inj hitemFile
  rfl

theorem outputs_of_stageMappers {entries : Fields MapperSettings} {mappers : List Mapper}
    (hmappers : mappersOf entries = .ok mappers) {staging staged : Staging}
    (h : stageMappers style directory staging mappers = .ok staged) :
    staged.files.map SourceFile.output =
      staging.files.map SourceFile.output ++ entries.flatMap fun entry => entry.2.outputs := by
  induction entries generalizing mappers staging with
  | nil =>
    cases hmappers
    cases h
    simp
  | cons entry rest ih =>
    obtain ⟨name, s⟩ := entry
    rw [mappersOf] at hmappers
    split at hmappers
    · cases hmappers
    next m hm =>
    obtain ⟨others, hothers, hmappers⟩ := bind_eq_ok_iff.mp hmappers
    obtain rfl := Except.ok.inj hmappers
    rw [stageMappers] at h
    split at h
    · cases h
    next files hfiles =>
    rw [ih hothers h, Staging.stage, List.map_append, outputs_of_runAlone hm hfiles]
    simp

/-- The files of a configuration belong where the settings of their
mappers say, in declaration order. -/
theorem outputs_of_generateFiles {s : Settings} {files : List SourceFile}
    (h : s.generateFiles style directory = .ok files) :
    files.map SourceFile.output = s.mappers.entries.flatMap fun entry => entry.2.outputs := by
  obtain ⟨mappers, hmappers, h⟩ := bind_eq_ok_iff.mp h
  obtain ⟨staged, hstaged, h⟩ := bind_eq_ok_iff.mp h
  obtain rfl := Except.ok.inj h
  exact outputs_of_stageMappers hmappers hstaged

/-! ## 4. Runs -/

/-- What a run that writes files has done to a disk. -/
structure TouchesOnly (d : Disk) (base : Place) (files : List SourceFile) (d' : Disk)
    (report : Report) : Prop where
  /-- A file that may be overwritten has its header and its body. -/
  replaced : ∀ f ∈ files, f.overwrite = true → d'.read base f.path = .ok f.bytes
  /-- One that may not is known to have been there or not. -/
  known : ∀ f ∈ files, f.overwrite = false → ∃ found, d.hasEntry base f.path = .ok found
  /-- If it was there, it is what it was. -/
  kept : ∀ f ∈ files, f.overwrite = false → d.hasEntry base f.path = .ok true →
    d'.lookUp base f.path = d.lookUp base f.path
  /-- If it was not, it has its header and its body. -/
  made : ∀ f ∈ files, f.overwrite = false → d.hasEntry base f.path = .ok false →
    d'.read base f.path = .ok f.bytes
  /-- Places are left alone to which no file was to be written. -/
  elsewhere : ∀ place,
    (∀ f ∈ files, f.isKept d base = false → d.target base f.path ≠ .ok place) →
      d'.get? place = d.get? place
  /-- The report names the files in their order, those apart that were
  left alone. -/
  written : report.written = (files.filter fun f => !f.isKept d base).map SourceFile.path
  skipped : report.skipped = (files.filter fun f => f.isKept d base).map SourceFile.path
  once : (report.written ++ report.skipped).Perm (files.map SourceFile.path)

/-- What the loop over files does is what it may do. -/
theorem touchesOnly_of_written {d d' : Disk} {base : Place} {files : List SourceFile}
    {report : Report} (hapart : files.Pairwise (SourceFile.Apart d base))
    (h : SourceFile.Written d base files d d' report) : TouchesOnly d base files d' report := by
  obtain ⟨places, hdisk⟩ := h.disk
  have hread : ∀ f ∈ files, f.isKept d base = false → d'.read base f.path = .ok f.bytes := by
    intro f hf hnew
    obtain ⟨place, htarget, hget⟩ := h.content f hf hnew
    refine bind_eq_ok_iff.mpr ⟨.file f.bytes, ?_, rfl⟩
    exact Disk.lookUp_of_target (hdisk.target_eq_ok_iff.mpr htarget) hget
  refine ⟨?_, h.known, ?_, ?_, h.elsewhere, h.written, h.skipped, ?_⟩
  · intro f hf hmay
    exact hread f hf (by simp [SourceFile.isKept, hmay])
  · intro f hf hmay hentry
    have hkept := SourceFile.isKept_eq_true_iff.mpr ⟨hmay, hentry⟩
    obtain ⟨entry, hlookUp⟩ := Disk.hasEntry_eq_true_iff.mp hentry
    obtain ⟨r, place, hr, hfollow, hget, hclosed⟩ := Disk.lookUp_eq_ok_iff.mp hlookUp
    rw [hlookUp]
    refine Disk.lookUp_eq_ok_iff.mpr ⟨r, place, hr, hdisk.follow_eq_ok hfollow, ?_, hclosed⟩
    rw [h.elsewhere, hget]
    intro g hg hnew htarget
    have hne : f ≠ g := by
      rintro rfl
      exact absurd hkept (by simp [hnew])
    exact hapart.forall hf hg hne place (.inr ⟨r, hr, hfollow⟩) (.inl htarget)
  · intro f hf hmay hentry
    exact hread f hf (by simp [SourceFile.isKept, hmay, hentry])
  · rw [h.written, h.skipped, ← List.map_append]
    exact (List.perm_append_comm.trans (List.filter_append_perm _ files)).map _

/-- A run touches only what it may touch. If the files cannot be
generated, the failure is reported and the disk is as it was. If they
can, each belongs where the settings of its mapper say, and a run that
succeeds, where no two of the paths denote one place, treats each file
by itself: one that may be overwritten is replaced, one that may not is
made if it was not there, and everything else is left alone. -/
theorem generate_touches (s : Settings) (style : Style) (directory : Location) (base : Place)
    (d : Disk) :
    (∀ e, s.generateFiles style directory = .error e →
      (s.generate (Disk.access base) style directory).run d = (.error (.generation e), d)) ∧
    ∀ files, s.generateFiles style directory = .ok files →
      files.map SourceFile.output = s.mappers.entries.flatMap (fun entry => entry.2.outputs) ∧
      (files.Pairwise (SourceFile.Apart d base) → ∀ report d',
        (s.generate (Disk.access base) style directory).run d = (.ok report, d') →
          TouchesOnly d base files d' report) := by
  constructor
  · intro e he
    simp [generate, he]
    rfl
  · intro files hfiles
    refine ⟨outputs_of_generateFiles hfiles, fun hapart report d' hrun => ?_⟩
    rw [generate, hfiles] at hrun
    refine touchesOnly_of_written hapart (SourceFile.written_of_writeAll hapart (.refl d) ?_ hrun)
    simp

/-- Notes with an identifier. -/
def note : RecordSchema where
  name := "Note"
  required := none
  properties := .ofFields [("id", .ofType (.single .string))]
  additionalProperties := none

/-- A mapper of notes; the file of their types is written by hand. -/
def notes : Settings where
  mappers := .ofFields [("Notes",
    { outPath := "./Notes.ts"
      overwrite := none
      tableName := "Notes"
      hashKey := "id"
      rangeKey := none
      globalIndexes := []
      localIndexes := []
      item := ⟨"Note.ts", some false, note, .empty⟩ })]

/-- The files of the notes are generated. -/
theorem exists_generateFiles_notes :
    ∃ files, notes.generateFiles {} (.ofString "/w") = .ok files := by
  obtain ⟨m, hm⟩ : ∃ m, mappersOf notes.mappers.entries = .ok [m] := ⟨_, rfl⟩
  have hschema : m.item.schema = note := by
    cases hm
    rfl
  obtain ⟨text, htext⟩ : ∃ text, m.tableSchemaText = .ok text := by
    cases hm
    exact ⟨_, rfl⟩
  have hread : List.Forall₂ (JsonSchema.IsProperty ["properties"] [])
      (propertyDocuments note.properties.entries)
      [(⟨"id", none, false⟩, .union [.primitive .string])] :=
    .cons ⟨rfl, (Mapper.ofJson_ofType _).1⟩ .nil
  obtain ⟨whole, hwhole⟩ := JsonSchema.exists_declare
    (note.toFields_isRecord.ofRoot_eq (note.requiredNames_toFields []) hread)
    (show TypeScript.isIdentifier "Note" = true by decide)
  have hdeclared : JsonSchema.declare m.item.document m.item.typeName = .ok whole := by
    rw [Item.document, Item.typeName, hschema]
    exact hwhole
  obtain ⟨files, hfiles⟩ := Mapper.exists_generate htext hdeclared {} (.ofString "/w")
  refine ⟨files, bind_eq_ok_iff.mpr ⟨[m], hm, ?_⟩⟩
  simp [stageMappers, hfiles, Staging.stage]

/-- A working directory in which a file is there already. -/
def handWritten : Disk :=
  ⟨[(["w"], .directory), (["w", "Note.ts"], .file "by hand".toUTF8)]⟩

/-- The file that was written by hand is left alone, the other is
made. -/
theorem generate_touches_notes :
    ∃ files report d', notes.generateFiles {} (.ofString "/w") = .ok files ∧
      files.Pairwise (SourceFile.Apart handWritten ["w"]) ∧
      (notes.generate (Disk.access ["w"]) {} (.ofString "/w")).run handWritten =
        (.ok report, d') ∧
      report = ⟨["./Notes.ts"], ["Note.ts"]⟩ ∧
      d'.read ["w"] "Note.ts" = .ok "by hand".toUTF8 ∧
      ∃ f ∈ files, f.path = "./Notes.ts" ∧ d'.read ["w"] "./Notes.ts" = .ok f.bytes := by
  obtain ⟨files, hfiles⟩ := exists_generateFiles_notes
  obtain ⟨houtputs, htouches⟩ :=
    (generate_touches notes {} (.ofString "/w") ["w"] handWritten).2 files hfiles
  obtain ⟨f, g, rfl, hf, hg⟩ : ∃ f g, files = [f, g] ∧ f.output = ("Note.ts", false) ∧
      g.output = ("./Notes.ts", true) := by
    change files.map SourceFile.output = [("Note.ts", false), ("./Notes.ts", true)] at houtputs
    obtain ⟨f, rest, rfl, hf, hrest⟩ := List.map_eq_cons_iff.mp houtputs
    obtain ⟨g, rest, rfl, hg, hrest⟩ := List.map_eq_cons_iff.mp hrest
    obtain rfl := List.map_eq_nil_iff.mp hrest
    exact ⟨f, g, rfl, hf, hg⟩
  obtain ⟨hfpath, hfmay⟩ := Prod.mk.inj hf
  obtain ⟨hgpath, hgmay⟩ := Prod.mk.inj hg
  have hapart : [f, g].Pairwise (SourceFile.Apart handWritten ["w"]) := by
    rw [List.pairwise_pair]
    intro place hplace hplace'
    rw [hfpath] at hplace
    rw [hgpath] at hplace'
    have hnote : place = ["w", "Note.ts"] := hplace.unique (.inl rfl)
    have hnotes : place = ["w", "Notes.ts"] := hplace'.unique (.inl rfl)
    exact absurd (hnote.symm.trans hnotes) (by decide)
  have hentry : handWritten.hasEntry ["w"] f.path = .ok true := by
    rw [hfpath]
    rfl
  have hkept : (f.write (Disk.access ["w"])).run handWritten = (.ok false, handWritten) := by
    rw [SourceFile.run_write, hfmay, if_neg Bool.false_ne_true, hentry]
  obtain ⟨d', hwrite⟩ : ∃ d', handWritten.write ["w"] g.path g.content = .ok d' := by
    rw [hgpath]
    exact ⟨_, rfl⟩
  have hwritten : (g.write (Disk.access ["w"])).run handWritten = (.ok true, d') := by
    rw [SourceFile.run_write, hgmay, if_pos rfl, hwrite]
  have hrun : (notes.generate (Disk.access ["w"]) {} (.ofString "/w")).run handWritten =
      (.ok ⟨["./Notes.ts"], ["Note.ts"]⟩, d') := by
    rw [generate, hfiles]
    simp only [SourceFile.run_writeAll_cons, hkept, hwritten, hfpath, hgpath]
    rfl
  have htouched := htouches hapart _ d' hrun
  refine ⟨[f, g], _, d', hfiles, hapart, hrun, rfl, ?_, g, by simp, hgpath, ?_⟩
  · have hsame := htouched.kept f (by simp) hfmay hentry
    rw [hfpath] at hsame
    rw [Disk.read, hsame]
    rfl
  · rw [← hgpath]
    exact htouched.replaced g (by simp) hgmay

end Settings

end TableMapper
