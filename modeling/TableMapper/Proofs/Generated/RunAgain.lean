/-
TableMapper.Proofs.Generated.RunAgain — a second run behind a run that
wrote its files.

The second run finds every file in its place. It leaves alone those that
may not be overwritten, and what it writes into the others is what they
hold already, so the disk stays exactly what it was.
-/
import TableMapper.Proofs.Generated.RunEffects

namespace TableMapper

open TypeScript (Style)

/-! ## 1. Writing what is there -/

namespace Disk

theorem put_eq_self {place : Place} {entry : Entry} {entries : List (Place × Entry)}
    (h : find? place entries = some entry) : put place entry entries = entries := by
  induction entries with
  | nil => cases h
  | cons first rest ih =>
    obtain ⟨p, e⟩ := first
    rw [find?] at h
    rw [put]
    split
    · next hp =>
      rw [if_pos hp] at h
      rw [Option.some.inj h]
    · next hp =>
      rw [if_neg hp] at h
      rw [ih h]

/-- A place that is set to what stands there leaves the disk as it is. -/
theorem set_eq_self {d : Disk} {place : Place} {entry : Entry} (hroot : place ≠ [])
    (h : d.get? place = some entry) : d.set place entry = d := by
  rw [get?, if_neg (by simpa using hroot)] at h
  rw [set, put_eq_self h]

end Disk

/-! ## 2. Files that are there -/

namespace SourceFile

/-- The file is there as a run leaves it: what may be overwritten has
its content, and of what may not there is something in its place. -/
structure Settled (base : Place) (d : Disk) (f : SourceFile) : Prop where
  content : f.overwrite = true →
    ∃ place, d.target base f.path = .ok place ∧ d.get? place = some (.file f.bytes)
  present : f.overwrite = false → d.hasEntry base f.path = .ok true

/-- Writing a file that is there changes nothing, and it counts as
written if it may be overwritten. -/
theorem Settled.run_write {base : Place} {d : Disk} {f : SourceFile} (h : f.Settled base d) :
    (f.write (Disk.access base)).run d = (.ok f.overwrite, d) := by
  rw [SourceFile.run_write]
  cases hmay : f.overwrite with
  | true =>
    obtain ⟨place, htarget, hget⟩ := h.content hmay
    have hroot : place ≠ [] := by
      obtain ⟨_, _, _, _, _, _, _, _, _, _, rfl, _⟩ := Disk.target_eq_ok_iff.mp htarget
      simp
    have hwrite : d.write base f.path f.content = .ok d :=
      map_eq_ok_iff.mpr ⟨place, htarget, Disk.set_eq_self hroot hget⟩
    rw [if_pos rfl, hwrite]
  | false => rw [if_neg Bool.false_ne_true, h.present hmay]

/-- The report of files that are all there. -/
def reportAgain (files : List SourceFile) : Report where
  written := (files.filter (·.overwrite)).map path
  skipped := (files.filter (!·.overwrite)).map path

theorem reportAgain_cons (f : SourceFile) (rest : List SourceFile) :
    reportAgain (f :: rest) = (reportAgain rest).cons f.path f.overwrite := by
  cases hmay : f.overwrite <;> simp [reportAgain, Report.cons, hmay]

/-- The loop over files that are all there changes nothing. -/
theorem run_writeAll_settled {base : Place} {d : Disk} {files : List SourceFile}
    (h : ∀ f ∈ files, f.Settled base d) :
    (writeAll (Disk.access base) files).run d = (.ok (reportAgain files), d) := by
  induction files with
  | nil => rfl
  | cons f rest ih =>
    rw [List.forall_mem_cons] at h
    rw [run_writeAll_cons, h.1.run_write]
    simp only [ih h.2, reportAgain_cons]
    rfl

/-- A run that writes files leaves all of them there. -/
theorem Written.settled {d d' : Disk} {base : Place} {files : List SourceFile} {report : Report}
    (hapart : files.Pairwise (Apart d base)) (h : Written d base files d d' report) :
    ∀ f ∈ files, f.Settled base d' := by
  obtain ⟨places, hdisk⟩ := h.disk
  have htouches := Settings.touchesOnly_of_written hapart h
  intro f hf
  constructor
  · intro hmay
    obtain ⟨place, htarget, hget⟩ := h.content f hf (by simp [isKept, hmay])
    exact ⟨place, hdisk.target_eq_ok_iff.mpr htarget, hget⟩
  · intro hmay
    rw [Disk.hasEntry_eq_true_iff]
    obtain ⟨found, hfound⟩ := h.known f hf hmay
    cases found with
    | true =>
      rw [htouches.kept f hf hmay hfound]
      exact Disk.hasEntry_eq_true_iff.mp hfound
    | false =>
      obtain ⟨entry, hentry, -⟩ := bind_eq_ok_iff.mp (htouches.made f hf hmay hfound)
      exact ⟨entry, hentry⟩

end SourceFile

/-! ## 3. Runs -/

namespace Settings

/-- A run behind one that has written its files, where no two of the
paths denote one place, succeeds as well. It leaves the disk as the
first run left it. As left alone it reports the files that may not be
overwritten, and as written all others. -/
theorem generate_again {s : Settings} {style : Style} {directory : Location} {base : Place}
    {d d' : Disk} {report : Report}
    (hrun : (s.generate (Disk.access base) style directory).run d = (.ok report, d')) :
    ∃ files, s.generateFiles style directory = .ok files ∧
      files.map SourceFile.output = s.mappers.entries.flatMap (fun entry => entry.2.outputs) ∧
      (files.Pairwise (SourceFile.Apart d base) →
        (s.generate (Disk.access base) style directory).run d' =
          (.ok (SourceFile.reportAgain files), d')) := by
  cases hfiles : s.generateFiles style directory with
  | error e =>
    rw [generate, hfiles] at hrun
    cases hrun
  | ok files =>
    refine ⟨files, rfl, outputs_of_generateFiles hfiles, fun hapart => ?_⟩
    rw [generate, hfiles] at hrun ⊢
    have hwritten := SourceFile.written_of_writeAll hapart (.refl d) (by simp) hrun
    exact SourceFile.run_writeAll_settled (hwritten.settled hapart)

/-- An empty working directory. -/
def emptyDirectory : Disk := ⟨[(["w"], .directory)]⟩

/-- The first run makes both files of the notes. The second leaves alone
the one that may not be overwritten, which it finds there. -/
theorem generate_again_notes :
    ∃ files d', notes.generateFiles {} (.ofString "/w") = .ok files ∧
      files.Pairwise (SourceFile.Apart emptyDirectory ["w"]) ∧
      (notes.generate (Disk.access ["w"]) {} (.ofString "/w")).run emptyDirectory =
        (.ok ⟨["Note.ts", "./Notes.ts"], []⟩, d') ∧
      (notes.generate (Disk.access ["w"]) {} (.ofString "/w")).run d' =
        (.ok ⟨["./Notes.ts"], ["Note.ts"]⟩, d') := by
  obtain ⟨files, hfiles⟩ := exists_generateFiles_notes
  have houtputs : files.map SourceFile.output = [("Note.ts", false), ("./Notes.ts", true)] :=
    outputs_of_generateFiles hfiles
  obtain ⟨f, rest, rfl, hf, hrest⟩ := List.map_eq_cons_iff.mp houtputs
  obtain ⟨g, rest, rfl, hg, hrest⟩ := List.map_eq_cons_iff.mp hrest
  obtain rfl := List.map_eq_nil_iff.mp hrest
  obtain ⟨hfpath, hfmay⟩ := Prod.mk.inj hf
  obtain ⟨hgpath, hgmay⟩ := Prod.mk.inj hg
  have hapart : [f, g].Pairwise (SourceFile.Apart emptyDirectory ["w"]) := by
    rw [List.pairwise_pair]
    intro place hplace hplace'
    rw [hfpath] at hplace
    rw [hgpath] at hplace'
    have hnote : place = ["w", "Note.ts"] := hplace.unique (.inl rfl)
    have hnotes : place = ["w", "Notes.ts"] := hplace'.unique (.inl rfl)
    exact absurd (hnote.symm.trans hnotes) (by decide)
  have hmissing : emptyDirectory.hasEntry ["w"] "Note.ts" = .ok false := rfl
  obtain ⟨between, hfwrite, d', hgwrite⟩ : ∃ between,
      emptyDirectory.write ["w"] "Note.ts" f.content = .ok between ∧
        ∃ d', between.write ["w"] "./Notes.ts" g.content = .ok d' := ⟨_, rfl, _, rfl⟩
  have hfrun : (f.write (Disk.access ["w"])).run emptyDirectory = (.ok true, between) := by
    rw [SourceFile.run_write, hfmay, if_neg Bool.false_ne_true, hfpath, hmissing, hfwrite]
  have hgrun : (g.write (Disk.access ["w"])).run between = (.ok true, d') := by
    rw [SourceFile.run_write, hgmay, if_pos rfl, hgpath, hgwrite]
  have hrun : (notes.generate (Disk.access ["w"]) {} (.ofString "/w")).run emptyDirectory =
      (.ok ⟨["Note.ts", "./Notes.ts"], []⟩, d') := by
    rw [generate, hfiles]
    simp only [SourceFile.run_writeAll_cons, hfrun, hgrun, hfpath, hgpath]
    rfl
  obtain ⟨others, hothers, -, hagain⟩ := generate_again hrun
  obtain rfl := Except.ok.inj (hfiles.symm.trans hothers)
  have hreport : SourceFile.reportAgain [f, g] = ⟨["./Notes.ts"], ["Note.ts"]⟩ := by
    simp [SourceFile.reportAgain, hfmay, hgmay, hfpath, hgpath]
  refine ⟨[f, g], d', hfiles, hapart, hrun, ?_⟩
  rw [hagain hapart, hreport]

end Settings

end TableMapper
