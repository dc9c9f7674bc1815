/-
TableMapper.Proofs.Files.Following — where paths lead on a disk after
files were written.

Writing replaces files and makes new ones, and leaves all directories
as they are (`WrittenAt`). So a path leads where it led before, unless
it now leads to one of the files that were written: a way through a new
file ends at it.
-/
import TableMapper.Files.Disk
import TableMapper.Proofs.Except

namespace TableMapper.Disk

/-! ## 1. Steps of a path -/

/-- A part of a path that is the name of an entry. -/
def IsName (part : String) : Prop := part ≠ "." ∧ part ≠ ".."

theorem follow_here {d : Disk} {place : Place} (h : d.isDirectory place = true)
    (rest : List String) : d.follow place ("." :: rest) = d.follow place rest := by
  simp [follow, h]

theorem follow_up {d : Disk} {place : Place} (h : d.isDirectory place = true)
    (rest : List String) : d.follow place (".." :: rest) = d.follow place.dropLast rest := by
  simp [follow, h]

theorem follow_name {d : Disk} {place : Place} (h : d.isDirectory place = true) {part : String}
    (hname : IsName part) (rest : List String) :
    d.follow place (part :: rest) =
      if (d.get? (place ++ [part])).isSome then d.follow (place ++ [part]) rest
      else .error .missing := by
  simp only [follow, h, hname.1, hname.2]
  cases d.get? (place ++ [part]) <;> simp

theorem follow_no_directory {d : Disk} {place : Place} (h : d.isDirectory place = false)
    (part : String) (rest : List String) :
    d.follow place (part :: rest) = .error .notDirectory := by
  simp [follow, h]

/-- A part leads to the place itself, to the one around it, or to an
entry. -/
theorem here_or_up_or_name (part : String) : part = "." ∨ part = ".." ∨ IsName part := by
  by_cases hhere : part = "."
  · exact .inl hhere
  · by_cases hup : part = ".."
    · exact .inr (.inl hup)
    · exact .inr (.inr ⟨hhere, hup⟩)

theorem follow_append {d : Disk} : ∀ (parts : List String) (place : Place) (rest : List String),
    d.follow place (parts ++ rest) = d.follow place parts >>= fun p => d.follow p rest
  | [], _, _ => rfl
  | part :: parts, place, rest => by
    cases hdirectory : d.isDirectory place with
    | false =>
      rw [List.cons_append, follow_no_directory hdirectory, follow_no_directory hdirectory]
      rfl
    | true =>
      rcases here_or_up_or_name part with rfl | rfl | hname
      · rw [List.cons_append, follow_here hdirectory, follow_here hdirectory]
        exact follow_append parts place rest
      · rw [List.cons_append, follow_up hdirectory, follow_up hdirectory]
        exact follow_append parts place.dropLast rest
      · rw [List.cons_append, follow_name hdirectory hname, follow_name hdirectory hname]
        split
        · exact follow_append parts (place ++ [part]) rest
        · rfl

/-! ## 2. Disks after writing -/

/-- A disk that differs from another by files that were written, in
places where no directory is. -/
structure WrittenAt (d : Disk) (places : List Place) (d' : Disk) : Prop where
  elsewhere : ∀ place, place ∉ places → d'.get? place = d.get? place
  files : ∀ place ∈ places, ∃ content, d'.get? place = some (.file content)
  noDirectory : ∀ place ∈ places, d.isDirectory place = false

namespace WrittenAt

/-- Nothing was written. -/
theorem refl (d : Disk) : WrittenAt d [] d := by
  constructor <;> simp

variable {d d' : Disk} {places : List Place} (h : WrittenAt d places d')

include h

/-- Directories are those there were. -/
theorem isDirectory_eq (place : Place) : d'.isDirectory place = d.isDirectory place := by
  by_cases hplace : place ∈ places
  · obtain ⟨content, hcontent⟩ := h.files place hplace
    rw [h.noDirectory place hplace, isDirectory, hcontent]
  · rw [isDirectory, isDirectory, h.elsewhere place hplace]

/-- What there was is still there, or something in its place. -/
theorem isSome_get? {place : Place} (hplace : (d.get? place).isSome = true) :
    (d'.get? place).isSome = true := by
  by_cases hmem : place ∈ places
  · obtain ⟨content, hcontent⟩ := h.files place hmem
    rw [hcontent]
    rfl
  · rwa [h.elsewhere place hmem]

/-- One more file is written. -/
theorem set {place : Place} (hplace : d.isDirectory place = false) (content : ByteArray) :
    WrittenAt d (place :: places) (d'.set place (.file content)) := by
  have hroot : place ≠ [] := by
    rintro rfl
    exact absurd hplace (by simp [isDirectory, get?])
  constructor
  · intro other hother
    simp only [List.mem_cons, not_or] at hother
    obtain ⟨hne, hmem⟩ := hother
    rw [get?_set place _ d' hroot, if_neg hne, h.elsewhere other hmem]
  · intro other hother
    rw [get?_set place _ d' hroot]
    split
    · exact ⟨content, rfl⟩
    · next hne => exact h.files other ((List.mem_cons.mp hother).resolve_left hne)
  · intro other hother
    rcases List.mem_cons.mp hother with rfl | hother
    · exact hplace
    · exact h.noDirectory other hother

/-! ## 3. Following paths after writing -/

/-- A path that leads somewhere still leads there. -/
theorem follow_eq_ok : ∀ {parts : List String} {place target : Place},
    d.follow place parts = .ok target → d'.follow place parts = .ok target
  | [], _, _, hfollow => hfollow
  | part :: rest, place, target, hfollow => by
    have hsame := h.isDirectory_eq place
    cases hdirectory : d.isDirectory place with
    | false =>
      rw [follow_no_directory hdirectory] at hfollow
      cases hfollow
    | true =>
      rw [hdirectory] at hsame
      rcases here_or_up_or_name part with rfl | rfl | hname
      · rw [follow_here hdirectory] at hfollow
        rw [follow_here hsame]
        exact follow_eq_ok hfollow
      · rw [follow_up hdirectory] at hfollow
        rw [follow_up hsame]
        exact follow_eq_ok hfollow
      · rw [follow_name hdirectory hname] at hfollow
        split at hfollow
        · next hsome =>
          rw [follow_name hsame hname, if_pos (h.isSome_get? hsome)]
          exact follow_eq_ok hfollow
        · cases hfollow

/-- A way through a file that is new ends at it. -/
theorem ends_at_new {place target : Place} {part : String} {rest : List String}
    (hdirectory : d.isDirectory place = true) (hname : IsName part)
    (hnone : ¬ (d.get? (place ++ [part])).isSome = true)
    (hnew : (d'.get? (place ++ [part])).isSome = true)
    (hfollow : d'.follow (place ++ [part]) rest = .ok target) :
    target ∈ places ∧ ∃ init name parent, part :: rest = init ++ [name] ∧ IsName name ∧
      d.follow place init = .ok parent ∧ d.isDirectory parent = true ∧
      target = parent ++ [name] := by
  have hmem : place ++ [part] ∈ places := by
    refine Decidable.byContradiction fun hmem => hnone ?_
    rwa [h.elsewhere _ hmem] at hnew
  have hfile : d'.isDirectory (place ++ [part]) = false := by
    rw [h.isDirectory_eq, h.noDirectory _ hmem]
  cases rest with
  | nil =>
    cases hfollow
    exact ⟨hmem, [], part, place, rfl, hname, rfl, hdirectory, rfl⟩
  | cons next rest =>
    rw [follow_no_directory hfile] at hfollow
    cases hfollow

/-- Where a path leads now, it led before; or the place is one where a
new file was written, under the last name of the path. -/
theorem follow_or_new : ∀ {parts : List String} {place target : Place},
    d'.follow place parts = .ok target → d.follow place parts = .ok target ∨
      target ∈ places ∧ ∃ init name parent, parts = init ++ [name] ∧ IsName name ∧
        d.follow place init = .ok parent ∧ d.isDirectory parent = true ∧ target = parent ++ [name]
  | [], _, _, hfollow => .inl hfollow
  | part :: rest, place, target, hfollow => by
    have hsame := h.isDirectory_eq place
    cases hdirectory : d.isDirectory place with
    | false =>
      rw [hdirectory] at hsame
      rw [follow_no_directory hsame] at hfollow
      cases hfollow
    | true =>
      rw [hdirectory] at hsame
      rcases here_or_up_or_name part with rfl | rfl | hname
      · rw [follow_here hsame] at hfollow
        rw [follow_here hdirectory]
        refine (follow_or_new hfollow).imp_right ?_
        rintro ⟨hmem, init, name, parent, rfl, hname, hinit, hparent⟩
        exact ⟨hmem, "." :: init, name, parent, rfl, hname, by rwa [follow_here hdirectory],
          hparent⟩
      · rw [follow_up hsame] at hfollow
        rw [follow_up hdirectory]
        refine (follow_or_new hfollow).imp_right ?_
        rintro ⟨hmem, init, name, parent, rfl, hname, hinit, hparent⟩
        exact ⟨hmem, ".." :: init, name, parent, rfl, hname, by rwa [follow_up hdirectory],
          hparent⟩
      · rw [follow_name hsame hname] at hfollow
        rw [follow_name hdirectory hname]
        split at hfollow
        case isTrue hnew =>
          by_cases hsome : (d.get? (place ++ [part])).isSome = true
          · rw [if_pos hsome]
            refine (follow_or_new hfollow).imp_right ?_
            rintro ⟨hmem, init, name, parent, rfl, hlast, hinit, hparent⟩
            exact ⟨hmem, part :: init, name, parent, rfl, hlast,
              by rwa [follow_name hdirectory hname, if_pos hsome], hparent⟩
          · refine .inr ?_
            exact h.ends_at_new hdirectory hname hsome hnew hfollow
        case isFalse => cases hfollow

/-- A path of which only now something is missing leads to nothing
before either. -/
theorem follow_missing : ∀ {parts : List String} {place : Place},
    d'.follow place parts = .error .missing → d.follow place parts = .error .missing
  | [], _, hfollow => by cases hfollow
  | part :: rest, place, hfollow => by
    have hsame := h.isDirectory_eq place
    cases hdirectory : d.isDirectory place with
    | false =>
      rw [hdirectory] at hsame
      rw [follow_no_directory hsame] at hfollow
      cases hfollow
    | true =>
      rw [hdirectory] at hsame
      rcases here_or_up_or_name part with rfl | rfl | hname
      · rw [follow_here hsame] at hfollow
        rw [follow_here hdirectory]
        exact follow_missing hfollow
      · rw [follow_up hsame] at hfollow
        rw [follow_up hdirectory]
        exact follow_missing hfollow
      · rw [follow_name hsame hname] at hfollow
        rw [follow_name hdirectory hname]
        by_cases hsome : (d.get? (place ++ [part])).isSome = true
        · rw [if_pos (h.isSome_get? hsome)] at hfollow
          rw [if_pos hsome]
          exact follow_missing hfollow
        · rw [if_neg hsome]

end WrittenAt

/-! ## 4. The places that paths denote -/

/-- The path is a name of the place: what stands there is read under
it, or a file is written there under it. -/
def Denotes (d : Disk) (base : Place) (path : String) (place : Place) : Prop :=
  d.target base path = .ok place ∨
    ∃ r, Route.ofString? path = some r ∧ d.follow (r.start base) r.parts = .ok place

/-- A file is written under the last name of a path, in the directory
to which the others lead. -/
theorem target_eq_ok_iff {d : Disk} {base : Place} {path : String} {place : Place} :
    d.target base path = .ok place ↔
      ∃ r init name parent, Route.ofString? path = some r ∧ r.closed = false ∧
        r.parts = init ++ [name] ∧ IsName name ∧ d.follow (r.start base) init = .ok parent ∧
        d.isDirectory parent = true ∧ place = parent ++ [name] ∧ d.isDirectory place = false := by
  constructor
  · intro h
    unfold target at h
    split at h
    · cases h
    next r hr =>
    split at h
    · cases h
    next name hlast =>
    obtain ⟨init, hinit⟩ := List.getLast?_eq_some_iff.mp hlast
    rw [hinit, List.dropLast_concat] at h
    obtain ⟨parent, hparent, h⟩ := bind_eq_ok_iff.mp h
    split at h
    · cases h
    next hdirectory =>
    split at h
    · cases h
    next hfile =>
    obtain rfl := Except.ok.inj h
    simp only [Bool.or_eq_true, decide_eq_true_eq, not_or, Bool.not_eq_true] at hfile
    obtain ⟨⟨⟨hhere, hup⟩, hclosed⟩, hfile⟩ := hfile
    exact ⟨r, init, name, parent, hr, hclosed, hinit, ⟨hhere, hup⟩, hparent,
      by simpa using hdirectory, rfl, hfile⟩
  · rintro ⟨r, init, name, parent, hr, hclosed, hparts, hname, hparent, hdirectory, rfl, hfile⟩
    unfold target
    simp only [hr, hparts, List.getLast?_append, List.getLast?_singleton, Option.some_or,
      List.dropLast_concat]
    refine bind_eq_ok_iff.mpr ⟨parent, hparent, ?_⟩
    simp [hdirectory, hname.1, hname.2, hclosed, hfile]

/-- What a path leads to stands at the place to which its parts lead; a
slash at its end asks for a directory. -/
theorem lookUp_eq_ok_iff {d : Disk} {base : Place} {path : String} {entry : Entry} :
    d.lookUp base path = .ok entry ↔
      ∃ r place, Route.ofString? path = some r ∧ d.follow (r.start base) r.parts = .ok place ∧
        d.get? place = some entry ∧ (r.closed = true → entry = .directory) := by
  unfold lookUp
  cases hr : Route.ofString? path with
  | none => simp
  | some r =>
    cases hfollow : d.follow (r.start base) r.parts with
    | error e => simp [bind, Except.bind, hfollow]
    | ok place =>
      cases hget : d.get? place with
      | none => simp [bind, Except.bind, hfollow, hget]
      | some stands =>
        cases stands with
        | directory =>
          simp only [bind, Except.bind, hfollow, hget, Option.some.injEq, Except.ok.injEq,
            exists_and_left, exists_eq_left', iff_self_and]
          exact fun h _ => h.symm
        | file content =>
          cases hclosed : r.closed with
          | false => simp [bind, Except.bind, hfollow, hget, hclosed]
          | true =>
            simp only [bind, Except.bind, hfollow, hget, hclosed, if_pos, Option.some.injEq,
              Except.ok.injEq, exists_and_left, exists_eq_left', reduceCtorEq, forall_const,
              false_iff, not_and]
            rintro rfl
            simp

/-- Something is missing on a path if it is along its parts or behind
all of them. -/
theorem lookUp_eq_missing_iff {d : Disk} {base : Place} {path : String} :
    d.lookUp base path = .error .missing ↔
      ∀ r, Route.ofString? path = some r → d.follow (r.start base) r.parts = .error .missing ∨
        ∃ place, d.follow (r.start base) r.parts = .ok place ∧ d.get? place = none := by
  unfold lookUp
  cases hr : Route.ofString? path with
  | none => simp
  | some r =>
    cases hfollow : d.follow (r.start base) r.parts with
    | error e => simp [bind, Except.bind, hfollow]
    | ok place =>
      cases hget : d.get? place with
      | none => simp [bind, Except.bind, hfollow, hget]
      | some stands =>
        cases stands with
        | directory => simp [bind, Except.bind, hfollow, hget]
        | file content =>
          cases hclosed : r.closed <;> simp [bind, Except.bind, hfollow, hget, hclosed]

theorem hasEntry_eq_true_iff {d : Disk} {base : Place} {path : String} :
    d.hasEntry base path = .ok true ↔ ∃ entry, d.lookUp base path = .ok entry := by
  unfold hasEntry
  split <;> simp_all

theorem hasEntry_eq_false_iff {d : Disk} {base : Place} {path : String} :
    d.hasEntry base path = .ok false ↔ d.lookUp base path = .error .missing := by
  unfold hasEntry
  split <;> simp_all

/-- A path under which a file can be written leads nowhere but to the
place of that file. -/
theorem follow_of_target {d : Disk} {base : Place} {path : String} {place : Place}
    (h : d.target base path = .ok place) :
    ∃ r, Route.ofString? path = some r ∧ r.closed = false ∧
      d.follow (r.start base) r.parts =
        if (d.get? place).isSome then .ok place else .error .missing := by
  obtain ⟨r, init, name, parent, hr, hclosed, hparts, hname, hparent, hdirectory, rfl, -⟩ :=
    target_eq_ok_iff.mp h
  refine ⟨r, hr, hclosed, ?_⟩
  rw [hparts, follow_append, hparent]
  exact follow_name hdirectory hname []

/-- A path denotes one place at most. -/
theorem Denotes.unique {d : Disk} {base : Place} {path : String} {place other : Place}
    (h : d.Denotes base path place) (h' : d.Denotes base path other) : place = other := by
  -- A path that leads somewhere and under which a file can be written.
  have hsame : ∀ {p q : Place}, d.target base path = .ok p →
      (∃ r, Route.ofString? path = some r ∧ d.follow (r.start base) r.parts = .ok q) → p = q := by
    rintro p q htarget ⟨r, hr, hfollow⟩
    obtain ⟨r', hr', -, hends⟩ := follow_of_target htarget
    obtain rfl := Option.some.inj (hr.symm.trans hr')
    rw [hends] at hfollow
    split at hfollow
    · exact Except.ok.inj hfollow
    · cases hfollow
  rcases h with h | ⟨r, hr, hfollow⟩ <;> rcases h' with h' | ⟨r', hr', hfollow'⟩
  · exact Except.ok.inj (h.symm.trans h')
  · exact hsame h ⟨r', hr', hfollow'⟩
  · exact (hsame h' ⟨r, hr, hfollow⟩).symm
  · obtain rfl := Option.some.inj (hr.symm.trans hr')
    exact Except.ok.inj (hfollow.symm.trans hfollow')

/-- A file that stands where a path is written to is what the path
leads to. -/
theorem lookUp_of_target {d : Disk} {base : Place} {path : String} {place : Place}
    (h : d.target base path = .ok place) {content : ByteArray}
    (hfile : d.get? place = some (.file content)) :
    d.lookUp base path = .ok (.file content) := by
  obtain ⟨r, hr, hclosed, hends⟩ := follow_of_target h
  rw [hfile] at hends
  exact lookUp_eq_ok_iff.mpr ⟨r, place, hr, hends, hfile, by simp [hclosed]⟩

namespace WrittenAt

variable {d d' : Disk} {places : List Place} (h : WrittenAt d places d') {base : Place}
  {path : String}

include h

/-- A path under which a file can be written names the same place as
before. -/
theorem target_eq_ok_iff {place : Place} :
    d'.target base path = .ok place ↔ d.target base path = .ok place := by
  rw [Disk.target_eq_ok_iff, Disk.target_eq_ok_iff]
  constructor
  · rintro ⟨r, init, name, parent, hr, hclosed, hparts, hname, hparent, hdirectory, rfl, hfile⟩
    rw [h.isDirectory_eq] at hdirectory hfile
    refine ⟨r, init, name, parent, hr, hclosed, hparts, hname, ?_, hdirectory, rfl, hfile⟩
    rcases h.follow_or_new hparent with hparent | ⟨hmem, -⟩
    · exact hparent
    · exact absurd (h.noDirectory parent hmem) (by simp [hdirectory])
  · rintro ⟨r, init, name, parent, hr, hclosed, hparts, hname, hparent, hdirectory, rfl, hfile⟩
    rw [← h.isDirectory_eq] at hdirectory hfile
    exact ⟨r, init, name, parent, hr, hclosed, hparts, hname, h.follow_eq_ok hparent, hdirectory,
      rfl, hfile⟩

/-- What a path leads to is left alone with the places that it
denotes. -/
theorem lookUp_eq_ok_iff (hplaces : ∀ place ∈ places, ¬ d.Denotes base path place)
    {entry : Entry} : d'.lookUp base path = .ok entry ↔ d.lookUp base path = .ok entry := by
  rw [Disk.lookUp_eq_ok_iff, Disk.lookUp_eq_ok_iff]
  constructor
  · rintro ⟨r, place, hr, hfollow, hget, hclosed⟩
    rcases h.follow_or_new hfollow with hbefore | ⟨hmem, init, name, parent, hparts, hname, hparent,
      hdirectory, rfl⟩
    · have hother : place ∉ places := fun hmem => hplaces place hmem (.inr ⟨r, hr, hbefore⟩)
      exact ⟨r, place, hr, hbefore, by rwa [← h.elsewhere place hother], hclosed⟩
    · -- The path ends at a new file: it denoted that place before.
      obtain ⟨content, hcontent⟩ := h.files _ hmem
      have hopen : r.closed = false := by
        rw [hcontent] at hget
        obtain rfl := Option.some.inj hget
        simpa using hclosed
      refine absurd (.inl ?_) (hplaces _ hmem)
      exact Disk.target_eq_ok_iff.mpr ⟨r, init, name, parent, hr, hopen, hparts, hname, hparent,
        hdirectory, rfl, h.noDirectory _ hmem⟩
  · rintro ⟨r, place, hr, hfollow, hget, hclosed⟩
    have hother : place ∉ places := fun hmem => hplaces place hmem (.inr ⟨r, hr, hfollow⟩)
    exact ⟨r, place, hr, h.follow_eq_ok hfollow, by rwa [h.elsewhere place hother], hclosed⟩

/-- Whether there is an entry is left alone with the places that a path
denotes. -/
theorem hasEntry_eq_ok (hplaces : ∀ place ∈ places, ¬ d.Denotes base path place) {found : Bool}
    (hfound : d'.hasEntry base path = .ok found) : d.hasEntry base path = .ok found := by
  cases found with
  | true =>
    obtain ⟨entry, hentry⟩ := hasEntry_eq_true_iff.mp hfound
    exact hasEntry_eq_true_iff.mpr ⟨entry, (h.lookUp_eq_ok_iff hplaces).mp hentry⟩
  | false =>
    rw [hasEntry_eq_false_iff, lookUp_eq_missing_iff] at hfound ⊢
    intro r hr
    rcases hfound r hr with hmissing | ⟨place, hfollow, hnone⟩
    · exact .inl (h.follow_missing hmissing)
    · have hother : place ∉ places := by
        intro hmem
        obtain ⟨content, hcontent⟩ := h.files place hmem
        exact absurd (hcontent.symm.trans hnone) (by simp)
      rcases h.follow_or_new hfollow with hbefore | ⟨hmem, -⟩
      · exact .inr ⟨place, hbefore, by rwa [← h.elsewhere place hother]⟩
      · exact absurd hmem hother

end WrittenAt

end TableMapper.Disk
