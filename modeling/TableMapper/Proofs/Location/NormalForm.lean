/-
TableMapper.Proofs.Location.NormalForm — which paths the normal form
puts in their canonical form.

A path climbs some levels above its start and leads down by names from
there, wherever it starts (`follow_eq`). Its canonical form says this and
no more; at the root, which is its own parent, the levels count for
nothing. The normal form keeps the names, but a `..` that it has kept is
taken back by the next one, so that it keeps one step up of an odd number
of levels and none of an even number (`normalize_eq`). This is canonical
for a path that starts at the root if the number is even, and for any
other path up to one level (`normalize_canonical_iff`).
-/
import TableMapper.Proofs.Location.Place

namespace TableMapper.Location

/-! ## 1. Climbing -/

/-- How many levels steps climb above the place where they start. -/
def climb : List Step → Nat
  | [] => 0
  | .here :: steps => climb steps
  | .up :: steps => climb steps + 1
  | .name _ :: steps => climb steps - 1

/-- Steps leave the place where they start by as many levels as they
climb, and lead down from there as they do from the root. -/
theorem follow_eq (place : List String) :
    ∀ steps : List Step,
      follow place steps = place.take (place.length - climb steps) ++ follow [] steps
  | [] => by simp [follow, climb]
  | .here :: steps => follow_eq place steps
  | .up :: steps => by
    have hlevels : min (place.length - 1 - climb steps) (place.length - 1) =
        place.length - (climb steps + 1) := by omega
    rw [follow, follow_eq place.dropLast steps, List.length_dropLast, List.dropLast_eq_take,
      List.take_take, hlevels]
    rfl
  | .name s :: steps => by
    rw [follow, follow_eq (place ++ [s]) steps, follow, List.nil_append, follow_eq [s] steps,
      ← List.append_assoc, List.take_append, climb, List.length_append, List.length_singleton]
    congr 2
    · cases hc : climb steps with
      | zero => exact List.take_of_length_le (Nat.le_add_right _ _) |>.trans List.take_length.symm
      | succ n =>
        congr 1
        omega
    · congr 1
      omega

/-- What a step climbs beyond the names before it, and what the steps
after it climb beyond the names that are left then. -/
theorem climb_cons (names : List String) (step : Step) (steps : List Step) :
    climb [step] - names.length + (climb steps - (follow names [step]).length) =
      climb (step :: steps) - names.length := by
  cases step with
  | here => simp [climb, follow]
  | up =>
    simp only [climb, follow, List.length_dropLast]
    omega
  | name s =>
    simp only [climb, follow, List.length_append, List.length_singleton]
    omega

/-! ## 2. Canonical forms -/

/-- The steps of a path that goes up `n` levels and then down. -/
def upAndDown (n : Nat) (names : List String) : List Step :=
  List.replicate n .up ++ names.map .name

theorem upAndDown_concat (n : Nat) (names : List String) (s : String) :
    upAndDown n (names ++ [s]) = upAndDown n names ++ [.name s] := by
  simp [upAndDown]

theorem follow_upAndDown (place : List String) (n : Nat) (names : List String) :
    follow place (upAndDown n names) = place.take (place.length - n) ++ names := by
  rw [upAndDown, follow_append, follow_ups, follow_names]

/-- Steps in canonical order: none of them stays, no name is followed by
a step up, and the steps up are the first `n`. -/
structure CanonicalSteps (n : Nat) (steps : List Step) : Prop where
  moves : .here ∉ steps
  onward : ∀ s, ¬[.name s, .up] <:+: steps
  lead : ∃ rest, steps = List.replicate n .up ++ rest ∧ .up ∉ rest

/-- Steps that only go down are names. -/
theorem eq_names : ∀ {steps : List Step}, .here ∉ steps → .up ∉ steps →
    ∃ names : List String, steps = names.map .name
  | [], _, _ => ⟨[], rfl⟩
  | .here :: _, hhere, _ => absurd List.mem_cons_self hhere
  | .up :: _, _, hup => absurd List.mem_cons_self hup
  | .name s :: steps, hhere, hup => by
    obtain ⟨names, rfl⟩ := eq_names (fun h => hhere (List.mem_cons_of_mem _ h))
      (fun h => hup (List.mem_cons_of_mem _ h))
    exact ⟨s :: names, rfl⟩

theorem canonicalSteps_upAndDown (n : Nat) (names : List String) :
    CanonicalSteps n (upAndDown n names) where
  moves := by simp [upAndDown]
  onward s := by
    -- a pair that begins with a name does not begin among the steps up
    induction n with
    | zero =>
      intro h
      have hup : Step.up ∈ names.map Step.name := h.subset (by simp)
      simp at hup
    | succ n ih =>
      intro h
      rcases List.infix_cons_iff.mp h with h | h
      · exact absurd (List.cons_prefix_cons.mp h).1 (by simp)
      · exact ih h
  lead := ⟨names.map .name, rfl, by simp⟩

theorem canonicalSteps_iff {n : Nat} {steps : List Step} :
    CanonicalSteps n steps ↔ ∃ names, steps = upAndDown n names := by
  constructor
  · rintro ⟨hmoves, -, rest, rfl, hup⟩
    obtain ⟨names, rfl⟩ := eq_names (fun h => hmoves (List.mem_append_right _ h)) hup
    exact ⟨names, rfl⟩
  · rintro ⟨names, rfl⟩
    exact canonicalSteps_upAndDown n names

/-- Steps in canonical order go up by one number of levels only. -/
theorem CanonicalSteps.levels_unique {m n : Nat} {steps : List Step} (hm : CanonicalSteps m steps)
    (hn : CanonicalSteps n steps) : m = n := by
  have hcount : ∀ {k : Nat}, CanonicalSteps k steps → steps.count .up = k := by
    rintro k ⟨-, -, rest, rfl, hrest⟩
    rw [List.count_append, List.count_replicate_self, List.count_eq_zero.mpr hrest, Nat.add_zero]
  rw [← hcount hm, ← hcount hn]

/-- A location is the canonical form of another: it has its steps in
canonical order, with as many up as the other climbs above its start and
none at the root, and it leads to the same place from every directory. -/
structure IsCanonicalOf (form l : Location) : Prop where
  rooted : form.rooted = l.rooted
  steps : CanonicalSteps (if l.rooted then 0 else climb l.steps) form.steps
  place : ∀ directory, placeFrom directory form = placeFrom directory l

/-- The place of a location from each directory. -/
theorem placeFrom_eq (directory : List String) (l : Location) :
    placeFrom directory l =
      if l.rooted then follow [] l.steps
      else directory.take (directory.length - climb l.steps) ++ follow [] l.steps := by
  unfold placeFrom
  split
  · rfl
  · exact follow_eq directory l.steps

/-- Every location has one canonical form. -/
theorem exists_canonical (l : Location) :
    ∃ form, ∀ other, IsCanonicalOf other l ↔ other = form := by
  refine ⟨⟨l.rooted, upAndDown (if l.rooted then 0 else climb l.steps) (follow [] l.steps)⟩,
    fun other => ⟨?_, ?_⟩⟩
  · intro h
    obtain ⟨names, hsteps⟩ := canonicalSteps_iff.mp h.steps
    -- from the root, both lead down by the same names
    have hplace : names = follow [] l.steps := by
      have hroot := h.place []
      unfold placeFrom at hroot
      rw [hsteps, ite_self, ite_self, follow_upAndDown] at hroot
      simpa using hroot
    rw [← hplace, ← hsteps, ← h.rooted]
  · rintro rfl
    refine ⟨rfl, canonicalSteps_upAndDown _ _, fun directory => ?_⟩
    rw [placeFrom_eq directory l]
    unfold placeFrom
    cases l.rooted with
    | true => exact follow_upAndDown [] 0 _
    | false => exact follow_upAndDown directory _ _

/-! ## 3. What the normal form keeps -/

/-- One step of the normal form keeps its shape: a name is added or
removed, or else there is one level more. -/
theorem walk_upAndDown (n : Nat) (names : List String) (step : Step) :
    walk (upAndDown (n % 2) names) step =
      upAndDown ((n + (climb [step] - names.length)) % 2) (follow names [step]) := by
  cases step with
  | here => simp [walk, climb, follow]
  | name s => simp [walk, climb, follow, upAndDown_concat]
  | up =>
    rcases List.eq_nil_or_concat names with rfl | ⟨front, s, rfl⟩
    · -- without a name to remove, the step up is kept or taken back
      rcases Nat.mod_two_eq_zero_or_one n with h | h
      · have hnext : (n + 1) % 2 = 1 := by omega
        simp [walk, climb, follow, upAndDown, h, hnext]
      · have hnext : (n + 1) % 2 = 0 := by omega
        simp [walk, climb, follow, upAndDown, h, hnext]
    · simp [walk, climb, follow, upAndDown_concat]

/-- All steps keep it, so that the levels are those that the steps climb
beyond the names they start from. -/
theorem foldl_walk_upAndDown :
    ∀ (n : Nat) (names : List String) (steps : List Step),
      steps.foldl walk (upAndDown (n % 2) names) =
        upAndDown ((n + (climb steps - names.length)) % 2) (follow names steps)
  | n, names, [] => by simp [climb, follow]
  | n, names, step :: steps => by
    rw [List.foldl_cons, walk_upAndDown, foldl_walk_upAndDown, Nat.add_assoc, climb_cons,
      ← follow_append]
    rfl

/-- The normal form leads down by the same names, and keeps a step up if
the number of levels above the start is odd. -/
theorem normalize_eq (l : Location) :
    l.normalize = ⟨l.rooted, upAndDown (climb l.steps % 2) (follow [] l.steps)⟩ := by
  have h := foldl_walk_upAndDown 0 [] l.steps
  rw [List.length_nil, Nat.sub_zero, Nat.zero_add] at h
  exact congrArg (Location.mk l.rooted) h

/-- To leave every directory by `n` levels and then lead down by the
names of a path is to follow the path if it climbs `n` levels. -/
theorem forall_take_append_iff (n : Nat) (steps : List Step) :
    (∀ directory : List String,
      directory.take (directory.length - n) ++ follow [] steps = follow directory steps) ↔
        n = climb steps := by
  constructor
  · intro h
    -- a directory that is deep enough tells the numbers apart
    have hdeep := h (List.replicate (n + climb steps) "")
    rw [follow_eq (List.replicate (n + climb steps) "") steps] at hdeep
    have hlength := congrArg List.length hdeep
    simp only [List.length_append, List.length_take, List.length_replicate] at hlength
    omega
  · rintro rfl directory
    exact (follow_eq directory steps).symm

/-- The normal form of a path that does not start at the root leads to
the same place from every directory only up to one level. -/
theorem placeFrom_normalize_iff (l : Location) :
    (∀ directory, placeFrom directory l.normalize = placeFrom directory l) ↔
      l.rooted = true ∨ climb l.steps ≤ 1 := by
  rw [normalize_eq]
  unfold placeFrom
  cases l.rooted with
  | true => simp [follow_upAndDown]
  | false =>
    simp only [Bool.false_eq_true, if_false, false_or, follow_upAndDown]
    rw [forall_take_append_iff]
    omega

/-! ## 4. Ways between normal forms -/

/-- A way leads from one location to another, whatever directory they
are seen from. -/
def Leads (origin target way : Location) : Prop :=
  way.rooted = false ∧ ∀ directory,
    placeFrom (placeFrom directory origin) way = placeFrom directory target

theorem dropCommon_append (common as bs : List Step) :
    dropCommon (common ++ as) (common ++ bs) = dropCommon as bs := by
  induction common with
  | nil => rfl
  | cons step common ih => simpa [dropCommon] using ih

/-- As many steps up as there are names lead back. -/
theorem follow_back_names (place names : List String) :
    follow (place ++ names) (List.replicate names.length .up) = place := by
  rw [follow_ups, List.length_append, Nat.add_sub_cancel, List.take_left]

/-- Two paths that go up equally far, to one place: the way between them
goes back behind their common start and down from there. -/
theorem follow_relative_of_eq (place names others : List String) (n : Nat) :
    follow (place ++ names) ((⟨false, upAndDown n names⟩ : Location).relative
        ⟨false, upAndDown n others⟩).steps = place ++ others := by
  rw [relative_mk]
  simp only [upAndDown, dropCommon_append]
  obtain ⟨common, hback, hforth⟩ := dropCommon_eq (names.map .name) (others.map .name)
  generalize dropCommon (names.map .name) (others.map .name) = rest at hback hforth
  obtain ⟨first, last, rfl, rfl, hlast⟩ := List.map_eq_append_iff.mp hback
  rw [← hlast, List.length_map, follow_append, ← List.append_assoc, follow_back_names,
    ← follow_names place first, ← follow_append, ← hforth, follow_names]

/-- A step up that only one of two paths has kept is one level on the
way between them, whichever of them it is. -/
theorem follow_relative_of_ne (place names others : List String) :
    follow (place ++ names) ((⟨false, upAndDown 0 names⟩ : Location).relative
        ⟨false, upAndDown 1 others⟩).steps = place.take (place.length - 1) ++ others ∧
      follow (place ++ names) ((⟨false, upAndDown 1 names⟩ : Location).relative
        ⟨false, upAndDown 0 others⟩).steps = place.take (place.length - 1) ++ others := by
  rw [relative_mk, relative_mk]
  have hforth : dropCommon (upAndDown 0 names) (upAndDown 1 others) =
      (upAndDown 0 names, upAndDown 1 others) := by
    cases names <;> simp [upAndDown, dropCommon]
  have hback : dropCommon (upAndDown 1 names) (upAndDown 0 others) =
      (upAndDown 1 names, upAndDown 0 others) := by
    cases others <;> simp [upAndDown, dropCommon]
  constructor
  · have hlength : (upAndDown 0 names).length = names.length := by simp [upAndDown]
    rw [hforth, hlength, follow_append, follow_back_names, follow_upAndDown]
  · have hlength : (upAndDown 1 names).length = names.length + 1 := by simp [upAndDown]
    have hsteps : List.replicate (names.length + 1) Step.up ++ upAndDown 0 others =
        List.replicate names.length .up ++ upAndDown 1 others := by
      rw [List.replicate_succ']
      simp [upAndDown]
    rw [hback, hlength, hsteps, follow_append, follow_back_names, follow_upAndDown]

/-- Between paths in canonical order that go up equally far, the way
leads from one to the other. -/
theorem leads_relative {origin target : Location} (ho : origin.rooted = false)
    (ht : target.rooted = false) {n : Nat} (hos : CanonicalSteps n origin.steps)
    (hts : CanonicalSteps n target.steps) : Leads origin target (origin.relative target) := by
  obtain ⟨names, hnames⟩ := canonicalSteps_iff.mp hos
  obtain ⟨others, hothers⟩ := canonicalSteps_iff.mp hts
  cases origin
  cases target
  subst ho ht hnames hothers
  refine ⟨rfl, fun directory => ?_⟩
  show follow (follow directory (upAndDown n names)) _ = follow directory (upAndDown n others)
  rw [follow_upAndDown, follow_upAndDown, follow_relative_of_eq]

/-- The way between normal forms takes one more step up at the common
start if they differ in the one that they keep. -/
theorem follow_relative_normalize {origin target : Location} (ho : origin.rooted = false)
    (ht : target.rooted = false) (place : List String) :
    follow (follow place origin.steps) (origin.normalize.relative target.normalize).steps =
      place.take
          (place.length - (climb origin.steps + (climb origin.steps + climb target.steps) % 2)) ++
        follow [] target.steps := by
  rw [normalize_eq origin, normalize_eq target, ho, ht, follow_eq place origin.steps]
  generalize follow [] origin.steps = names
  generalize follow [] target.steps = others
  have hup : (place.take (place.length - climb origin.steps)).take
      ((place.take (place.length - climb origin.steps)).length - 1) =
      place.take (place.length - (climb origin.steps + 1)) := by
    rw [List.take_take, List.length_take]
    congr 1
    omega
  rw [Nat.add_mod]
  rcases Nat.mod_two_eq_zero_or_one (climb origin.steps) with h | h <;>
    rcases Nat.mod_two_eq_zero_or_one (climb target.steps) with h' | h' <;>
    rw [h, h']
  -- neither has kept a step up, only the target, only the origin, or both
  · exact follow_relative_of_eq _ names others 0
  · rw [(follow_relative_of_ne _ names others).1, hup]
  · rw [(follow_relative_of_ne _ names others).2, hup]
  · exact follow_relative_of_eq _ names others 1

/-- The way between normal forms leads from one path to the other if they
climb equally far, or the other one level further. -/
theorem leads_relative_normalize_iff {origin target : Location} (ho : origin.rooted = false)
    (ht : target.rooted = false) :
    Leads origin target (origin.normalize.relative target.normalize) ↔
      climb target.steps = climb origin.steps ∨ climb target.steps = climb origin.steps + 1 := by
  have hway : (origin.normalize.relative target.normalize).rooted = false := by
    rw [normalize_eq origin, normalize_eq target, ho, ht, relative_mk]
  have hplaces : Leads origin target (origin.normalize.relative target.normalize) ↔
      ∀ directory, follow (follow directory origin.steps)
        (origin.normalize.relative target.normalize).steps = follow directory target.steps := by
    simp [Leads, placeFrom, ho, ht, hway]
  rw [hplaces]
  simp only [follow_relative_normalize ho ht]
  rw [forall_take_append_iff]
  omega

/-! ## 5. Which paths are put in canonical form -/

theorem canonicalSteps_normalize (l : Location) :
    CanonicalSteps (climb l.steps % 2) l.normalize.steps := by
  rw [normalize_eq]
  exact canonicalSteps_upAndDown _ _

/-- The normal form is canonical if it keeps as many steps up as the
canonical form has. -/
theorem isCanonicalOf_normalize_iff (l : Location) :
    IsCanonicalOf l.normalize l ↔ climb l.steps % 2 = if l.rooted then 0 else climb l.steps := by
  constructor
  · intro h
    exact (canonicalSteps_normalize l).levels_unique h.steps
  · intro h
    refine ⟨rfl, h ▸ canonicalSteps_normalize l, (placeFrom_normalize_iff l).mpr ?_⟩
    split at h
    · exact .inl ‹_›
    · exact .inr (by omega)

/-- The normal form of every path is in canonical order, but it keeps one
step up at most. It is the canonical form of a path that starts at the
root if the path would climb above it by an even number of levels, and
leads to the same place in any case; for a path that does not start at
the root, both hold up to one level. The way between the normal forms of
two such paths is right if they climb equally far, as it is between any
two paths in canonical order, and also if the target climbs one level
further. -/
theorem normalize_canonical_iff (l : Location) :
    (∃ form, ∀ other, IsCanonicalOf other l ↔ other = form) ∧
    CanonicalSteps (climb l.steps % 2) l.normalize.steps ∧
    (IsCanonicalOf l.normalize l ↔
      if l.rooted then climb l.steps % 2 = 0 else climb l.steps ≤ 1) ∧
    ((∀ directory, placeFrom directory l.normalize = placeFrom directory l) ↔
      l.rooted = true ∨ climb l.steps ≤ 1) ∧
    ∀ target, l.rooted = false → target.rooted = false →
      (Leads l target (l.normalize.relative target.normalize) ↔
        climb target.steps = climb l.steps ∨ climb target.steps = climb l.steps + 1) ∧
      ∀ n, CanonicalSteps n l.steps → CanonicalSteps n target.steps →
        Leads l target (l.relative target) := by
  refine ⟨exists_canonical l, canonicalSteps_normalize l, ?_, placeFrom_normalize_iff l,
    fun target ho ht => ⟨leads_relative_normalize_iff ho ht, fun n => leads_relative ho ht⟩⟩
  rw [isCanonicalOf_normalize_iff]
  cases l.rooted with
  | true => simp
  | false =>
    simp only [Bool.false_eq_true, if_false]
    omega

/-- Two levels up and then down. The normal form of such a path has lost
both, so that the way to it from the start leads below the start; the way
from a path that climbs as far is right. One level above the root, the
normal form keeps a step up that leads nowhere. -/
theorem ids_not_canonical :
    let ids := ofString "../../lib/ids.ts"
    let maps := ofString "../../maps"
    let above := ofString "/../lib/ids.ts"
    (ids.normalize = ofString "lib/ids.ts" ∧ ¬IsCanonicalOf ids.normalize ids ∧
      ¬(∀ directory, placeFrom directory ids.normalize = placeFrom directory ids)) ∧
    (¬Leads ⟨false, []⟩ ids ((⟨false, []⟩ : Location).normalize.relative ids.normalize) ∧
      maps.rooted = false ∧ ids.rooted = false ∧
      Leads maps ids (maps.normalize.relative ids.normalize) ∧
      CanonicalSteps 2 maps.steps ∧ CanonicalSteps 2 ids.steps ∧
      Leads maps ids (maps.relative ids)) ∧
    above.normalize = above ∧ ¬IsCanonicalOf above.normalize above ∧
      ∀ directory, placeFrom directory above.normalize = placeFrom directory above := by
  intro ids maps above
  have hids : ids.rooted = false := by decide
  have hmaps : maps.rooted = false := by decide
  have hidsSteps : CanonicalSteps 2 ids.steps :=
    canonicalSteps_iff.mpr ⟨["lib", "ids.ts"], by decide⟩
  have hmapsSteps : CanonicalSteps 2 maps.steps := canonicalSteps_iff.mpr ⟨["maps"], by decide⟩
  obtain ⟨-, -, hform, hplace, -⟩ := normalize_canonical_iff ids
  obtain ⟨-, -, -, -, hstart⟩ := normalize_canonical_iff ⟨false, []⟩
  obtain ⟨-, -, -, -, hways⟩ := normalize_canonical_iff maps
  obtain ⟨-, -, haboveForm, habove, -⟩ := normalize_canonical_iff above
  refine ⟨⟨by decide, mt hform.mp (by decide), mt hplace.mp (by decide)⟩,
    ⟨mt (hstart ids rfl hids).1.mp (by decide), hmaps, hids,
      (hways ids hmaps hids).1.mpr (by decide), hmapsSteps, hidsSteps,
      (hways ids hmaps hids).2 2 hmapsSteps hidsSteps⟩,
    by decide, mt haboveForm.mp (by decide), habove.mpr (by decide)⟩

end TableMapper.Location
