/-
TableMapper.Proofs.Location.Place — the place that a location leads to,
and what the arithmetic of locations does to it.

A place is the list of names from the root on. Steps are followed one
after the other, and the root is its own parent. `follow_normalize` says
that a normal form leads to the same place, and `follow_back` that the
steps up at the front of a relative way lead to what two locations have
in common. The normal form of a rooted path may keep one `..` behind the
root; `NormalSteps` is the invariant that bounds this.
-/
import TableMapper.Location

namespace TableMapper.Location

/-! ## 1. Following steps -/

/-- The place where steps lead from a place. -/
def follow (place : List String) : List Step → List String
  | [] => place
  | .here :: steps => follow place steps
  | .up :: steps => follow place.dropLast steps
  | .name s :: steps => follow (place ++ [s]) steps

/-- The place of a location that is seen from a directory. -/
def placeFrom (directory : List String) (l : Location) : List String :=
  follow (if l.rooted then [] else directory) l.steps

theorem follow_append (place : List String) (steps others : List Step) :
    follow place (steps ++ others) = follow (follow place steps) others := by
  induction steps generalizing place with
  | nil => rfl
  | cons step steps ih =>
    cases step with
    | here => exact ih place
    | up => exact ih place.dropLast
    | name s => exact ih (place ++ [s])

/-- Steps that stay lead nowhere. -/
theorem follow_filter_here (place : List String) (steps : List Step) :
    follow place (steps.filter (· ≠ .here)) = follow place steps := by
  induction steps generalizing place with
  | nil => rfl
  | cons step steps ih =>
    cases step with
    | here => simpa [follow] using ih place
    | up => simpa [follow] using ih place.dropLast
    | name s => simpa [follow] using ih (place ++ [s])

theorem follow_names (place names : List String) :
    follow place (names.map .name) = place ++ names := by
  induction names generalizing place with
  | nil => simp [follow]
  | cons s names ih =>
    rw [List.map_cons, follow, ih]
    simp

/-- Joining to a rooted base is seeing from the place of the base. -/
theorem placeFrom_join {base : Location} (hb : base.rooted = true) (target : Location)
    (directory : List String) :
    placeFrom directory (base.join target) = placeFrom (follow [] base.steps) target := by
  unfold join placeFrom
  cases ht : target.rooted with
  | true => simp [ht]
  | false => simp [hb, follow_append, ← follow_filter_here (follow [] base.steps) target.steps]

theorem join_rooted {base : Location} (hb : base.rooted = true) (target : Location) :
    (base.join target).rooted = true := by
  unfold join
  cases ht : target.rooted <;> simp [hb, ht]

/-! ## 2. Normal forms -/

/-- Steps in normal form: names, with at most one step up before
them. -/
def NormalSteps (steps : List Step) : Prop :=
  ∃ names : List String, steps = names.map .name ∨ steps = .up :: names.map .name

theorem NormalSteps.nil : NormalSteps [] := ⟨[], .inl rfl⟩

/-- A step up at the end of steps in normal form is the same as no last
step at all, once it has been taken from the root. -/
theorem follow_dropLast {steps : List Step} (h : NormalSteps steps) :
    follow [] steps.dropLast = (follow [] steps).dropLast := by
  obtain ⟨names, rfl | rfl⟩ := h
  · rw [← List.map_dropLast, follow_names, follow_names]
    simp
  · cases names with
    | nil => rfl
    | cons s names =>
      rw [List.map_cons, List.dropLast_cons_cons, ← List.map_cons, ← List.map_dropLast]
      simp only [follow, List.dropLast_nil]
      rw [follow_names, follow_names]
      simp

theorem NormalSteps.dropLast {steps : List Step} (h : NormalSteps steps) :
    NormalSteps steps.dropLast := by
  obtain ⟨names, rfl | rfl⟩ := h
  · exact ⟨names.dropLast, .inl List.map_dropLast.symm⟩
  · cases names with
    | nil => exact ⟨[], .inl rfl⟩
    | cons s names => exact ⟨(s :: names).dropLast, .inr (by simp [List.map_dropLast])⟩

/-- Only the first of steps in normal form leads up. -/
theorem NormalSteps.eq_nil_of_up {steps : List Step} (h : NormalSteps (steps ++ [.up])) :
    steps = [] := by
  obtain ⟨names, h | h⟩ := h
  · have : Step.up ∈ names.map Step.name := h ▸ by simp
    simp at this
  · cases steps with
    | nil => rfl
    | cons step steps =>
      have : Step.up ∈ names.map Step.name := (List.cons.inj h).2 ▸ by simp
      simp at this

/-- One step keeps the normal form. -/
theorem NormalSteps.walk {steps : List Step} (h : NormalSteps steps) (step : Step) :
    NormalSteps (walk steps step) := by
  cases step with
  | here => exact h
  | up =>
    show NormalSteps (if steps.isEmpty then [.up] else steps.dropLast)
    split
    · exact ⟨[], .inr rfl⟩
    · exact h.dropLast
  | name s =>
    obtain ⟨names, rfl | rfl⟩ := h
    · exact ⟨names ++ [s], .inl (by simp [Location.walk])⟩
    · exact ⟨names ++ [s], .inr (by simp [Location.walk])⟩

/-- One step of the normal form leads where the step leads. -/
theorem follow_walk {steps : List Step} (h : NormalSteps steps) (step : Step) :
    follow [] (walk steps step) = follow (follow [] steps) [step] := by
  cases step with
  | here => rfl
  | up =>
    show follow [] (if steps.isEmpty then [.up] else steps.dropLast) = _
    split
    · next he =>
      rw [List.isEmpty_iff.mp he]
      rfl
    · exact follow_dropLast h
  | name s => exact follow_append [] steps [.name s]

theorem follow_foldl_walk :
    ∀ {acc : List Step} (_ : NormalSteps acc) (steps : List Step),
      NormalSteps (steps.foldl walk acc) ∧
        follow [] (steps.foldl walk acc) = follow (follow [] acc) steps
  | _, h, [] => ⟨h, rfl⟩
  | acc, h, step :: steps => by
    obtain ⟨hn, hf⟩ := follow_foldl_walk (h.walk step) steps
    refine ⟨hn, ?_⟩
    rw [List.foldl_cons, hf, follow_walk h step, ← follow_append]
    rfl

theorem normalSteps_normalize (l : Location) : NormalSteps l.normalize.steps :=
  (follow_foldl_walk .nil l.steps).1

/-- The normal form of a rooted path leads to the same place. -/
theorem follow_normalize (l : Location) : follow [] l.normalize.steps = follow [] l.steps :=
  (follow_foldl_walk .nil l.steps).2

/-- The normal form of what is joined to a rooted base leads to the
place that is seen from the base. -/
theorem follow_normalize_join {base : Location} (hb : base.rooted = true) (l : Location) :
    follow [] (base.join l).normalize.steps = placeFrom (follow [] base.steps) l := by
  rw [follow_normalize, ← placeFrom_join hb l []]
  unfold placeFrom
  rw [join_rooted hb l]
  rfl

/-- The directory of a rooted path in normal form, which for the root is
the root. -/
theorem parent?_spec {file : Location} (hr : file.rooted = true) (hn : NormalSteps file.steps) :
    (file.parent?.getD ⟨true, []⟩).rooted = true ∧
      NormalSteps (file.parent?.getD ⟨true, []⟩).steps ∧
      follow [] (file.parent?.getD ⟨true, []⟩).steps = (follow [] file.steps).dropLast := by
  unfold parent?
  split
  · next he =>
    rw [List.isEmpty_iff.mp he]
    exact ⟨rfl, .nil, rfl⟩
  · exact ⟨hr, hn.dropLast, follow_dropLast hn⟩

/-! ## 3. Relative ways -/

/-- What is removed from the start of both lists is the same. -/
theorem dropCommon_eq :
    ∀ as bs : List Step, ∃ common, as = common ++ (dropCommon as bs).1 ∧
      bs = common ++ (dropCommon as bs).2
  | [], bs => ⟨[], by simp [dropCommon]⟩
  | a :: as, [] => ⟨[], by simp [dropCommon]⟩
  | a :: as, b :: bs => by
    unfold dropCommon
    split
    · next h =>
      subst h
      obtain ⟨common, h₁, h₂⟩ := dropCommon_eq as bs
      exact ⟨a :: common, by rw [List.cons_append, ← h₁], by rw [List.cons_append, ← h₂]⟩
    · exact ⟨[], rfl, rfl⟩

theorem follow_ups (place : List String) (n : Nat) :
    follow place (List.replicate n .up) = place.take (place.length - n) := by
  induction n generalizing place with
  | zero => simp [follow]
  | succ n ih =>
    rw [List.replicate_succ, follow, ih, List.dropLast_eq_take, List.take_take, List.length_take]
    congr 1
    omega

/-- As many steps up as there are behind a common start lead back to
that start. -/
theorem follow_back {common back : List Step} (h : NormalSteps (common ++ back)) :
    follow (follow [] (common ++ back)) (List.replicate back.length .up) = follow [] common := by
  rw [follow_ups]
  obtain ⟨names, h | h⟩ := h
  · obtain ⟨first, rest, rfl, rfl, rfl⟩ := List.map_eq_append_iff.mp h.symm
    rw [← List.map_append, follow_names, follow_names]
    simp
  · cases common with
    | nil =>
      -- the step up at the root is taken back as well, which changes nothing
      rw [List.nil_append] at h
      subst h
      simp [follow, follow_names]
    | cons step common =>
      obtain ⟨rfl, hnames⟩ := List.cons.inj h
      obtain ⟨first, rest, rfl, rfl, rfl⟩ := List.map_eq_append_iff.mp hnames.symm
      simp only [List.cons_append, follow, List.dropLast_nil]
      rw [← List.map_append, follow_names, follow_names]
      simp

/-- What lies behind a common start is names, or the way up from the
root with names behind it. -/
theorem NormalSteps.append_right {common forth : List Step} (h : NormalSteps (common ++ forth)) :
    (∃ names : List String, forth = names.map .name) ∨ ∃ steps, forth = .up :: steps := by
  obtain ⟨names, h | h⟩ := h
  · obtain ⟨-, rest, -, -, rfl⟩ := List.map_eq_append_iff.mp h.symm
    exact .inl ⟨rest, rfl⟩
  · cases common with
    | nil => exact .inr ⟨_, h⟩
    | cons step common =>
      obtain ⟨-, rest, -, -, rfl⟩ := List.map_eq_append_iff.mp (List.cons.inj h).2.symm
      exact .inl ⟨rest, rfl⟩

/-- The way between two locations that both start at the root, or both do
not: as many steps up as the first has behind the common start, and then
those that the second has there. -/
theorem relative_mk (rooted : Bool) (back forth : List Step) :
    (⟨rooted, back⟩ : Location).relative ⟨rooted, forth⟩ =
      ⟨false, List.replicate (dropCommon back forth).1.length .up ++ (dropCommon back forth).2⟩ := by
  cases rooted <;> simp [relative, List.map_const']

/-- The steps of a way between rooted locations: as many up as lie
behind the common start, and then those to the target. -/
theorem relative_eq {origin target : Location} (ho : origin.rooted = true)
    (ht : target.rooted = true) :
    ∃ common back forth, origin.steps = common ++ back ∧ target.steps = common ++ forth ∧
      origin.relative target = ⟨false, List.replicate back.length .up ++ forth⟩ := by
  obtain ⟨common, hback, hforth⟩ := dropCommon_eq origin.steps target.steps
  refine ⟨common, _, _, hback, hforth, ?_⟩
  cases origin
  cases target
  subst ho ht
  exact relative_mk true _ _

end TableMapper.Location
