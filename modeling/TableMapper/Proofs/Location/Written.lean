/-
TableMapper.Proofs.Location.Written — the written form of locations:
parts between slashes read back as the steps they stand for.
-/
import TableMapper.Proofs.Location.Place
import TableMapper.Proofs.Text.Splitting

namespace TableMapper.Location

/-! ## 1. Proper names -/

/-- A name that is a single step when it is written down. -/
def ProperName (s : String) : Prop := '/' ∉ s.toList ∧ stepOf? s.toList = some (.name s)

/-- All names among steps are proper. -/
def ProperSteps (steps : List Step) : Prop := ∀ s, .name s ∈ steps → ProperName s

theorem properName_of_stepOf? {part : List Char} (hslash : '/' ∉ part) {s : String}
    (h : stepOf? part = some (.name s)) : ProperName s := by
  have hs : s = String.ofList part := by
    unfold stepOf? at h
    split at h
    · exact absurd h (by simp)
    · split at h
      · exact absurd h (by simp)
      · exact (Step.name.inj (Option.some.inj h)).symm
  subst hs
  rw [ProperName, String.toList_ofList]
  exact ⟨hslash, h⟩

theorem properSteps_filterMap_splitOn (cs : List Char) {parts : List (List Char)}
    (hparts : ∀ part ∈ parts, part ∈ Text.splitOn '/' cs) :
    ProperSteps (parts.filterMap stepOf?) := by
  intro s hs
  obtain ⟨part, hmem, hstep⟩ := List.mem_filterMap.mp hs
  exact properName_of_stepOf? (Text.notMem_of_mem_splitOn (hparts part hmem)) hstep

/-- What is read from a text has proper names. -/
theorem properSteps_ofString (path : String) : ProperSteps (ofString path).steps := by
  unfold ofString
  split
  · next first second rest heq =>
    exact properSteps_filterMap_splitOn path.toList fun part hp =>
      heq ▸ List.mem_cons_of_mem _ hp
  · next rest heq =>
    intro s hs
    rcases List.mem_cons.mp hs with hs | hs
    · exact absurd hs (by simp)
    · exact properSteps_filterMap_splitOn path.toList
        (fun part hp => heq ▸ List.mem_cons_of_mem _ hp) s hs
  · exact properSteps_filterMap_splitOn path.toList fun part hp => hp

theorem ProperSteps.of_subset {steps others : List Step} (h : ProperSteps others)
    (hsub : ∀ step ∈ steps, step ∈ others) : ProperSteps steps :=
  fun s hs => h s (hsub _ hs)

theorem ProperSteps.append {steps others : List Step} (h : ProperSteps steps)
    (ho : ProperSteps others) : ProperSteps (steps ++ others) := by
  intro s hs
  rcases List.mem_append.mp hs with hs | hs
  · exact h s hs
  · exact ho s hs

/-- Steps up do not change which names there are. -/
theorem ProperSteps.behind_ups {steps : List Step} (h : ProperSteps steps) (n : Nat) :
    ProperSteps (List.replicate n .up ++ steps) :=
  ProperSteps.append (fun _ hmem => absurd (List.eq_of_mem_replicate hmem) (by simp)) h

theorem properSteps_join {base target : Location} (hb : ProperSteps base.steps)
    (ht : ProperSteps target.steps) : ProperSteps (base.join target).steps := by
  unfold join
  split
  · exact ht
  · split
    · exact ht
    · exact hb.append (ht.of_subset fun step h => (List.mem_filter.mp h).1)

/-- One step brings no other names. -/
theorem ProperSteps.walk {steps : List Step} (h : ProperSteps steps) {step : Step}
    (hstep : ProperSteps [step]) : ProperSteps (walk steps step) := by
  cases step with
  | here => exact h
  | up =>
    show ProperSteps (if steps.isEmpty then [.up] else steps.dropLast)
    split
    · exact hstep
    · exact h.of_subset fun _ hm => (List.dropLast_sublist _).subset hm
  | name s => exact h.append hstep

theorem properSteps_foldl_walk :
    ∀ {acc steps : List Step}, ProperSteps acc → ProperSteps steps →
      ProperSteps (steps.foldl Location.walk acc)
  | _, [], ha, _ => ha
  | acc, step :: steps, ha, hs => by
    have hstep : ProperSteps [step] := hs.of_subset (by simp)
    have hsteps : ProperSteps steps := hs.of_subset fun _ hm => List.mem_cons_of_mem _ hm
    rw [List.foldl_cons]
    exact properSteps_foldl_walk (ha.walk hstep) hsteps

theorem properSteps_normalize {l : Location} (h : ProperSteps l.steps) :
    ProperSteps l.normalize.steps :=
  properSteps_foldl_walk (fun _ h => absurd h List.not_mem_nil) h

/-! ## 2. Reading back -/

/-- Steps of a normal form read back from their written forms. -/
theorem filterMap_stepOf?_text :
    ∀ {steps : List Step}, ProperSteps steps → .here ∉ steps →
      (steps.map Step.text).filterMap (fun part => stepOf? part.toList) = steps
  | [], _, _ => rfl
  | step :: steps, h, hh => by
    have ih := filterMap_stepOf?_text (h.of_subset fun _ hm => List.mem_cons_of_mem _ hm)
      (fun hm => hh (List.mem_cons_of_mem _ hm))
    cases step with
    | here => exact absurd List.mem_cons_self hh
    | up =>
      rw [List.map_cons, List.filterMap_cons, ih]
      rfl
    | name s =>
      have hs : stepOf? (Step.name s).text.toList = some (.name s) := (h s List.mem_cons_self).2
      rw [List.map_cons, List.filterMap_cons, hs, ih]

theorem slash_notMem_text {steps : List Step} (h : ProperSteps steps) :
    ∀ part ∈ steps.map Step.text, '/' ∉ part.toList := by
  intro part hp
  obtain ⟨step, hm, rfl⟩ := List.mem_map.mp hp
  cases step with
  | here => decide
  | up => decide
  | name s => exact (h s hm).1

theorem NormalSteps.here_notMem {steps : List Step} (h : NormalSteps steps) : .here ∉ steps := by
  obtain ⟨names, rfl | rfl⟩ := h <;> simp

/-- Parts between slashes, the first of them not empty, are a path that
leads where the steps of its parts lead. -/
theorem follow_ofString_joinWith (parts : List String) (hne : parts.head? ≠ some "")
    (hnil : parts ≠ []) (hslash : ∀ part ∈ parts, '/' ∉ part.toList) (place : List String) :
    placeFrom place (ofString (Text.joinWith "/" parts)) =
      follow place (parts.filterMap fun part => stepOf? part.toList) := by
  have hsplit := Text.splitOn_joinWith_slash hnil hslash
  have hmap : (parts.filterMap fun part => stepOf? part.toList) =
      (parts.map String.toList).filterMap stepOf? := by
    rw [List.filterMap_map]
    rfl
  rw [hmap, ← hsplit]
  unfold ofString
  split
  · next second rest heq =>
    -- a first part that is empty
    cases parts with
    | nil => exact absurd rfl hnil
    | cons part parts =>
      rw [hsplit, List.map_cons] at heq
      have : part = "" := String.toList_eq_nil_iff.mp (List.cons.inj heq).1
      exact absurd (congrArg some this) hne
  · next rest heq =>
    rw [heq]
    rfl
  · rfl

end TableMapper.Location
