/-
TableMapper.Proofs.JsonSchema.Candidates — the name that an enumeration
gets.

Candidates are tried one after the other until one fits (`Settles`), and
one always does. A candidate fits among the enumerations of a whole run
if and only if it did when it was chosen, since what is known never
changes: so the name depends on the enumerations that are known in the
end, and on nothing that happened before (`nameEnumeration_eq`).
-/
import Mathlib.Data.List.Nodup
import TableMapper.Proofs.JsonSchema.Enumerations

namespace TableMapper.JsonSchema

open TypeScript (TypeExpr Enumeration)

/-! ## 1. Trying candidates -/

/-- From the candidate of an index on, candidates are tried until one
fits, which is `e`. -/
inductive Settles (known : List Enumeration) (base : String) (members : List (String × Json)) :
    Nat → Enumeration → Prop where
  | fits {index : Nat} (h : nameFits known ⟨candidateName base index, members⟩ = true) :
    Settles known base members index ⟨candidateName base index, members⟩
  | next {index : Nat} {e : Enumeration}
    (h : nameFits known ⟨candidateName base index, members⟩ = false)
    (hrest : Settles known base members (index + 1) e) : Settles known base members index e

section Candidates

variable {known : List Enumeration} {base : String} {members : List (String × Json)}

/-- Where no candidate before fits, the search goes on as it did. -/
theorem Settles.of_before {e : Enumeration} {last : Nat} (h : Settles known base members last e)
    {first : Nat} (hle : first ≤ last)
    (hbefore : ∀ index, first ≤ index → index < last →
      nameFits known ⟨candidateName base index, members⟩ = false) :
    Settles known base members first e := by
  induction hle with
  | refl => exact h
  | @step last hle ih =>
    refine ih (.next (hbefore last hle (Nat.lt_succ_self last)) h) ?_
    intro index hfirst hlast
    exact hbefore index hfirst (Nat.lt_succ_of_lt hlast)

/-- A search ends at one candidate only. -/
theorem Settles.unique {first : Nat} {e other : Enumeration}
    (h : Settles known base members first e) (h' : Settles known base members first other) :
    e = other := by
  induction h with
  | fits hfits =>
    cases h' with
    | fits _ => rfl
    | next hnot _ => rw [hfits] at hnot; cases hnot
  | next hnot _ ih =>
    cases h' with
    | fits hfits => rw [hfits] at hnot; cases hnot
    | next _ hrest => exact ih hrest

/-- A search ends at a candidate with the members, and passes over those
only that do not fit. -/
theorem Settles.exists_first {first : Nat} {e : Enumeration}
    (h : Settles known base members first e) :
    ∃ last, e = ⟨candidateName base last, members⟩ ∧ ∀ index, first ≤ index → index < last →
      nameFits known ⟨candidateName base index, members⟩ = false := by
  induction h with
  | @fits index _ => exact ⟨index, rfl, fun _ hle hlt => absurd hlt (Nat.not_lt.mpr hle)⟩
  | @next first e hnot _ ih =>
    obtain ⟨last, he, hbefore⟩ := ih
    refine ⟨last, he, fun index hle hlt => ?_⟩
    rcases Nat.eq_or_lt_of_le hle with rfl | hle
    · exact hnot
    · exact hbefore index hle hlt

/-- The search for a name ends, at the enumeration that is declared or
referred to. -/
theorem settles_nameEnumeration (known : List Enumeration) (base : String)
    (members : List (String × Json)) :
    Settles known base members 0 (nameEnumeration known base members) := by
  have hfits := (nameEnumeration_fits known base members).1
  revert hfits
  unfold nameEnumeration
  simp only
  -- with no candidate that fits, the last one would not fit either
  cases hfind : ((List.range (known.length + 1)).map fun index =>
      Enumeration.mk (candidateName base index) members).find? (nameFits known) with
  | none =>
    intro hfits
    have hlast := List.find?_eq_none.mp hfind _
      (List.mem_map_of_mem (List.mem_range.mpr (Nat.lt_succ_self known.length)))
    exact absurd hfits hlast
  | some e =>
    intro _
    rw [List.find?_map, Option.map_eq_some_iff] at hfind
    obtain ⟨index, hindex, rfl⟩ := hfind
    rw [List.find?_range_eq_some] at hindex
    refine Settles.of_before (.fits hindex.1) (Nat.zero_le index) ?_
    intro earlier _ hearlier
    simpa using hindex.2.2 earlier hearlier

theorem nameFits_congr {e other : Enumeration} (hname : e.name = other.name)
    (hwritten : e.writtenMembers = other.writtenMembers) :
    nameFits known e = nameFits known other := by
  unfold nameFits
  rw [hname, hwritten]

/-- The search looks at how members are written, and at nothing else of
them. -/
theorem Settles.congr {others : List (String × Json)} {first : Nat} {e : Enumeration}
    (h : Settles known base members first e)
    (hwritten : ∀ name, Enumeration.writtenMembers ⟨name, members⟩ =
      Enumeration.writtenMembers ⟨name, others⟩) :
    Settles known base others first ⟨e.name, others⟩ := by
  have hsame : ∀ name, nameFits known ⟨name, others⟩ = nameFits known ⟨name, members⟩ :=
    fun name => nameFits_congr rfl (hwritten name).symm
  induction h with
  | fits hfits => exact .fits ((hsame _).trans hfits)
  | next hnot _ ih => exact .next ((hsame _).trans hnot) ih

end Candidates

/-! ## 2. Names among those that are known in the end -/

theorem name_of_find? {known : List Enumeration} {name : String} {found : Enumeration}
    (h : known.find? (·.name == name) = some found) : found.name = name := by
  simpa using List.find?_some h

/-- What is called as an enumeration is one with its members, if no name
is given twice. -/
theorem nameFits_iff {known : List Enumeration} {e : Enumeration}
    (hnodup : (known.map Enumeration.name).Nodup) :
    nameFits known e = true ↔
      ∀ other ∈ known, other.name = e.name → other.writtenMembers = e.writtenMembers := by
  unfold nameFits
  split
  · next hnone =>
    refine ⟨fun _ other hother hname => ?_, fun _ => rfl⟩
    exact absurd (beq_iff_eq.mpr hname) (List.find?_eq_none.mp hnone other hother)
  · next found hfound =>
    have hmem := List.mem_of_find?_eq_some hfound
    have hname := name_of_find? hfound
    rw [beq_iff_eq]
    constructor
    · intro hwritten other hother hsame
      rw [List.inj_on_of_nodup_map hnodup hother hmem (hsame.trans hname.symm)]
      exact hwritten
    · intro hall
      exact hall found hmem hname

/-- A name that does not fit is that of an enumeration with other
members. -/
theorem exists_of_nameFits_eq_false {known : List Enumeration} {e : Enumeration}
    (h : nameFits known e = false) :
    ∃ other ∈ known, other.name = e.name ∧ other.writtenMembers ≠ e.writtenMembers := by
  unfold nameFits at h
  split at h
  · cases h
  · next found hfound =>
    exact ⟨found, List.mem_of_find?_eq_some hfound, name_of_find? hfound,
      beq_eq_false_iff_ne.mp h⟩

section Final

variable {known final : List Enumeration} {base : String} {members : List (String × Json)}
  (hnodup : (final.map Enumeration.name).Nodup)

include hnodup

/-- A search among some enumerations ends as among more of them, if the
one that was chosen is there. -/
theorem Settles.of_subset {first : Nat} {e : Enumeration}
    (h : Settles known base members first e) (hsub : known ⊆ final)
    (hchosen : ∃ x ∈ final, x.name = e.name ∧ x.writtenMembers = e.writtenMembers) :
    Settles final base members first e := by
  induction h with
  | fits _ =>
    obtain ⟨x, hx, hname, hwritten⟩ := hchosen
    refine .fits ((nameFits_iff hnodup).mpr fun other hother hsame => ?_)
    rw [List.inj_on_of_nodup_map hnodup hother hx (hsame.trans hname.symm)]
    exact hwritten
  | next hnot _ ih =>
    refine .next ?_ (ih hchosen)
    obtain ⟨other, hother, hname, hwritten⟩ := exists_of_nameFits_eq_false hnot
    rw [← Bool.not_eq_true, nameFits_iff hnodup]
    exact fun hall => hwritten (hall other (hsub hother) hname)

/-- The enumeration that was chosen is the one that would be chosen
among all that are known in the end. -/
theorem nameEnumeration_eq
    (hafter : ((declareEnumeration base members).run known).2 <+: final) :
    nameEnumeration known base members = nameEnumeration final base members := by
  have hsub : known ⊆ final := ((prefix_relation.step base members known).trans hafter).subset
  obtain ⟨x, hx, hname, hwritten⟩ := exists_declareEnumeration base members known
  rw [declareEnumeration_run] at hname
  have hname : (nameEnumeration known base members).name = x.name := TypeExpr.name.inj hname
  have hmembers := (nameEnumeration_fits known base members).2
  have hchosen : ∃ x ∈ final, x.name = (nameEnumeration known base members).name ∧
      x.writtenMembers = (nameEnumeration known base members).writtenMembers := by
    refine ⟨x, hafter.subset hx, hname.symm, ?_⟩
    rw [hwritten, Enumeration.writtenMembers, Enumeration.writtenMembers, hmembers]
  have hsettles := (settles_nameEnumeration known base members).of_subset hnodup hsub hchosen
  exact hsettles.unique (settles_nameEnumeration final base members)

end Final

end TableMapper.JsonSchema
