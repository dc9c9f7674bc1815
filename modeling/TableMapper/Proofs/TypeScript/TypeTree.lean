/-
TableMapper.Proofs.TypeScript.TypeTree — types as trees, and when two
trees are the same type.

A tree says how the text of a type is grouped. `Same` holds of trees
that differ in nothing but the grouping of unions within unions and of
intersections within intersections, and in alternatives that come
twice. That it holds of no others than it should is shown by what it
keeps: the words of a tree, and two numbers, `high` and `values`, which
tell a union that stands in an array or in an intersection from one of
which only a part does.
-/
import TableMapper.Proofs.TypeScript.Tokens

namespace TableMapper.TypeScript

/-! ## 1. Trees -/

/-- A type as its text groups it. What stands between braces is kept as
it is. -/
inductive TypeTree where
  | word (s : String)
  | quoted (s : String)
  | braces (content : List Token)
  | array (element : TypeTree)
  | tuple (elements : List TypeTree)
  | union (branches : List TypeTree)
  | intersection (branches : List TypeTree)

namespace TypeTree

/-- Trees of the same type: grouping of unions in unions and of
intersections in intersections does not matter, and neither does an
alternative that was there before. -/
inductive Same : TypeTree → TypeTree → Prop where
  | refl (t : TypeTree) : Same t t
  | symm {s t : TypeTree} : Same s t → Same t s
  | trans {r s t : TypeTree} : Same r s → Same s t → Same r t
  | array {s t : TypeTree} : Same s t → Same (.array s) (.array t)
  | tuple {s t : TypeTree} (before after : List TypeTree) : Same s t →
      Same (.tuple (before ++ s :: after)) (.tuple (before ++ t :: after))
  | union {s t : TypeTree} (before after : List TypeTree) : Same s t →
      Same (.union (before ++ s :: after)) (.union (before ++ t :: after))
  | intersection {s t : TypeTree} (before after : List TypeTree) : Same s t →
      Same (.intersection (before ++ s :: after)) (.intersection (before ++ t :: after))
  | unionOne (t : TypeTree) : Same (.union [t]) t
  | intersectionOne (t : TypeTree) : Same (.intersection [t]) t
  | unionFlat (before after : List TypeTree) {inner : List TypeTree} : inner ≠ [] →
      Same (.union (before ++ .union inner :: after)) (.union (before ++ (inner ++ after)))
  | intersectionFlat (before after : List TypeTree) {inner : List TypeTree} : inner ≠ [] →
      Same (.intersection (before ++ .intersection inner :: after))
        (.intersection (before ++ (inner ++ after)))
  | unionTwice (before between after : List TypeTree) (t : TypeTree) :
      Same (.union (before ++ t :: (between ++ t :: after)))
        (.union (before ++ t :: (between ++ after)))

/-! ## 2. What the same trees have in common -/

mutual

/-- The words in a tree, outside of braces. -/
def words : TypeTree → List String
  | word s => [s]
  | quoted _ => []
  | braces _ => []
  | array element => words element
  | tuple elements => wordsOf elements
  | union branches => wordsOf branches
  | intersection branches => wordsOf branches

/-- The words in several trees. -/
def wordsOf : List TypeTree → List String
  | [] => []
  | t :: rest => words t ++ wordsOf rest

end

mutual

/-- The weight of a tree: an array weighs twice its element, a union as
much as its heaviest branch, and an intersection as much as all of its
branches. -/
def high : TypeTree → Nat
  | word _ => 1
  | quoted _ => 1
  | braces _ => 1
  | tuple _ => 1
  | array element => 2 * high element
  | union branches => highest branches
  | intersection branches => max 1 (total branches)

/-- The weight of the heaviest of several trees. -/
def highest : List TypeTree → Nat
  | [] => 1
  | t :: rest => max (high t) (highest rest)

/-- The weight of several trees. -/
def total : List TypeTree → Nat
  | [] => 0
  | t :: rest => high t + total rest

end

mutual

/-- The weights of the alternatives of a tree. -/
def values : TypeTree → List Nat
  | word _ => [1]
  | quoted _ => [1]
  | braces _ => [1]
  | tuple _ => [1]
  | array element => [2 * high element]
  | union [] => [1]
  | union (t :: rest) => values t ++ valuesOf rest
  | intersection [t] => values t
  | intersection branches => [max 1 (total branches)]

/-- The weights of the alternatives of several trees. -/
def valuesOf : List TypeTree → List Nat
  | [] => []
  | t :: rest => values t ++ valuesOf rest

end

@[simp] theorem wordsOf_append (first second : List TypeTree) :
    wordsOf (first ++ second) = wordsOf first ++ wordsOf second := by
  induction first with
  | nil => rfl
  | cons t first ih => rw [List.cons_append, wordsOf, wordsOf, ih, List.append_assoc]

theorem highest_pos (trees : List TypeTree) : 1 ≤ highest trees := by
  induction trees with
  | nil => exact Nat.le_refl 1
  | cons t rest ih =>
    rw [highest]
    omega

@[simp] theorem highest_append (first second : List TypeTree) :
    highest (first ++ second) = max (highest first) (highest second) := by
  induction first with
  | nil =>
    have := highest_pos second
    rw [List.nil_append, highest]
    omega
  | cons t first ih =>
    rw [List.cons_append, highest, highest, ih]
    omega

@[simp] theorem total_append (first second : List TypeTree) :
    total (first ++ second) = total first + total second := by
  induction first with
  | nil => rw [List.nil_append, total, Nat.zero_add]
  | cons t first ih => rw [List.cons_append, total, total, ih, Nat.add_assoc]

@[simp] theorem valuesOf_append (first second : List TypeTree) :
    valuesOf (first ++ second) = valuesOf first ++ valuesOf second := by
  induction first with
  | nil => rfl
  | cons t first ih => rw [List.cons_append, valuesOf, valuesOf, ih, List.append_assoc]

/-- Every tree weighs something. -/
theorem high_pos : ∀ t : TypeTree, 1 ≤ high t
  | word _ => Nat.le_refl 1
  | quoted _ => Nat.le_refl 1
  | braces _ => Nat.le_refl 1
  | tuple _ => Nat.le_refl 1
  | array element => by
    have := high_pos element
    rw [high]
    omega
  | union branches => highest_pos branches
  | intersection branches => by
    rw [high]
    omega

theorem total_pos {trees : List TypeTree} (h : trees ≠ []) : 1 ≤ total trees := by
  cases trees with
  | nil => exact absurd rfl h
  | cons t rest =>
    have := high_pos t
    rw [total]
    omega

theorem values_union {branches : List TypeTree} (h : branches ≠ []) :
    values (.union branches) = valuesOf branches := by
  cases branches with
  | nil => exact absurd rfl h
  | cons t rest => rw [values, valuesOf]

theorem values_intersection (before after : List TypeTree) (t : TypeTree)
    (h : before ≠ [] ∨ after ≠ []) :
    values (.intersection (before ++ t :: after)) =
      [total before + high t + total after] := by
  have htotal : total (before ++ t :: after) = total before + high t + total after := by
    rw [total_append, total, Nat.add_assoc]
  have hpos := high_pos t
  have hvalues : values (.intersection (before ++ t :: after)) =
      [max 1 (total (before ++ t :: after))] := by
    match before, after with
    | [], [] => simp at h
    | [], _ :: _ => rfl
    | [_], _ => rfl
    | _ :: _ :: _, _ => rfl
  rw [hvalues, htotal]
  congr 1
  omega

/-- What stands in a list twice may stand there once. -/
theorem mem_twice {α : Type} {x : α} (before twice between after : List α) :
    x ∈ before ++ (twice ++ (between ++ (twice ++ after))) ↔
      x ∈ before ++ (twice ++ (between ++ after)) := by
  simp only [List.mem_append]
  constructor
  · rintro (h | h | h | h | h)
    · exact .inl h
    · exact .inr (.inl h)
    · exact .inr (.inr (.inl h))
    · exact .inr (.inl h)
    · exact .inr (.inr (.inr h))
  · rintro (h | h | h | h)
    · exact .inl h
    · exact .inr (.inl h)
    · exact .inr (.inr (.inl h))
    · exact .inr (.inr (.inr (.inr h)))

/-- The same trees have the same words. -/
theorem Same.mem_words {s t : TypeTree} (h : Same s t) : ∀ w, w ∈ words s ↔ w ∈ words t := by
  induction h with
  | refl t => exact fun _ => Iff.rfl
  | symm _ ih => exact fun w => (ih w).symm
  | trans _ _ ih₁ ih₂ => exact fun w => (ih₁ w).trans (ih₂ w)
  | array _ ih => exact ih
  | tuple before after _ ih =>
    intro w
    simp only [words, wordsOf_append, wordsOf, List.mem_append, ih]
  | union before after _ ih =>
    intro w
    simp only [words, wordsOf_append, wordsOf, List.mem_append, ih]
  | intersection before after _ ih =>
    intro w
    simp only [words, wordsOf_append, wordsOf, List.mem_append, ih]
  | unionOne t =>
    intro w
    simp [words, wordsOf]
  | intersectionOne t =>
    intro w
    simp [words, wordsOf]
  | unionFlat before after _ =>
    intro w
    simp only [words, wordsOf_append, wordsOf, List.mem_append]
  | intersectionFlat before after _ =>
    intro w
    simp only [words, wordsOf_append, wordsOf, List.mem_append]
  | unionTwice before between after t =>
    intro w
    simp only [words, wordsOf_append, wordsOf]
    exact mem_twice _ _ _ _

/-- The same trees have the same weight. -/
theorem Same.high_eq {s t : TypeTree} (h : Same s t) : high s = high t := by
  induction h with
  | refl t => rfl
  | symm _ ih => exact ih.symm
  | trans _ _ ih₁ ih₂ => exact ih₁.trans ih₂
  | array _ ih => rw [high, high, ih]
  | tuple before after _ ih => rfl
  | union before after _ ih => rw [high, high, highest_append, highest_append, highest, highest, ih]
  | intersection before after _ ih =>
    rw [high, high, total_append, total_append, total, total, ih]
  | unionOne t =>
    have := high_pos t
    rw [high, highest, highest]
    omega
  | intersectionOne t =>
    have := high_pos t
    rw [high, total, total]
    omega
  | unionFlat before after _ =>
    rw [high, high, highest_append, highest_append, highest, highest_append, high]
  | intersectionFlat before after hinner =>
    have := total_pos hinner
    rw [high, high, total_append, total_append, total, total_append, high]
    omega
  | unionTwice before between after t =>
    rw [high, high, highest_append, highest_append, highest, highest, highest_append,
      highest_append, highest]
    omega

/-- The same trees have alternatives of the same weights. -/
theorem Same.mem_values {s t : TypeTree} (h : Same s t) : ∀ n, n ∈ values s ↔ n ∈ values t := by
  induction h with
  | refl t => exact fun _ => Iff.rfl
  | symm _ ih => exact fun n => (ih n).symm
  | trans _ _ ih₁ ih₂ => exact fun n => (ih₁ n).trans (ih₂ n)
  | array h _ =>
    intro n
    rw [values, values, h.high_eq]
  | tuple before after _ ih => exact fun _ => Iff.rfl
  | union before after _ ih =>
    intro n
    rw [values_union (by simp), values_union (by simp), valuesOf_append, valuesOf_append, valuesOf,
      valuesOf]
    simp only [List.mem_append, ih]
  | intersection before after h ih =>
    intro n
    by_cases hboth : before ≠ [] ∨ after ≠ []
    · rw [values_intersection _ _ _ hboth, values_intersection _ _ _ hboth, h.high_eq]
    · obtain ⟨rfl, rfl⟩ : before = [] ∧ after = [] := by
        simpa only [not_or, not_not] using hboth
      exact ih n
  | unionOne t =>
    intro n
    rw [values, valuesOf, List.append_nil]
  | intersectionOne t => exact fun _ => Iff.rfl
  | unionFlat before after hinner =>
    intro n
    rw [values_union (by simp), values_union (by simp [hinner]), valuesOf_append, valuesOf_append,
      valuesOf, valuesOf_append, values_union hinner]
  | intersectionFlat before after hinner =>
    intro n
    by_cases hboth : before ≠ [] ∨ after ≠ []
    · obtain ⟨t, rest, rfl⟩ := List.exists_cons_of_ne_nil hinner
      have hmore : before ≠ [] ∨ rest ++ after ≠ [] := by
        rcases hboth with h | h
        · exact .inl h
        · exact .inr (by simp [h])
      have hweight : high (.intersection (t :: rest)) = high t + total rest := by
        have := high_pos t
        rw [high, total]
        omega
      rw [values_intersection _ _ _ hboth, List.cons_append, values_intersection _ _ _ hmore,
        hweight, total_append]
      simp only [Nat.add_assoc]
    · obtain ⟨rfl, rfl⟩ : before = [] ∧ after = [] := by
        simpa only [not_or, not_not] using hboth
      rw [List.nil_append, List.nil_append, List.append_nil, values]
  | unionTwice before between after t =>
    intro n
    rw [values_union (by simp), values_union (by simp)]
    simp only [valuesOf_append, valuesOf]
    exact mem_twice _ _ _ _

/-! ## 3. Trees of several -/

/-- The union of alternatives; a single one is none. -/
def unionOf : List TypeTree → TypeTree
  | [t] => t
  | branches => .union branches

/-- The intersection of factors; a single one is none. -/
def intersectionOf : List TypeTree → TypeTree
  | [t] => t
  | branches => .intersection branches

theorem Same.of_unionOf : ∀ branches : List TypeTree, Same (unionOf branches) (.union branches)
  | [] => .refl _
  | [t] => (Same.unionOne t).symm
  | _ :: _ :: _ => .refl _

theorem Same.of_intersectionOf : ∀ branches : List TypeTree,
    Same (intersectionOf branches) (.intersection branches)
  | [] => .refl _
  | [t] => (Same.intersectionOne t).symm
  | _ :: _ :: _ => .refl _

/-- A union of branches may stand in place of these. -/
theorem Same.unionOf_flat (before after : List TypeTree) : ∀ {inner : List TypeTree}, inner ≠ [] →
    Same (.union (before ++ unionOf inner :: after)) (.union (before ++ (inner ++ after)))
  | [], h => absurd rfl h
  | [_], _ => .refl _
  | _ :: _ :: _, h => .unionFlat before after h

/-- An intersection of branches may stand in place of these. -/
theorem Same.intersectionOf_flat (before after : List TypeTree) :
    ∀ {inner : List TypeTree}, inner ≠ [] →
      Same (.intersection (before ++ intersectionOf inner :: after))
        (.intersection (before ++ (inner ++ after)))
  | [], h => absurd rfl h
  | [_], _ => .refl _
  | _ :: _ :: _, h => .intersectionFlat before after h

/-- What keeps trees the same when one branch changes does so when all
of them change. -/
theorem Same.all {build : List TypeTree → TypeTree}
    (hbuild : ∀ {s t : TypeTree} (before after : List TypeTree), Same s t →
      Same (build (before ++ s :: after)) (build (before ++ t :: after))) :
    ∀ {first second : List TypeTree} (before : List TypeTree), List.Forall₂ Same first second →
      Same (build (before ++ first)) (build (before ++ second))
  | _, _, _, .nil => .refl _
  | _, _, before, @List.Forall₂.cons _ _ _ s t first second h hrest => by
    have hall := Same.all hbuild (before ++ [t]) hrest
    rw [List.append_assoc, List.append_assoc] at hall
    exact (hbuild before first h).trans hall

theorem high_unionOf (branches : List TypeTree) : high (unionOf branches) = highest branches :=
  (Same.of_unionOf branches).high_eq

theorem high_intersectionOf (branches : List TypeTree) :
    high (intersectionOf branches) = max 1 (total branches) :=
  (Same.of_intersectionOf branches).high_eq

theorem high_le_highest {branches : List TypeTree} {t : TypeTree} (h : t ∈ branches) :
    high t ≤ highest branches := by
  induction branches with
  | nil => exact absurd h List.not_mem_nil
  | cons s rest ih =>
    rw [highest]
    rcases List.mem_cons.mp h with rfl | h
    · omega
    · have := ih h
      omega

/-- No tree weighs less than all of its alternatives. -/
theorem exists_value_le : ∀ t : TypeTree, ∃ n ∈ values t, n ≤ high t
  | word _ => ⟨1, List.mem_singleton.mpr rfl, Nat.le_refl 1⟩
  | quoted _ => ⟨1, List.mem_singleton.mpr rfl, Nat.le_refl 1⟩
  | braces _ => ⟨1, List.mem_singleton.mpr rfl, Nat.le_refl 1⟩
  | tuple _ => ⟨1, List.mem_singleton.mpr rfl, Nat.le_refl 1⟩
  | array element => ⟨2 * high element, List.mem_singleton.mpr rfl, Nat.le_refl _⟩
  | union [] => ⟨1, List.mem_singleton.mpr rfl, Nat.le_refl 1⟩
  | union (t :: rest) => by
    obtain ⟨n, hn, hle⟩ := exists_value_le t
    have hhigh := high_le_highest (List.mem_cons_self (a := t) (l := rest))
    exact ⟨n, List.mem_append_left _ hn, Nat.le_trans hle hhigh⟩
  | intersection [] => ⟨1, List.mem_singleton.mpr rfl, Nat.le_refl 1⟩
  | intersection [t] => by
    obtain ⟨n, hn, hle⟩ := exists_value_le t
    refine ⟨n, hn, ?_⟩
    rw [(Same.intersectionOne t).high_eq]
    exact hle
  | intersection (s :: t :: rest) => ⟨_, List.mem_singleton.mpr rfl, Nat.le_refl _⟩

end TypeTree

end TableMapper.TypeScript
