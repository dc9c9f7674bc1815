/-
TableMapper.Proofs.Json.Compact — reading a document back from its
compact text.

The compact text of a document is a literal without white space in which
every key is quoted, so the reader of literals reads it. As there, the
recursion is on the document, and fuel for each character is enough.
-/
import TableMapper.Proofs.TypeScript.LiteralGrammar

namespace TableMapper.Json

open TypeScript
open TypeScript.Literal hiding ofText?

/-- The document that a text is. -/
def ofText? (text : String) : Option Json := (Literal.ofText? text).bind toJson?

/-! ## 1. The parts of compact text -/

theorem toList_commas_cons (piece next : String) (pieces : List String) :
    (Text.joinWith "," (piece :: next :: pieces)).toList =
      piece.toList ++ ',' :: (Text.joinWith "," (next :: pieces)).toList :=
  Text.toList_joinWith_cons "," piece next pieces

theorem toList_array (items : List Json) (rest : List Char) :
    (compact (.array items)).toList ++ rest =
      '[' :: ((Text.joinWith "," (compactItems items)).toList ++ ']' :: rest) := by
  simp [compact]

theorem toList_object (fields : Fields Json) (rest : List Char) :
    (compact (.object fields)).toList ++ rest =
      '\x7b' :: ((Text.joinWith "," (compactFields fields)).toList ++ '\x7d' :: rest) := by
  simp [compact]

/-- A quoted key is read as its name. -/
theorem key?_quoted (name : String) (rest : List Char) :
    key? (skipSpace ((Text.quoted name).toList ++ rest)) = some (name, rest) := by
  obtain ⟨cs, hcs⟩ := exists_quoted name rest
  have hread := Text.unquote?_quoted name rest
  rw [hcs] at hread ⊢
  rw [skipSpace_cons rfl, key?, hread]

/-- The key at the front of a field is read up to its colon. -/
theorem key?_field (name : String) (value : Json) (rest : List Char) :
    key? (skipSpace ((Text.quoted name ++ ":" ++ value.compact).toList ++ rest)) =
      some (name, ':' :: (value.compact.toList ++ rest)) := by
  have hcolon : ":".toList = [':'] := rfl
  rw [String.toList_append, String.toList_append, hcolon, List.append_assoc, List.append_assoc]
  exact key?_quoted name _

/-- A field is longer than its value. -/
theorem length_field (name : String) (value : Json) :
    value.compact.toList.length ≤ (Text.quoted name ++ ":" ++ value.compact).toList.length :=
  length_le_append _ _

/-! ## 2. Reading it -/

mutual

/-- A document is read back whatever stands apart from it. -/
theorem value?_compact : ∀ (v : Json) (fuel : Nat) (rest : List Char),
    v.compact.toList.length ≤ fuel → Apart rest →
      value? (fuel + 1) (v.compact.toList ++ rest) = some (ofJson v, rest)
  | .null, _, _ => fun _ hrest =>
    value?_word (isWord_of_isIdentifier (show isIdentifier "null" = true by decide)) rfl hrest
  | .bool true, _, _ => fun _ hrest =>
    value?_word (isWord_of_isIdentifier (show isIdentifier "true" = true by decide)) rfl hrest
  | .bool false, _, _ => fun _ hrest =>
    value?_word (isWord_of_isIdentifier (show isIdentifier "false" = true by decide)) rfl hrest
  | .number n, _, _ => fun _ hrest => value?_word (isWord_numberText n) (ofWord?_numberText n) hrest
  | .string s, _, rest => fun _ _ => value?_quoted s rest
  | .array items, fuel, rest => by
    intro hfuel _
    have hlength := congrArg List.length (toList_array items [])
    simp only [List.append_nil, List.length_cons, List.length_append] at hlength
    rw [toList_array]
    cases items with
    | nil => exact value?_sequence_nil (after?_self rfl rest)
    | cons item items =>
      obtain ⟨fuel, rfl⟩ := Nat.exists_eq_add_one.mpr (show 0 < fuel by omega)
      exact value?_sequence (items?_compactItems (item :: items) (List.cons_ne_nil _ _) _ rest
        (by omega))
  | .object fields, fuel, rest => by
    intro hfuel _
    have hlength := congrArg List.length (toList_object fields [])
    simp only [List.append_nil, List.length_cons, List.length_append] at hlength
    rw [toList_object]
    cases fields with
    | nil => exact value?_mapping_nil (after?_self rfl rest)
    | cons field fields =>
      obtain ⟨fuel, rfl⟩ := Nat.exists_eq_add_one.mpr (show 0 < fuel by omega)
      exact value?_mapping (entries?_compactFields (field :: fields) (List.cons_ne_nil _ _) _ rest
        (by omega))

/-- The items of an array are read back up to its end. -/
theorem items?_compactItems : ∀ (items : List Json), items ≠ [] →
    ∀ (fuel : Nat) (rest : List Char),
      (Text.joinWith "," (compactItems items)).toList.length < fuel →
        items? (fuel + 1) ((Text.joinWith "," (compactItems items)).toList ++ ']' :: rest) =
          some (ofItems items, rest)
  | [], h, _, _ => absurd rfl h
  | [item], _, fuel, rest => by
    intro hfuel
    rw [compactItems, compactItems, Text.joinWith] at hfuel ⊢
    obtain ⟨fuel, rfl⟩ := Nat.exists_eq_add_one.mpr (Nat.zero_lt_of_lt hfuel)
    exact items?_last (value?_compact item fuel _ (by omega) (apart_cons rfl _))
      (after?_of_ne rfl (by decide) rest) (after?_self rfl rest)
  | item :: next :: items, _, fuel, rest => by
    intro hfuel
    rw [compactItems, compactItems, toList_commas_cons] at hfuel ⊢
    rw [List.length_append, List.length_cons] at hfuel
    obtain ⟨fuel, rfl⟩ := Nat.exists_eq_add_one.mpr (Nat.zero_lt_of_lt hfuel)
    have ih := items?_compactItems (next :: items) (List.cons_ne_nil _ _) fuel rest
      (by rw [compactItems]; omega)
    rw [compactItems] at ih
    rw [List.append_assoc, List.cons_append]
    exact items?_cons (value?_compact item fuel _ (by omega) (apart_cons rfl _)) ih

/-- The fields of an object are read back up to its end. -/
theorem entries?_compactFields : ∀ (fields : Fields Json), fields ≠ [] →
    ∀ (fuel : Nat) (rest : List Char),
      (Text.joinWith "," (compactFields fields)).toList.length < fuel →
        entries? (fuel + 1) ((Text.joinWith "," (compactFields fields)).toList ++ '\x7d' :: rest) =
          some (ofFields fields, rest)
  | [], h, _, _ => absurd rfl h
  | [(name, value)], _, fuel, rest => by
    intro hfuel
    rw [compactFields, compactFields, Text.joinWith] at hfuel ⊢
    have hvalue := length_field name value
    obtain ⟨fuel, rfl⟩ := Nat.exists_eq_add_one.mpr (Nat.zero_lt_of_lt hfuel)
    exact entries?_last (key?_field name value _)
      (value?_compact value fuel _ (by omega) (apart_cons rfl _))
      (after?_of_ne rfl (by decide) rest) (after?_self rfl rest)
  | (name, value) :: (next, other) :: fields, _, fuel, rest => by
    intro hfuel
    rw [compactFields, compactFields, toList_commas_cons] at hfuel ⊢
    rw [List.length_append, List.length_cons] at hfuel
    have hvalue := length_field name value
    obtain ⟨fuel, rfl⟩ := Nat.exists_eq_add_one.mpr (Nat.zero_lt_of_lt hfuel)
    have ih := entries?_compactFields ((next, other) :: fields) (List.cons_ne_nil _ _) fuel rest
      (by rw [compactFields]; omega)
    rw [compactFields] at ih
    rw [List.append_assoc, List.cons_append]
    exact entries?_cons (key?_field name value _)
      (value?_compact value fuel _ (by omega) (apart_cons rfl _)) ih

end

/-- A document is read back from its compact text. -/
theorem ofText?_compact (v : Json) : ofText? v.compact = some v := by
  have hnil : Apart [] := fun c hc => absurd hc (by simp)
  have hread := value?_compact v v.compact.toList.length [] le_rfl hnil
  rw [List.append_nil] at hread
  rw [ofText?, Literal.ofText?, hread]
  exact toJson?_ofJson v

end TableMapper.Json
