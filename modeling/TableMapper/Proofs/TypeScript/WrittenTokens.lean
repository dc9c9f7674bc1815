/-
TableMapper.Proofs.TypeScript.WrittenTokens — the tokens of what the
writers write: string literals, numbers, keys of properties, and pieces
joined by a separator.
-/
import TableMapper.Json.Basic
import TableMapper.Proofs.Text.Splitting
import TableMapper.Proofs.TypeScript.Tokens

namespace TableMapper.TypeScript

/-! ## 1. String literals -/

/-- A letter behind a backslash stands for its character. -/
theorem tokensFrom?_letter {letter c : Char} (h : unescape? letter = some c) (hu : letter ≠ 'u')
    (s rest : List Char) :
    tokensFrom? (.quoted s) ('\\' :: letter :: rest) = tokensFrom? (.quoted (s ++ [c])) rest := by
  have hslash : step? (.quoted s) '\\' = some ([], .escaped s) := rfl
  have hletter : step? (.escaped s) letter = some ([], .quoted (s ++ [c])) := by
    rw [step?, if_neg hu, h]
    rfl
  rw [tokensFrom?_silent hslash, tokensFrom?_silent hletter]

theorem hexValue?_hexDigit : ∀ n < 16, hexValue? (Text.hexDigit n) = some n := by decide

/-- Four digits behind `\u` stand for the character of their value. -/
theorem tokensFrom?_code {c : Char} (h : c.toNat < 0x20) (s rest : List Char) :
    tokensFrom? (.quoted s) ('\\' :: 'u' :: '0' :: '0' :: Text.hexDigit (c.toNat / 16) ::
        Text.hexDigit (c.toNat % 16) :: rest) =
      tokensFrom? (.quoted (s ++ [c])) rest := by
  have hslash : step? (.quoted s) '\\' = some ([], .escaped s) := rfl
  have hu : step? (.escaped s) 'u' = some ([], .code s 0 0) := rfl
  have hfirst : step? (.code s 0 0) '0' = some ([], .code s 1 0) := rfl
  have hsecond : step? (.code s 1 0) '0' = some ([], .code s 2 0) := rfl
  have hhigh : step? (.code s 2 0) (Text.hexDigit (c.toNat / 16)) =
      some ([], .code s 3 (c.toNat / 16)) := by
    simp [step?, hexValue?_hexDigit (c.toNat / 16) (by omega)]
  have hlow : step? (.code s 3 (c.toNat / 16)) (Text.hexDigit (c.toNat % 16)) =
      some ([], .quoted (s ++ [c])) := by
    simp only [step?, hexValue?_hexDigit (c.toNat % 16) (by omega), Option.map_some, if_pos]
    rw [Nat.div_add_mod, Char.ofNat_toNat]
  rw [tokensFrom?_silent hslash, tokensFrom?_silent hu, tokensFrom?_silent hfirst,
    tokensFrom?_silent hsecond, tokensFrom?_silent hhigh, tokensFrom?_silent hlow]

/-- The written form of a character is read as the character. -/
theorem tokensFrom?_escape (c : Char) (s rest : List Char) :
    tokensFrom? (.quoted s) (Text.escape c ++ rest) = tokensFrom? (.quoted (s ++ [c])) rest := by
  unfold Text.escape
  split
  · next h =>
    subst h
    exact tokensFrom?_letter rfl (by decide) s rest
  · next hquote =>
  split
  · next h =>
    subst h
    exact tokensFrom?_letter rfl (by decide) s rest
  · next hslash =>
  split
  · next h =>
    subst h
    exact tokensFrom?_letter rfl (by decide) s rest
  · split
    · next h =>
      subst h
      exact tokensFrom?_letter rfl (by decide) s rest
    · split
      · next h =>
        subst h
        exact tokensFrom?_letter rfl (by decide) s rest
      · split
        · next h =>
          have hc : c = Char.ofNat 0x08 := by rw [← h, Char.ofNat_toNat]
          exact tokensFrom?_letter (hc ▸ rfl) (by decide) s rest
        · split
          · next h =>
            have hc : c = Char.ofNat 0x0c := by rw [← h, Char.ofNat_toNat]
            exact tokensFrom?_letter (hc ▸ rfl) (by decide) s rest
          · split
            · next h => exact tokensFrom?_code h s rest
            · next h =>
              have hstep : step? (.quoted s) c = some ([], .quoted (s ++ [c])) := by
                rw [step?, if_neg hquote, if_neg hslash, if_neg h]
              exact tokensFrom?_silent hstep rest

/-- The content of a string literal is collected up to its end. -/
theorem tokensFrom?_quoted (cs s rest : List Char) :
    tokensFrom? (.quoted s) (cs.flatMap Text.escape ++ '"' :: rest) =
      (tokensFrom? .between rest).map ([.quoted (String.ofList (s ++ cs))] ++ ·) := by
  induction cs generalizing s with
  | nil =>
    have hstep : step? (.quoted s) '"' = some ([.quoted (String.ofList s)], .between) := rfl
    rw [List.flatMap_nil, List.nil_append, tokensFrom?_cons, hstep, List.append_nil]
  | cons c cs ih =>
    rw [List.flatMap_cons, List.append_assoc, tokensFrom?_escape, ih, List.append_assoc]
    rfl

/-- A string literal is read as its content, whatever follows. -/
theorem closes_quoted (s : String) : Closes (Text.quoted s).toList [.quoted s] := by
  intro rest
  have hstep : step? .between '"' = some ([], .quoted []) := rfl
  rw [Text.quoted, String.toList_ofList, List.cons_append, List.cons_append,
    tokensFrom?_silent hstep, List.append_assoc, List.singleton_append, tokensFrom?_quoted,
    List.nil_append, String.ofList_toList]

/-! ## 2. Numbers -/

theorem isWordPart_of_isDigit {c : Char} (h : c.isDigit = true) : isWordPart c = true := by
  simp [isWordPart, isIdentifierPart, h]

theorem isWordPart_of_mem_digitsOf {n : Nat} {c : Char} (h : c ∈ Decimal.digitsOf n) :
    isWordPart c = true :=
  isWordPart_of_isDigit (Nat.isDigit_of_mem_toDigits (by decide) (by decide) h)

theorem digitsOf_ne_nil (n : Nat) : Decimal.digitsOf n ≠ [] := Nat.toDigits_ne_nil

theorem isWordPart_of_mem_zero {c : Char} (h : c ∈ ['0', '.', '0']) : isWordPart c = true := by
  rcases List.mem_cons.mp h with rfl | h
  · decide
  · rcases List.mem_cons.mp h with rfl | h
    · decide
    · rw [List.mem_singleton.mp h]
      decide

/-- A decimal in positional notation is made of parts of a word. -/
theorem isWordPart_of_mem_positional {d : Decimal} {c : Char} (h : c ∈ d.positional) :
    isWordPart c = true := by
  unfold Decimal.positional at h
  have hzero : ∀ {n : Nat}, c ∈ List.replicate n '0' → isWordPart c = true := fun hc => by
    rw [List.eq_of_mem_replicate hc]
    decide
  split at h
  · rcases List.mem_append.mp h with h | h
    · rcases List.mem_append.mp h with h | h
      · exact isWordPart_of_mem_digitsOf h
      · exact hzero h
    · exact isWordPart_of_mem_zero (List.mem_cons_of_mem '0' h)
  · simp only at h
    split at h
    · rcases List.mem_append.mp h with h | h
      · exact isWordPart_of_mem_digitsOf (List.mem_of_mem_take h)
      · rcases List.mem_cons.mp h with rfl | h
        · decide
        · exact isWordPart_of_mem_digitsOf (List.mem_of_mem_drop h)
    · rcases List.mem_append.mp h with h | h
      · rcases List.mem_cons.mp h with rfl | h
        · decide
        · rcases List.mem_cons.mp h with rfl | h
          · decide
          · exact hzero h
      · exact isWordPart_of_mem_digitsOf h

/-- A decimal in scientific notation is made of parts of a word. -/
theorem isWordPart_of_mem_scientific {d : Decimal} {c : Char} (h : c ∈ d.scientific) :
    isWordPart c = true := by
  unfold Decimal.scientific at h
  have hdigits : ∀ c ∈ Decimal.digitsOf d.digits, isWordPart c = true :=
    fun c hc => isWordPart_of_mem_digitsOf hc
  rcases List.mem_append.mp h with h | h
  · split at h
    · exact absurd h List.not_mem_nil
    · next first hs => exact hdigits c (hs ▸ h)
    · next first rest _ hs =>
      rcases List.mem_cons.mp h with rfl | h
      · exact hdigits _ (hs ▸ List.mem_cons_self)
      · rcases List.mem_cons.mp h with rfl | h
        · decide
        · exact hdigits c (hs ▸ List.mem_cons_of_mem first h)
  · rcases List.mem_cons.mp h with rfl | h
    · decide
    · rcases List.mem_cons.mp h with rfl | h
      · split <;> decide
      · exact isWordPart_of_mem_digitsOf h

theorem positional_ne_nil (d : Decimal) : d.positional ≠ [] := by
  unfold Decimal.positional
  split
  · simp
  · simp only
    split <;> simp

theorem scientific_ne_nil (d : Decimal) : d.scientific ≠ [] := by
  unfold Decimal.scientific
  simp

/-- A list of characters that is a word behind a sign. -/
theorem isWord_ofList_sign {x : Binary64} {cs : List Char} (hne : cs ≠ [])
    (h : ∀ c ∈ cs, isWordPart c = true) : IsWord (String.ofList (x.signText ++ cs)) := by
  rw [IsWord, String.toList_ofList]
  constructor
  · intro hnil
    exact hne (List.append_eq_nil_iff.mp hnil).2
  · intro c hc
    rcases List.mem_append.mp hc with hc | hc
    · unfold Binary64.signText at hc
      split at hc
      · rw [List.mem_singleton.mp hc]
        decide
      · exact absurd hc List.not_mem_nil
    · exact h c hc

/-- The text of a number is a word. -/
theorem isWord_numberText : ∀ n : Number, IsWord n.text
  | .whole (.ofNat n) => by
    rw [Number.text, Number.wholeText, IsWord, String.toList_ofList]
    exact ⟨digitsOf_ne_nil n, fun c hc => isWordPart_of_mem_digitsOf hc⟩
  | .whole (.negSucc n) => by
    rw [Number.text, Number.wholeText, IsWord, String.toList_ofList]
    refine ⟨List.cons_ne_nil _ _, fun c hc => ?_⟩
    rcases List.mem_cons.mp hc with rfl | hc
    · decide
    · exact isWordPart_of_mem_digitsOf hc
  | .double x => by
    rw [Number.text, Binary64.text]
    split
    · next hzero =>
      rw [Binary64.positionalText, if_pos hzero]
      exact isWord_ofList_sign (List.cons_ne_nil _ _) fun c hc => isWordPart_of_mem_zero hc
    · refine isWord_ofList_sign ?_ ?_
      · split
        · exact positional_ne_nil _
        · exact scientific_ne_nil _
      · split
        · exact fun c hc => isWordPart_of_mem_positional hc
        · exact fun c hc => isWordPart_of_mem_scientific hc

/-! ## 3. Keys -/

/-- The token of a property key. -/
def keyToken (name : String) : Token := if isIdentifier name then .word name else .quoted name

theorem spells_propertyKey (name : String) : Spells (propertyKey name).toList [keyToken name] := by
  unfold propertyKey keyToken
  split
  · next h => exact spells_word (isWord_of_isIdentifier h)
  · exact (closes_quoted name).spells

/-- The key that a token is. -/
def Token.key? : Token → Option String
  | .word s => some s
  | .quoted s => some s
  | .mark _ => none

theorem Token.key?_keyToken (name : String) : (keyToken name).key? = some name := by
  unfold keyToken
  split <;> rfl

/-! ## 4. Pieces with a separator -/

/-- The tokens of pieces with a mark between neighbours. -/
def separated (mark : Char) : List (List Token) → List Token
  | [] => []
  | [tokens] => tokens
  | tokens :: rest => tokens ++ .mark mark :: separated mark rest

theorem separated_cons (mark : Char) (tokens next : List Token) (rest : List (List Token)) :
    separated mark (tokens :: next :: rest) =
      tokens ++ .mark mark :: separated mark (next :: rest) := rfl

/-- Pieces that are joined by a separator spell their tokens with the
mark of the separator in between. -/
theorem spells_joinWith {separator : String} {first : Char} {others : List Char} {mark : Char}
    (hs : separator.toList = first :: others) (hfirst : isWordPart first = false)
    (hsep : Closes separator.toList [.mark mark]) :
    ∀ {texts : List String} {pieces : List (List Token)},
      List.Forall₂ (fun text tokens => Spells text.toList tokens) texts pieces →
        Spells (Text.joinWith separator texts).toList (separated mark pieces)
  | _, _, .nil => Closes.nil.spells
  | _, _, .cons h .nil => h
  | _, _, .cons h (.cons hnext hrest) => by
    have ih := spells_joinWith hs hfirst hsep (.cons hnext hrest)
    rw [Text.toList_joinWith_cons]
    refine h.append ?_ (hsep.append_spells ih)
    rw [hs, List.cons_append]
    exact apart_cons hfirst _

end TableMapper.TypeScript
