/-
TableMapper.Proofs.Text.Unquoting — reading a string literal back.

The reader knows every escape of a JSON string: a letter behind a
backslash, and the four hexadecimal digits of a UTF-16 code unit, two of
which may be one character. `unquote?_quoted` says that it gets back the
content of a literal that was written, whatever stands behind it.
-/
import TableMapper.Text.Quoted

namespace TableMapper.Text

/-! ## 1. The reader -/

/-- The character that a character behind a backslash stands for. -/
def unescape? : Char → Option Char
  | '"' => some '"'
  | '\\' => some '\\'
  | '/' => some '/'
  | 'n' => some '\n'
  | 'r' => some '\r'
  | 't' => some '\t'
  | 'b' => some (Char.ofNat 0x08)
  | 'f' => some (Char.ofNat 0x0c)
  | _ => none

/-- The value of a hexadecimal digit. -/
def hexValue? (c : Char) : Option Nat :=
  if '0' ≤ c ∧ c ≤ '9' then some (c.toNat - '0'.toNat)
  else if 'a' ≤ c ∧ c ≤ 'f' then some (c.toNat - 'a'.toNat + 10)
  else if 'A' ≤ c ∧ c ≤ 'F' then some (c.toNat - 'A'.toNat + 10)
  else none

/-- The code unit that four hexadecimal digits are. -/
def codeUnit? (a b c d : Char) : Option Nat :=
  (hexValue? a).bind fun a => (hexValue? b).bind fun b => (hexValue? c).bind fun c =>
    (hexValue? d).map fun d => 16 * (16 * (16 * a + b) + c) + d

/-- The content of a string literal up to its closing quote, and the
rest behind that. A character counts by its number, and a code unit by
its value. -/
def content? : List Char → Option (List Nat × List Char)
  | '"' :: rest => some ([], rest)
  | '\\' :: 'u' :: a :: b :: c :: d :: rest =>
    (codeUnit? a b c d).bind fun unit =>
      (content? rest).map fun (units, rest) => (unit :: units, rest)
  | '\\' :: letter :: rest =>
    (unescape? letter).bind fun c =>
      (content? rest).map fun (units, rest) => (c.toNat :: units, rest)
  | c :: rest =>
    if c.toNat < 0x20 then none
    else (content? rest).map fun (units, rest) => (c.toNat :: units, rest)
  | [] => none

/-- The first of the two code units of a character. -/
def isHighSurrogate (unit : Nat) : Bool := 0xd800 ≤ unit && unit < 0xdc00

/-- The second of the two code units of a character. -/
def isLowSurrogate (unit : Nat) : Bool := 0xdc00 ≤ unit && unit < 0xe000

/-- Half of a character. -/
def isSurrogate (unit : Nat) : Bool := isHighSurrogate unit || isLowSurrogate unit

/-- The characters of a content; the two code units of a character stand
next to each other. -/
def characters? : List Nat → Option (List Char)
  | high :: low :: units =>
    if isHighSurrogate high && isLowSurrogate low then
      (characters? units).map
        (Char.ofNat (0x10000 + (high - 0xd800) * 0x400 + (low - 0xdc00)) :: ·)
    else if isSurrogate high then none
    else (characters? (low :: units)).map (Char.ofNat high :: ·)
  | [unit] => if isSurrogate unit then none else some [Char.ofNat unit]
  | [] => some []

/-- The content of the string literal that a text begins with, and the
rest behind it. -/
def unquote? : List Char → Option (String × List Char)
  | '"' :: cs =>
    (content? cs).bind fun (units, rest) =>
      (characters? units).map fun s => (String.ofList s, rest)
  | _ => none

/-! ## 2. Escapes -/

/-- A character behind a backslash stands for another. -/
theorem content?_letter {letter c : Char} (h : unescape? letter = some c) (hu : letter ≠ 'u')
    (rest : List Char) :
    content? ('\\' :: letter :: rest) =
      (content? rest).map fun (units, rest) => (c.toNat :: units, rest) := by
  rw [content?, h, Option.bind_some]
  exact fun _ _ _ _ _ heq _ => hu heq

theorem hexValue?_hexDigit : ∀ n < 16, hexValue? (hexDigit n) = some n := by decide

/-- Four digits behind `\u` stand for the character of their value. -/
theorem content?_code {c : Char} (h : c.toNat < 0x20) (rest : List Char) :
    content? ('\\' :: 'u' :: '0' :: '0' :: hexDigit (c.toNat / 16) ::
        hexDigit (c.toNat % 16) :: rest) =
      (content? rest).map fun (units, rest) => (c.toNat :: units, rest) := by
  have hunit : codeUnit? '0' '0' (hexDigit (c.toNat / 16)) (hexDigit (c.toNat % 16)) =
      some c.toNat := by
    have hzero : hexValue? '0' = some 0 := rfl
    simp only [codeUnit?, hzero, hexValue?_hexDigit (c.toNat / 16) (by omega),
      hexValue?_hexDigit (c.toNat % 16) (by omega), Option.bind_some, Option.map_some]
    congr 1
    omega
  rw [content?, hunit, Option.bind_some]

/-- The written form of a character is read as the character. -/
theorem content?_escape (c : Char) (rest : List Char) :
    content? (escape c ++ rest) =
      (content? rest).map fun (units, rest) => (c.toNat :: units, rest) := by
  have hletter : ∀ {letter d : Char}, unescape? letter = some d → letter ≠ 'u' → c = d →
      content? (['\\', letter] ++ rest) =
        (content? rest).map fun (units, rest) => (c.toNat :: units, rest) :=
    fun h hu hc => hc ▸ content?_letter h hu rest
  have hcontrol : ∀ {n : Nat}, c.toNat = n → c = Char.ofNat n :=
    fun h => by rw [← h, Char.ofNat_toNat]
  unfold escape
  split
  · next h => exact hletter rfl (by decide) h
  · next hquote =>
  split
  · next h => exact hletter rfl (by decide) h
  · next hslash =>
  split
  · next h => exact hletter rfl (by decide) h
  · split
    · next h => exact hletter rfl (by decide) h
    · split
      · next h => exact hletter rfl (by decide) h
      · split
        · next h => exact hletter rfl (by decide) (hcontrol h)
        · split
          · next h => exact hletter rfl (by decide) (hcontrol h)
          · split
            · next h => exact content?_code h rest
            · next h =>
              rw [List.singleton_append, content?, if_neg h]
              · exact hquote
              · exact fun _ _ _ _ _ hc _ => hslash hc
              · exact fun _ _ hc _ => hslash hc

/-! ## 3. Literals -/

/-- The characters of a content that was written are read up to the
closing quote. -/
theorem content?_flatMap_escape (cs rest : List Char) :
    content? (cs.flatMap escape ++ '"' :: rest) = some (cs.map Char.toNat, rest) := by
  induction cs with
  | nil => rw [List.flatMap_nil, List.nil_append, content?, List.map_nil]
  | cons c cs ih => rw [List.flatMap_cons, List.append_assoc, content?_escape, ih]; rfl

theorem isSurrogate_toNat (c : Char) : isSurrogate c.toNat = false := by
  have hvalid : c.toNat < 0xd800 ∨ 0xdfff < c.toNat := by
    rcases c.valid with h | h
    · exact .inl h
    · exact .inr h.1
  simp only [isSurrogate, isHighSurrogate, isLowSurrogate, Bool.or_eq_false_iff,
    Bool.and_eq_false_iff, decide_eq_false_iff_not]
  omega

/-- No character is half of another. -/
theorem characters?_map_toNat : ∀ cs : List Char, characters? (cs.map Char.toNat) = some cs
  | [] => rfl
  | [c] => by simp [characters?, isSurrogate_toNat]
  | c :: d :: cs => by
    have hhigh : isHighSurrogate c.toNat = false :=
      (Bool.or_eq_false_iff.mp (isSurrogate_toNat c)).1
    have ih := characters?_map_toNat (d :: cs)
    rw [List.map_cons] at ih
    simp [characters?, isSurrogate_toNat, hhigh, ih]

/-- A string literal is read as its content, whatever follows. -/
theorem unquote?_quoted (s : String) (rest : List Char) :
    unquote? ((quoted s).toList ++ rest) = some (s, rest) := by
  rw [quoted, String.toList_ofList, List.append_assoc, List.cons_append, List.singleton_append,
    unquote?, content?_flatMap_escape, Option.bind_some]
  simp only [characters?_map_toNat, Option.map_some, String.ofList_toList]

/-- Two code units are one character. -/
example : unquote? "\"\\ud83d\\uDE00\"".toList = some ("😀", []) := by decide

end TableMapper.Text
