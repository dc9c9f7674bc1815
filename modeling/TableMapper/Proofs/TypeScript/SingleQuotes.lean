/-
TableMapper.Proofs.TypeScript.SingleQuotes — string literals between
single quotes.

`Content` has one rule for each way in which a part of a literal can be
written, as the grammar of the language has it: a character that stands
for itself, the escapes, and a line that is continued. A value is a list
of UTF-16 code units, as strings are in the language.

An escape is always longer than what it stands for, so a content that
stands for its own characters has none (`content_units_iff`). A text
between two quotes is therefore a literal for itself exactly if all of
its characters may stand bare (`firstLiteral_iff`).
-/
import TableMapper.Proofs.Text.Splitting
import TableMapper.Proofs.Text.Unquoting

namespace TableMapper.TypeScript

/-! ## 1. Values -/

/-- The code units of a code point: one, or a pair of surrogates. -/
def codeUnits (n : Nat) : List Nat :=
  if n < 0x10000 then [n] else [0xd800 + (n - 0x10000) / 0x400, 0xdc00 + (n - 0x10000) % 0x400]

/-- The code units of characters. -/
def units (cs : List Char) : List Nat := cs.flatMap fun c => codeUnits c.toNat

theorem codeUnits_length_pos (n : Nat) : 1 ≤ (codeUnits n).length := by
  unfold codeUnits
  split <;> simp

theorem codeUnits_length_le (n : Nat) : (codeUnits n).length ≤ 2 := by
  unfold codeUnits
  split <;> simp

theorem units_cons (c : Char) (cs : List Char) : units (c :: cs) = codeUnits c.toNat ++ units cs :=
  List.flatMap_cons

theorem units_append (cs ds : List Char) : units (cs ++ ds) = units cs ++ units ds :=
  List.flatMap_append

/-- There is at least one code unit for each character. -/
theorem length_le_length_units (cs : List Char) : cs.length ≤ (units cs).length := by
  induction cs with
  | nil => exact Nat.zero_le _
  | cons c cs ih =>
    have := codeUnits_length_pos c.toNat
    rw [units_cons, List.length_append, List.length_cons]
    omega

/-! ## 2. Literals -/

/-- Editions of the language: the later ones let the line separator and
the paragraph separator stand in a literal. -/
inductive Edition where
  | before2019
  | since2019
deriving DecidableEq, Repr

/-- The characters that end a line. -/
def isLineEnd (c : Char) : Bool := c = '\n' || c = '\r' || c = '\u2028' || c = '\u2029'

/-- Whether a character may stand for itself between single quotes. -/
def Edition.allows (edition : Edition) (c : Char) : Bool :=
  c ≠ '\'' && c ≠ '\\' && c ≠ '\n' && c ≠ '\r' &&
    (edition = .since2019 || (c ≠ '\u2028' && c ≠ '\u2029'))

/-- The control character that a letter behind a backslash stands
for. -/
def controlOf? : Char → Option Nat
  | 'b' => some 0x08
  | 't' => some 0x09
  | 'n' => some 0x0a
  | 'v' => some 0x0b
  | 'f' => some 0x0c
  | 'r' => some 0x0d
  | _ => none

/-- The number that hexadecimal digits are, of which there is at least
one. -/
def hexNumber? (digits : List Char) : Option Nat :=
  if digits.isEmpty then none
  else (digits.mapM Text.hexValue?).map (·.foldl (fun n digit => 16 * n + digit) 0)

/-- What stands between the quotes of a literal, and the code units that
it stands for. Modules have no escapes by octal digits. -/
inductive Content (edition : Edition) : List Char → List Nat → Prop where
  | nil : Content edition [] []
  | bare {c : Char} {cs : List Char} {value : List Nat} : edition.allows c = true →
      Content edition cs value → Content edition (c :: cs) (codeUnits c.toNat ++ value)
  | control {letter : Char} {n : Nat} {cs : List Char} {value : List Nat} :
      controlOf? letter = some n → Content edition cs value →
      Content edition ('\\' :: letter :: cs) (n :: value)
  | self {c : Char} {cs : List Char} {value : List Nat} : controlOf? c = none →
      c ≠ 'x' → c ≠ 'u' → c.isDigit = false → isLineEnd c = false → Content edition cs value →
      Content edition ('\\' :: c :: cs) (codeUnits c.toNat ++ value)
  | null {cs : List Char} {value : List Nat} : (∀ c ∈ cs.head?, c.isDigit = false) →
      Content edition cs value → Content edition ('\\' :: '0' :: cs) (0 :: value)
  | byte {a b : Char} {m n : Nat} {cs : List Char} {value : List Nat} :
      Text.hexValue? a = some m → Text.hexValue? b = some n → Content edition cs value →
      Content edition ('\\' :: 'x' :: a :: b :: cs) ((16 * m + n) :: value)
  | unit {a b c d : Char} {n : Nat} {cs : List Char} {value : List Nat} :
      Text.codeUnit? a b c d = some n → Content edition cs value →
      Content edition ('\\' :: 'u' :: a :: b :: c :: d :: cs) (n :: value)
  | codePoint {digits : List Char} {n : Nat} {cs : List Char} {value : List Nat} :
      hexNumber? digits = some n → n ≤ 0x10ffff → Content edition cs value →
      Content edition ('\\' :: 'u' :: '\x7b' :: (digits ++ '\x7d' :: cs)) (codeUnits n ++ value)
  | continued {c : Char} {cs : List Char} {value : List Nat} : isLineEnd c = true →
      Content edition cs value → Content edition ('\\' :: c :: cs) value
  | continuedTwo {cs : List Char} {value : List Nat} : Content edition cs value →
      Content edition ('\\' :: '\r' :: '\n' :: cs) value

/-- The first literal of a text is complete and has the value. -/
def FirstLiteral (edition : Edition) (text : List Char) (value : List Nat) : Prop :=
  ∃ before content after, text = before ++ '\'' :: content ++ '\'' :: after ∧ '\'' ∉ before ∧
    Content edition content value

/-! ## 3. Literals that stand for themselves -/

section Contents

variable {edition : Edition} {cs : List Char} {value : List Nat}

/-- Characters that may stand bare are a content for themselves. -/
theorem content_units (h : ∀ c ∈ cs, edition.allows c = true) :
    Content edition cs (units cs) := by
  induction cs with
  | nil => exact .nil
  | cons c cs ih =>
    rw [List.forall_mem_cons] at h
    exact .bare h.1 (ih h.2)

/-- The value is that of the characters themselves, which may all stand
bare, or it has fewer code units than they have. -/
def BareOrLonger (edition : Edition) (cs : List Char) (value : List Nat) : Prop :=
  (∀ c ∈ cs, edition.allows c = true) ∧ value = units cs ∨ value.length < (units cs).length

theorem BareOrLonger.length_le (h : BareOrLonger edition cs value) :
    value.length ≤ (units cs).length := by
  rcases h with ⟨-, rfl⟩ | h
  · exact Nat.le_refl _
  · exact Nat.le_of_lt h

/-- Behind an escape that is longer than what it stands for, a content
is longer than its value. -/
theorem BareOrLonger.escape (h : BareOrLonger edition cs value) (escape : List Char)
    (meant : List Nat) (hlonger : meant.length < (units escape).length) :
    BareOrLonger edition (escape ++ cs) (meant ++ value) := by
  have hle := h.length_le
  right
  rw [units_append, List.length_append, List.length_append]
  omega

/-- A content with an escape has more code units than its value. -/
theorem Content.bareOrLonger (h : Content edition cs value) :
    BareOrLonger edition cs value := by
  have hcount : ∀ {escape : List Char} {n : Nat}, n < escape.length → n < (units escape).length :=
    fun h => Nat.lt_of_lt_of_le h (length_le_length_units _)
  induction h with
  | nil => exact .inl ⟨fun _ h => absurd h List.not_mem_nil, rfl⟩
  | @bare c cs value hc _ ih =>
    rcases ih with ⟨hall, rfl⟩ | hlonger
    · exact .inl ⟨List.forall_mem_cons.mpr ⟨hc, hall⟩, (units_cons c cs).symm⟩
    · right
      rw [units_cons, List.length_append, List.length_append]
      omega
  | @control letter n _ _ _ _ ih => exact ih.escape ['\\', letter] [n] (hcount (by simp))
  | @self c _ _ _ _ _ _ _ _ ih =>
    refine ih.escape ['\\', c] (codeUnits c.toNat) ?_
    have hslash : (codeUnits '\\'.toNat).length = 1 := rfl
    rw [units_cons, units_cons, List.length_append, List.length_append]
    omega
  | null _ _ ih => exact ih.escape ['\\', '0'] [0] (hcount (by simp))
  | @byte a b m n _ _ _ _ _ ih =>
    exact ih.escape ['\\', 'x', a, b] [16 * m + n] (hcount (by simp))
  | @unit a b c d n _ _ _ _ ih => exact ih.escape ['\\', 'u', a, b, c, d] [n] (hcount (by simp))
  | @codePoint digits n cs _ _ _ _ ih =>
    have hle := codeUnits_length_le n
    have hlonger := ih.escape ('\\' :: 'u' :: '\x7b' :: (digits ++ ['\x7d'])) (codeUnits n)
      (hcount (by simp; omega))
    simpa using hlonger
  | @continued c _ _ _ _ ih => exact ih.escape ['\\', c] [] (hcount (by simp))
  | continuedTwo _ ih => exact ih.escape ['\\', '\r', '\n'] [] (hcount (by simp))

/-- A content stands for its own characters exactly if all of them may
stand bare. -/
theorem content_units_iff :
    Content edition cs (units cs) ↔ ∀ c ∈ cs, edition.allows c = true := by
  constructor
  · intro h
    rcases h.bareOrLonger with ⟨hall, -⟩ | hlonger
    · exact hall
    · exact absurd hlonger (Nat.lt_irrefl _)
  · exact content_units

end Contents

/-! ## 4. Texts between quotes -/

section Texts

variable {edition : Edition} {before path after : List Char}

/-- A content that is closed by a quote before the last one is part of
the text up to that. -/
theorem prefix_of_closed {content rest : List Char} (hafter : '\'' ∉ after)
    (h : path ++ '\'' :: after = content ++ '\'' :: rest) : content <+: path := by
  rcases List.append_eq_append_iff.mp h with ⟨between, rfl, hrest⟩ | ⟨between, rfl, -⟩
  · cases between with
    | nil => exact ⟨[], by simp⟩
    | cons c between =>
      have hmem : '\'' ∈ between ++ '\'' :: rest := List.mem_append_right _ List.mem_cons_self
      rw [List.cons_append, List.cons.injEq] at hrest
      exact absurd (hrest.2 ▸ hmem) hafter
  · exact List.prefix_append _ _

/-- A text between the first two quotes and the last one of a line is a
literal for itself exactly if all its characters may stand bare. -/
theorem firstLiteral_iff (hbefore : '\'' ∉ before) (hafter : '\'' ∉ after) :
    FirstLiteral edition (before ++ '\'' :: path ++ '\'' :: after) (units path) ↔
      ∀ c ∈ path, edition.allows c = true := by
  constructor
  · rintro ⟨front, content, rest, htext, hfront, hcontent⟩
    rw [List.append_assoc, List.cons_append, List.append_assoc, List.cons_append] at htext
    have hsplit := Text.splitAtFirst?_eq_some_iff.mpr ⟨htext, hfront⟩
    rw [Text.splitAtFirst?_eq_some_iff.mpr ⟨rfl, hbefore⟩, Option.some.injEq, Prod.mk.injEq]
      at hsplit
    obtain ⟨more, rfl⟩ := prefix_of_closed hafter hsplit.2
    have hmore := length_le_length_units more
    have hlength := hcontent.bareOrLonger.length_le
    rw [units_append, List.length_append] at hlength
    -- nothing is left for what would stand behind the content
    have hnone : more = [] := List.eq_nil_of_length_eq_zero (by omega)
    rw [hnone, List.append_nil] at hcontent ⊢
    exact content_units_iff.mp hcontent
  · intro hall
    exact ⟨before, path, after, rfl, hbefore, content_units hall⟩

end Texts

end TableMapper.TypeScript
