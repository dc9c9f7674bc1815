/-
TableMapper.Proofs.TypeScript.LiteralGrammar — reading a literal back as
the value that it is.

The grammar is that of JSON, with `undefined` as a further value and
identifiers as further keys; white space between tokens does not count.
`render_reads_back` says that the reader gets back every literal, in
whatever place it was written, and so every JSON document.
-/
import Mathlib.Logic.Function.Basic
import TableMapper.Proofs.Number.Reading
import TableMapper.Proofs.Text.Splitting
import TableMapper.Proofs.Text.Unquoting
import TableMapper.Proofs.TypeScript.WrittenTokens
import TableMapper.TypeScript.Literal

namespace TableMapper.TypeScript.Literal

/-! ## 1. The reader -/

/-- The text from its first token on. -/
def skipSpace (cs : List Char) : List Char := cs.dropWhile isSpace

/-- What stands behind a mark that is the next token. -/
def after? (mark : Char) (cs : List Char) : Option (List Char) :=
  match skipSpace cs with
  | c :: rest => if c = mark then some rest else none
  | [] => none

/-- The word that comes next, and the rest. -/
def wordOf (cs : List Char) : String × List Char :=
  (String.ofList (cs.takeWhile isWordPart), cs.dropWhile isWordPart)

/-- The value that a word is. -/
def ofWord? (word : String) : Option Literal :=
  if word = "undefined" then some undefined
  else if word = "null" then some null
  else if word = "true" then some (bool true)
  else if word = "false" then some (bool false)
  else (Number.read? word).map number

/-- The value without parts that a text begins with, and the rest. -/
def scalar? : List Char → Option (Literal × List Char)
  | '"' :: cs => (Text.unquote? ('"' :: cs)).map fun (s, rest) => (text s, rest)
  | cs => (ofWord? (wordOf cs).1).map fun literal => (literal, (wordOf cs).2)

/-- The key that a text begins with, and the rest. -/
def key? : List Char → Option (String × List Char)
  | '"' :: cs => Text.unquote? ('"' :: cs)
  | cs => if isIdentifier (wordOf cs).1 then some (wordOf cs) else none

mutual

/-- The value that a text begins with, and the rest. -/
def value? : Nat → List Char → Option (Literal × List Char)
  | 0, _ => none
  | fuel + 1, cs =>
    match after? '[' cs with
    | some cs =>
      match after? ']' cs with
      | some rest => some (sequence [], rest)
      | none => do
        let (items, rest) ← items? fuel cs
        some (sequence items, rest)
    | none =>
      match after? '\x7b' cs with
      | some cs =>
        match after? '\x7d' cs with
        | some rest => some (mapping [], rest)
        | none => do
          let (entries, rest) ← entries? fuel cs
          some (mapping entries, rest)
      | none => scalar? (skipSpace cs)

/-- The items up to the end of a sequence, at least one, and the rest
behind the end. -/
def items? : Nat → List Char → Option (List Literal × List Char)
  | 0, _ => none
  | fuel + 1, cs => do
    let (item, rest) ← value? fuel cs
    match after? ',' rest with
    | some rest => do
      let (items, rest) ← items? fuel rest
      some (item :: items, rest)
    | none => do
      let rest ← after? ']' rest
      some ([item], rest)

/-- The entries up to the end of a mapping, at least one, and the rest
behind the end. -/
def entries? : Nat → List Char → Option (Fields Literal × List Char)
  | 0, _ => none
  | fuel + 1, cs => do
    let (key, rest) ← key? (skipSpace cs)
    let rest ← after? ':' rest
    let (value, rest) ← value? fuel rest
    match after? ',' rest with
    | some rest => do
      let (entries, rest) ← entries? fuel rest
      some ((key, value) :: entries, rest)
    | none => do
      let rest ← after? '\x7d' rest
      some ([(key, value)], rest)

end

/-- The literal that a whole text is. A container takes two steps and has
two brackets, a further item or entry takes one step and has a comma, so
fuel for each character is enough. -/
def ofText? (text : String) : Option Literal := do
  let (literal, rest) ← value? (text.toList.length + 1) text.toList
  if (skipSpace rest).isEmpty then some literal else none

/-! ## 2. White space and marks -/

theorem skipSpace_cons_of_isSpace {c : Char} (h : isSpace c = true) (cs : List Char) :
    skipSpace (c :: cs) = skipSpace cs := List.dropWhile_cons_of_pos h

theorem skipSpace_cons {c : Char} (h : isSpace c = false) (cs : List Char) :
    skipSpace (c :: cs) = c :: cs := List.dropWhile_cons_of_neg (by simp [h])

theorem skipSpace_newLine (cs : List Char) : skipSpace ('\n' :: cs) = skipSpace cs :=
  skipSpace_cons_of_isSpace rfl cs

theorem skipSpace_indent (level : Nat) (cs : List Char) :
    skipSpace ((Text.indent level).toList ++ cs) = skipSpace cs := by
  refine List.dropWhile_append_of_pos ?_
  intro c hc
  rw [Text.indent, String.toList_ofList] at hc
  rw [List.eq_of_mem_replicate hc]
  rfl

theorem after?_congr {cs ds : List Char} (h : skipSpace cs = skipSpace ds) (mark : Char) :
    after? mark cs = after? mark ds := by
  rw [after?, after?, h]

theorem after?_self {mark : Char} (h : isSpace mark = false) (rest : List Char) :
    after? mark (mark :: rest) = some rest := by
  rw [after?, skipSpace_cons h]
  exact if_pos rfl

theorem after?_of_ne {mark c : Char} (h : isSpace c = false) (hne : c ≠ mark) (rest : List Char) :
    after? mark (c :: rest) = none := by
  rw [after?, skipSpace_cons h]
  exact if_neg hne

/-- A mark that comes next is the first token. -/
theorem skipSpace_of_after? {mark : Char} {cs rest : List Char} (h : after? mark cs = some rest) :
    skipSpace cs = mark :: rest := by
  rw [after?] at h
  split at h
  · next c others hcs =>
    rw [hcs]
    split at h
    · next hc => rw [hc, Option.some.inj h]
    · cases h
  · cases h

/-- White space before a value does not count. -/
theorem value?_congr {cs ds : List Char} (h : skipSpace cs = skipSpace ds) :
    ∀ fuel : Nat, value? fuel cs = value? fuel ds
  | 0 => rfl
  | fuel + 1 => by rw [value?, value?, after?_congr h, after?_congr h, h]

theorem items?_congr {cs ds : List Char} (h : skipSpace cs = skipSpace ds) :
    ∀ fuel : Nat, items? fuel cs = items? fuel ds
  | 0 => rfl
  | fuel + 1 => by rw [items?, items?, value?_congr h]

theorem entries?_congr {cs ds : List Char} (h : skipSpace cs = skipSpace ds) :
    ∀ fuel : Nat, entries? fuel cs = entries? fuel ds
  | 0 => rfl
  | fuel + 1 => by rw [entries?, entries?, h]

variable {fuel : Nat}

/-! ## 3. Values without parts, and keys -/

theorem wordOf_append {s : String} (h : IsWord s) {rest : List Char} (hrest : Apart rest) :
    wordOf (s.toList ++ rest) = (s, rest) := by
  rw [wordOf, Text.takeWhile_run h.2 hrest, Text.dropWhile_run h.2 hrest, String.ofList_toList]

/-- What does not open a container is a value without parts. -/
theorem value?_eq_scalar? {c : Char} (hspace : isSpace c = false) (hsequence : c ≠ '[')
    (hmapping : c ≠ '\x7b') (cs : List Char) :
    value? (fuel + 1) (c :: cs) = scalar? (c :: cs) := by
  rw [value?, after?_of_ne hspace hsequence, after?_of_ne hspace hmapping, skipSpace_cons hspace]

theorem exists_quoted (s : String) (rest : List Char) :
    ∃ cs, (Text.quoted s).toList ++ rest = '"' :: cs := by
  rw [Text.quoted, String.toList_ofList]
  exact ⟨_, rfl⟩

/-- A string literal is read as its content. -/
theorem value?_quoted (s : String) (rest : List Char) :
    value? (fuel + 1) ((Text.quoted s).toList ++ rest) = some (text s, rest) := by
  obtain ⟨cs, hcs⟩ := exists_quoted s rest
  have hread := Text.unquote?_quoted s rest
  rw [hcs] at hread ⊢
  rw [value?_eq_scalar? rfl (by decide) (by decide), scalar?, hread, Option.map_some]

/-- A word begins with a part of it, and so with no other token. -/
theorem exists_front {s : String} (h : IsWord s) :
    ∃ c cs, s.toList = c :: cs ∧ isSpace c = false ∧
      ∀ mark : Char, isWordPart mark = false → c ≠ mark := by
  obtain ⟨hne, hparts⟩ := h
  cases hs : s.toList with
  | nil => exact absurd hs hne
  | cons c cs =>
    have hc : isWordPart c = true := hparts c (hs ▸ List.mem_cons_self)
    exact ⟨c, cs, rfl, isSpace_eq_false hc, fun mark hmark heq =>
      Bool.false_ne_true (hmark.symm.trans (heq ▸ hc))⟩

/-- A word is read as its value. -/
theorem value?_word {s : String} {literal : Literal} (h : IsWord s)
    (hvalue : ofWord? s = some literal) {rest : List Char} (hrest : Apart rest) :
    value? (fuel + 1) (s.toList ++ rest) = some (literal, rest) := by
  have hword := wordOf_append h hrest
  obtain ⟨c, cs, hs, hspace, hapart⟩ := exists_front h
  rw [hs, List.cons_append] at hword
  rw [hs, List.cons_append, value?_eq_scalar? hspace (hapart '[' rfl) (hapart '\x7b' rfl), scalar?,
    hword, hvalue, Option.map_some]
  exact fun _ heq => hapart '"' rfl (List.cons.inj heq).1

theorem ofWord?_numberText (n : Number) : ofWord? n.text = some (number n) := by
  have hne : ∀ word, Number.read? word = none → n.text ≠ word :=
    fun word hword heq => by
      rw [← heq, Number.read?_text] at hword
      cases hword
  rw [ofWord?, if_neg (hne _ (by decide)), if_neg (hne _ (by decide)), if_neg (hne _ (by decide)),
    if_neg (hne _ (by decide)), Number.read?_text, Option.map_some]

/-- A key is read as its name, with or without quotes. -/
theorem key?_propertyKey (name : String) {rest : List Char} (hrest : Apart rest) :
    key? (skipSpace ((propertyKey name).toList ++ rest)) = some (name, rest) := by
  unfold propertyKey
  split
  · next h =>
    have hword := wordOf_append (isWord_of_isIdentifier h) hrest
    obtain ⟨c, cs, hs, hspace, hapart⟩ := exists_front (isWord_of_isIdentifier h)
    rw [hs, List.cons_append] at hword
    rw [hs, List.cons_append, skipSpace_cons hspace, key?, hword, if_pos h]
    exact fun _ heq => hapart '"' rfl (List.cons.inj heq).1
  · obtain ⟨cs, hcs⟩ := exists_quoted name rest
    have hread := Text.unquote?_quoted name rest
    rw [hcs] at hread ⊢
    rw [skipSpace_cons rfl, key?, hread]

/-! ## 4. Containers -/

/-- A mark that is no part of a word begins none. -/
theorem wordOf_mark {mark : Char} (h : isWordPart mark = false) (rest : List Char) :
    (wordOf (mark :: rest)).1 = "" := by
  rw [wordOf, List.takeWhile_cons_of_neg (by simp [h])]

theorem scalar?_closing (rest : List Char) : scalar? (']' :: rest) = none := by
  have hnone : ofWord? "" = none := by decide
  rw [scalar?, wordOf_mark rfl, hnone, Option.map_none]
  exact fun _ heq => absurd (List.cons.inj heq).1 (by decide)

theorem key?_closing (rest : List Char) : key? ('\x7d' :: rest) = none := by
  rw [key?, wordOf_mark rfl, if_neg (by decide)]
  exact fun _ heq => absurd (List.cons.inj heq).1 (by decide)

/-- Items do not begin with the end of a sequence. -/
theorem after?_of_items? {cs rest : List Char} {items : List Literal}
    (h : items? fuel cs = some (items, rest)) : after? ']' cs = none := by
  cases hafter : after? ']' cs with
  | none => rfl
  | some behind =>
    have hspace : isSpace ']' = false := rfl
    rw [items?_congr ((skipSpace_of_after? hafter).trans (skipSpace_cons hspace behind).symm)] at h
    match fuel with
    | 0 => cases h
    | 1 => cases h
    | fuel + 2 =>
      rw [items?, value?_eq_scalar? hspace (by decide) (by decide), scalar?_closing] at h
      cases h

/-- Entries do not begin with the end of a mapping. -/
theorem after?_of_entries? {cs rest : List Char} {entries : Fields Literal}
    (h : entries? fuel cs = some (entries, rest)) : after? '\x7d' cs = none := by
  cases hafter : after? '\x7d' cs with
  | none => rfl
  | some behind =>
    cases fuel with
    | zero => cases h
    | succ fuel =>
      rw [entries?, skipSpace_of_after? hafter, key?_closing] at h
      cases h

/-- Items between brackets are a sequence. -/
theorem value?_sequence {cs rest : List Char} {items : List Literal}
    (h : items? fuel cs = some (items, rest)) :
    value? (fuel + 1) ('[' :: cs) = some (sequence items, rest) := by
  rw [value?, after?_self rfl]
  simp only [after?_of_items? h, h]
  rfl

/-- Entries between braces are a mapping. -/
theorem value?_mapping {cs rest : List Char} {entries : Fields Literal}
    (h : entries? fuel cs = some (entries, rest)) :
    value? (fuel + 1) ('\x7b' :: cs) = some (mapping entries, rest) := by
  rw [value?, after?_of_ne rfl (by decide), after?_self rfl]
  simp only [after?_of_entries? h, h]
  rfl

/-- Brackets around nothing are the empty sequence. -/
theorem value?_sequence_nil {cs rest : List Char} (h : after? ']' cs = some rest) :
    value? (fuel + 1) ('[' :: cs) = some (sequence [], rest) := by
  rw [value?, after?_self rfl]
  simp only [h]

/-- Braces around nothing are the empty mapping. -/
theorem value?_mapping_nil {cs rest : List Char} (h : after? '\x7d' cs = some rest) :
    value? (fuel + 1) ('\x7b' :: cs) = some (mapping [], rest) := by
  rw [value?, after?_of_ne rfl (by decide), after?_self rfl]
  simp only [h]

/-- An item before the end of a sequence is the last. -/
theorem items?_last {cs closing rest : List Char} {item : Literal}
    (hitem : value? fuel cs = some (item, closing)) (hcomma : after? ',' closing = none)
    (hclosing : after? ']' closing = some rest) :
    items? (fuel + 1) cs = some ([item], rest) := by
  rw [items?, hitem]
  simp only [Option.bind_eq_bind, Option.bind_some, hcomma, hclosing]

/-- Behind a comma are further items. -/
theorem items?_cons {cs more rest : List Char} {item : Literal} {items : List Literal}
    (hitem : value? fuel cs = some (item, ',' :: more))
    (hmore : items? fuel more = some (items, rest)) :
    items? (fuel + 1) cs = some (item :: items, rest) := by
  have hcomma : after? ',' (',' :: more) = some more := after?_self rfl more
  rw [items?, hitem]
  simp only [Option.bind_eq_bind, Option.bind_some, hcomma, hmore]

/-- An entry before the end of a mapping is the last. -/
theorem entries?_last {cs behind closing rest : List Char} {key : String} {value : Literal}
    (hkey : key? (skipSpace cs) = some (key, ':' :: behind))
    (hvalue : value? fuel behind = some (value, closing)) (hcomma : after? ',' closing = none)
    (hclosing : after? '\x7d' closing = some rest) :
    entries? (fuel + 1) cs = some ([(key, value)], rest) := by
  have hcolon : after? ':' (':' :: behind) = some behind := after?_self rfl behind
  rw [entries?, hkey]
  simp only [Option.bind_eq_bind, Option.bind_some, hcolon, hvalue, hcomma, hclosing]

/-- Behind a comma are further entries. -/
theorem entries?_cons {cs behind more rest : List Char} {key : String} {value : Literal}
    {entries : Fields Literal} (hkey : key? (skipSpace cs) = some (key, ':' :: behind))
    (hvalue : value? fuel behind = some (value, ',' :: more))
    (hmore : entries? fuel more = some (entries, rest)) :
    entries? (fuel + 1) cs = some ((key, value) :: entries, rest) := by
  have hcolon : after? ':' (':' :: behind) = some behind := after?_self rfl behind
  have hcomma : after? ',' (',' :: more) = some more := after?_self rfl more
  rw [entries?, hkey]
  simp only [Option.bind_eq_bind, Option.bind_some, hcolon, hvalue, hcomma, hmore]

/-! ## 5. Reading what was written -/

/-- The end of a container on a line of its own. -/
def closingLine (level : Nat) (closing : Char) (rest : List Char) : List Char :=
  '\n' :: ((Text.indent level).toList ++ closing :: rest)

theorem apart_closingLine (level : Nat) (closing : Char) (rest : List Char) :
    Apart (closingLine level closing rest) := apart_cons rfl _

theorem skipSpace_closingLine (level : Nat) (closing : Char) (rest : List Char) :
    skipSpace (closingLine level closing rest) = skipSpace (closing :: rest) :=
  (skipSpace_newLine _).trans (skipSpace_indent level _)

theorem after?_closingLine (level : Nat) {closing : Char} (h : isSpace closing = false)
    (rest : List Char) : after? closing (closingLine level closing rest) = some rest :=
  (after?_congr (skipSpace_closingLine level closing rest) closing).trans (after?_self h rest)

/-- The end of a container is no comma. -/
theorem after?_comma_closingLine (level : Nat) {closing : Char} (h : isSpace closing = false)
    (hne : closing ≠ ',') (rest : List Char) :
    after? ',' (closingLine level closing rest) = none :=
  (after?_congr (skipSpace_closingLine level closing rest) ',').trans (after?_of_ne h hne rest)

/-- The empty container is a line break before its end. -/
theorem after?_space_closingLine (level : Nat) {closing : Char} (h : isSpace closing = false)
    (rest : List Char) : after? closing ('\n' :: closingLine level closing rest) = some rest :=
  (after?_congr (skipSpace_newLine _) closing).trans (after?_closingLine level h rest)

/-- Lines that are joined begin with the first of them. -/
theorem toList_commaLines_cons (line next : String) (lines : List String) :
    (Text.joinWith ",\n" (line :: next :: lines)).toList =
      line.toList ++ ',' :: '\n' :: (Text.joinWith ",\n" (next :: lines)).toList :=
  Text.toList_joinWith_cons ",\n" line next lines

theorem length_joinWith_cons (line next : String) (lines : List String) :
    (Text.joinWith ",\n" (line :: next :: lines)).toList.length =
      line.toList.length + (Text.joinWith ",\n" (next :: lines)).toList.length + 2 := by
  rw [toList_commaLines_cons, List.length_append, List.length_cons, List.length_cons]
  omega

/-- A sequence is its lines between brackets. -/
theorem toList_sequence (level : Nat) (items : List Literal) (rest : List Char) :
    (bare level (sequence items)).toList ++ rest = '[' :: '\n' ::
      ((Text.joinWith ",\n" (itemLines (level + 1) items)).toList ++
        closingLine level ']' rest) := by
  simp [bare, closingLine, String.toList_append]

/-- A mapping is its lines between braces. -/
theorem toList_mapping (level : Nat) (entries : Fields Literal) (rest : List Char) :
    (bare level (mapping entries)).toList ++ rest = '\x7b' :: '\n' ::
      ((Text.joinWith ",\n" (entryLines (level + 1) entries)).toList ++
        closingLine level '\x7d' rest) := by
  simp [bare, closingLine, String.toList_append]

/-- The lines of a sequence are shorter than the sequence. -/
theorem length_itemLines (level : Nat) (items : List Literal) :
    (Text.joinWith ",\n" (itemLines (level + 1) items)).toList.length + 2 ≤
      (bare level (sequence items)).toList.length := by
  have h := congrArg List.length (toList_sequence level items [])
  simp only [List.append_nil, List.length_cons, List.length_append] at h
  omega

/-- The lines of a mapping are shorter than the mapping. -/
theorem length_entryLines (level : Nat) (entries : Fields Literal) :
    (Text.joinWith ",\n" (entryLines (level + 1) entries)).toList.length + 2 ≤
      (bare level (mapping entries)).toList.length := by
  have h := congrArg List.length (toList_mapping level entries [])
  simp only [List.append_nil, List.length_cons, List.length_append] at h
  omega

theorem length_le_append (before s : String) :
    s.toList.length ≤ (before ++ s).toList.length := by
  rw [String.toList_append, List.length_append]
  exact Nat.le_add_left _ _

/-- The key at the front of an entry's line is read up to its colon. -/
theorem key?_entryLine (level : Nat) (key value : String) (rest : List Char) :
    key? (skipSpace ((Text.indent level ++ propertyKey key ++ ": " ++ value).toList ++ rest)) =
      some (key, ':' :: ' ' :: (value.toList ++ rest)) := by
  have hcolon : ": ".toList = [':', ' '] := rfl
  rw [String.toList_append, String.toList_append, String.toList_append, hcolon]
  simp only [List.append_assoc, List.cons_append, List.nil_append]
  rw [skipSpace_indent, key?_propertyKey key (apart_cons rfl _)]

-- The recursion is on the literal. Each step takes fuel, and what is
-- left is enough for the parts because their texts are shorter.
mutual

/-- A literal is read back whatever stands apart from it, with fuel for
each of its characters. -/
theorem value?_bare : ∀ (literal : Literal) (level fuel : Nat) (rest : List Char),
    (bare level literal).toList.length ≤ fuel → Apart rest →
      value? (fuel + 1) ((bare level literal).toList ++ rest) = some (literal, rest)
  | undefined, _, _, _ => fun _ hrest =>
    value?_word (isWord_of_isIdentifier (show isIdentifier "undefined" = true by decide)) rfl hrest
  | null, _, _, _ => fun _ hrest =>
    value?_word (isWord_of_isIdentifier (show isIdentifier "null" = true by decide)) rfl hrest
  | bool true, _, _, _ => fun _ hrest =>
    value?_word (isWord_of_isIdentifier (show isIdentifier "true" = true by decide)) rfl hrest
  | bool false, _, _, _ => fun _ hrest =>
    value?_word (isWord_of_isIdentifier (show isIdentifier "false" = true by decide)) rfl hrest
  | number n, _, _, _ => fun _ hrest =>
    value?_word (isWord_numberText n) (ofWord?_numberText n) hrest
  | text s, _, _, rest => fun _ _ => value?_quoted s rest
  | sequence items, level, fuel, rest => by
    intro hfuel _
    have hlines := (length_itemLines level items).trans hfuel
    rw [toList_sequence]
    cases items with
    | nil => exact value?_sequence_nil (after?_space_closingLine level rfl rest)
    | cons item items =>
      obtain ⟨fuel, rfl⟩ := Nat.exists_eq_add_one.mpr (show 0 < fuel by omega)
      refine value?_sequence ((items?_congr (skipSpace_newLine _) _).trans ?_)
      exact items?_itemLines (item :: items) (List.cons_ne_nil _ _) (level + 1) level _ rest
        (by omega)
  | mapping entries, level, fuel, rest => by
    intro hfuel _
    have hlines := (length_entryLines level entries).trans hfuel
    rw [toList_mapping]
    cases entries with
    | nil => exact value?_mapping_nil (after?_space_closingLine level rfl rest)
    | cons entry entries =>
      obtain ⟨fuel, rfl⟩ := Nat.exists_eq_add_one.mpr (show 0 < fuel by omega)
      refine value?_mapping ((entries?_congr (skipSpace_newLine _) _).trans ?_)
      exact entries?_entryLines (entry :: entries) (List.cons_ne_nil _ _) (level + 1) level _ rest
        (by omega)

/-- The lines of items are read back up to the end of the sequence. -/
theorem items?_itemLines : ∀ (items : List Literal), items ≠ [] →
    ∀ (level outer fuel : Nat) (rest : List Char),
      (Text.joinWith ",\n" (itemLines level items)).toList.length < fuel →
        items? (fuel + 1)
          ((Text.joinWith ",\n" (itemLines level items)).toList ++ closingLine outer ']' rest) =
            some (items, rest)
  | [], h, _, _, _, _ => absurd rfl h
  | [item], _, level, outer, fuel, rest => by
    intro hfuel
    rw [itemLines, itemLines, Text.joinWith] at hfuel ⊢
    obtain ⟨fuel, rfl⟩ := Nat.exists_eq_add_one.mpr (Nat.zero_lt_of_lt hfuel)
    have hitem := value?_bare item level fuel _
      ((length_le_append _ _).trans (Nat.le_of_lt_succ hfuel))
      (apart_closingLine outer ']' rest)
    rw [← value?_congr (skipSpace_indent level _)] at hitem
    rw [String.toList_append, List.append_assoc]
    exact items?_last hitem (after?_comma_closingLine outer rfl (by decide) rest)
      (after?_closingLine outer rfl rest)
  | item :: next :: items, _, level, outer, fuel, rest => by
    intro hfuel
    rw [itemLines, itemLines, length_joinWith_cons] at hfuel
    obtain ⟨fuel, rfl⟩ := Nat.exists_eq_add_one.mpr (Nat.zero_lt_of_lt hfuel)
    have hline := length_le_append (Text.indent level) (bare level item)
    have ih := items?_itemLines (next :: items) (List.cons_ne_nil _ _) level outer fuel rest
      (by rw [itemLines]; omega)
    rw [itemLines] at ih
    rw [itemLines, itemLines, toList_commaLines_cons, String.toList_append, List.append_assoc,
      List.append_assoc, List.cons_append, List.cons_append]
    refine items?_cons ?_ ((items?_congr (skipSpace_newLine _) _).trans ih)
    exact (value?_congr (skipSpace_indent level _) _).trans
      (value?_bare item level fuel _ (by omega) (apart_cons rfl _))

/-- The lines of entries are read back up to the end of the mapping. -/
theorem entries?_entryLines : ∀ (entries : Fields Literal), entries ≠ [] →
    ∀ (level outer fuel : Nat) (rest : List Char),
      (Text.joinWith ",\n" (entryLines level entries)).toList.length < fuel →
        entries? (fuel + 1)
          ((Text.joinWith ",\n" (entryLines level entries)).toList ++
            closingLine outer '\x7d' rest) = some (entries, rest)
  | [], h, _, _, _, _ => absurd rfl h
  | [(key, value)], _, level, outer, fuel, rest => by
    intro hfuel
    rw [entryLines, entryLines, Text.joinWith] at hfuel ⊢
    obtain ⟨fuel, rfl⟩ := Nat.exists_eq_add_one.mpr (Nat.zero_lt_of_lt hfuel)
    have hvalue := value?_bare value level fuel _
      ((length_le_append _ _).trans (Nat.le_of_lt_succ hfuel))
      (apart_closingLine outer '\x7d' rest)
    exact entries?_last (key?_entryLine level key _ _)
      ((value?_congr (skipSpace_cons_of_isSpace rfl _) _).trans hvalue)
      (after?_comma_closingLine outer rfl (by decide) rest) (after?_closingLine outer rfl rest)
  | (key, value) :: (next, other) :: entries, _, level, outer, fuel, rest => by
    intro hfuel
    rw [entryLines, entryLines, length_joinWith_cons] at hfuel
    obtain ⟨fuel, rfl⟩ := Nat.exists_eq_add_one.mpr (Nat.zero_lt_of_lt hfuel)
    have hline := length_le_append (Text.indent level ++ propertyKey key ++ ": ") (bare level value)
    have ih := entries?_entryLines ((next, other) :: entries) (List.cons_ne_nil _ _) level outer
      fuel rest (by rw [entryLines]; omega)
    rw [entryLines] at ih
    rw [entryLines, entryLines, toList_commaLines_cons, List.append_assoc, List.cons_append,
      List.cons_append]
    exact entries?_cons (key?_entryLine level key _ _)
      ((value?_congr (skipSpace_cons_of_isSpace rfl _) _).trans
        (value?_bare value level fuel _ (by omega) (apart_cons rfl _)))
      ((entries?_congr (skipSpace_newLine _) _).trans ih)

end

/-- A literal is read back from its text, wherever it is written. -/
theorem ofText?_render (literal : Literal) (place : Placement) :
    ofText? (literal.render place) = some literal := by
  have hnil : Apart [] := fun c hc => absurd hc (by simp)
  have hlength : (bare place.level literal).toList.length ≤
      (literal.render place).toList.length := length_le_append _ _
  have hbare := value?_bare literal place.level _ [] hlength hnil
  rw [List.append_nil] at hbare
  have hspace : skipSpace (literal.render place).toList =
      skipSpace (bare place.level literal).toList := by
    rw [render, String.toList_append]
    split
    · rfl
    · exact skipSpace_indent place.level _
  rw [ofText?, value?_congr hspace, hbare]
  rfl

/-! ## 6. Documents -/

mutual

/-- The JSON document that a literal is; `undefined` is none. -/
def toJson? : Literal → Option Json
  | undefined => none
  | null => some .null
  | bool b => some (.bool b)
  | number n => some (.number n)
  | text s => some (.string s)
  | sequence items => (toItems? items).map .array
  | mapping entries => (toFields? entries).map .object

/-- The documents that the items of a sequence are. -/
def toItems? : List Literal → Option (List Json)
  | [] => some []
  | item :: rest => (toJson? item).bind fun item => (toItems? rest).map (item :: ·)

/-- The fields that the entries of a mapping are. -/
def toFields? : Fields Literal → Option (Fields Json)
  | [] => some []
  | (key, value) :: rest =>
    (toJson? value).bind fun value => (toFields? rest).map ((key, value) :: ·)

end

mutual

/-- The literal of a document is that document. -/
theorem toJson?_ofJson : ∀ document : Json, toJson? (ofJson document) = some document
  | .null => rfl
  | .bool _ => rfl
  | .number _ => rfl
  | .string _ => rfl
  | .array items => by rw [ofJson, toJson?, toItems?_ofItems items, Option.map_some]
  | .object fields => by rw [ofJson, toJson?, toFields?_ofFields fields, Option.map_some]

theorem toItems?_ofItems : ∀ items : List Json, toItems? (ofItems items) = some items
  | [] => rfl
  | item :: rest => by
    rw [ofItems, toItems?, toJson?_ofJson item, toItems?_ofItems rest]
    rfl

theorem toFields?_ofFields : ∀ fields : Fields Json, toFields? (ofFields fields) = some fields
  | [] => rfl
  | (key, value) :: rest => by
    rw [ofFields, toFields?, toJson?_ofJson value, toFields?_ofFields rest]
    rfl

end

/-- Writing a literal loses nothing. The reader of the grammar gets back
every literal from its text, so that at one place no two literals have
one text, and the literal of a JSON document is read back as the
document. -/
theorem render_reads_back :
    (∀ (literal : Literal) (place : Placement), ofText? (literal.render place) = some literal) ∧
      (∀ place : Placement, Function.Injective fun literal : Literal => literal.render place) ∧
      ∀ (document : Json) (place : Placement),
        (ofText? ((ofJson document).render place)).bind toJson? = some document := by
  refine ⟨ofText?_render, fun place first second h => ?_, fun document place => ?_⟩
  · have hsame : ofText? (first.render place) = ofText? (second.render place) := congrArg ofText? h
    rw [ofText?_render, ofText?_render] at hsame
    exact Option.some.inj hsame
  · rw [ofText?_render, Option.bind_some, toJson?_ofJson]

end TableMapper.TypeScript.Literal
