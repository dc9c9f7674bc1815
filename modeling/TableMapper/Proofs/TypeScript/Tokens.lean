/-
TableMapper.Proofs.TypeScript.Tokens — the tokens of generated source.

A text is read character by character: words, string literals and marks
are tokens, white space and comments are passed over. `Spells` says that
a text is read as certain tokens whatever stands behind it at a
distance, and `Closes` that it is so even for what follows at once, so
that the tokens of a text are put together from those of its pieces.
-/
import Mathlib.Data.List.Forall2
import TableMapper.Number
import TableMapper.Text.Basic
import TableMapper.Text.Blank
import TableMapper.TypeScript.Identifier

namespace TableMapper.TypeScript

/-! ## 1. Tokens -/

/-- A word, the content of a string literal, or a mark. -/
inductive Token where
  | word (s : String)
  | quoted (s : String)
  | mark (c : Char)
deriving DecidableEq, Repr

/-- A character of a word: of an identifier or of a number, and every
one beyond ASCII that is no white space. -/
def isWordPart (c : Char) : Bool :=
  isIdentifierPart c || c = '.' || c = '+' || c = '-' || (0x80 ≤ c.toNat && !Text.isBlank c)

/-- White space between tokens. -/
def isSpace (c : Char) : Bool := c = ' ' || c = '\n' || c = '\r' || c = '\t'

/-- The characters that are tokens by themselves. -/
def isMark (c : Char) : Bool :=
  ['\x7b', '\x7d', '[', ']', '(', ')', '|', '&', ':', ';', '?', ','].contains c

/-- The character that a letter behind a backslash stands for. -/
def unescape? : Char → Option Char
  | '"' => some '"'
  | '\\' => some '\\'
  | 'n' => some '\n'
  | 'r' => some '\r'
  | 't' => some '\t'
  | 'b' => some (Char.ofNat 0x08)
  | 'f' => some (Char.ofNat 0x0c)
  | _ => none

/-- The value of a lower-case hexadecimal digit. -/
def hexValue? (c : Char) : Option Nat :=
  if '0' ≤ c ∧ c ≤ '9' then some (c.toNat - '0'.toNat)
  else if 'a' ≤ c ∧ c ≤ 'f' then some (c.toNat - 'a'.toNat + 10)
  else none

/-! ## 2. Reading them -/

/-- Where the reading stands: between tokens; in a word or in a string
literal, with its characters so far; behind a backslash there, and
behind the `u` of a character code, with the number of digits and their
value so far; or in a comment. -/
inductive Mode where
  | between
  | word (s : List Char)
  | quoted (s : List Char)
  | escaped (s : List Char)
  | code (s : List Char) (digits value : Nat)
  | slash
  | comment
  | star

/-- What a character does between tokens. -/
def begin? (c : Char) : Option (List Token × Mode) :=
  if isSpace c then some ([], .between)
  else if isWordPart c then some ([], .word [c])
  else if isMark c then some ([.mark c], .between)
  else if c = '"' then some ([], .quoted [])
  else if c = '/' then some ([], .slash)
  else none

/-- The tokens that end with a character, and where the reading stands
behind it. -/
def step? : Mode → Char → Option (List Token × Mode)
  | .between, c => begin? c
  | .word s, c =>
    if isWordPart c then some ([], .word (s ++ [c]))
    else (begin? c).map fun (tokens, mode) => (.word (String.ofList s) :: tokens, mode)
  | .quoted s, c =>
    if c = '"' then some ([.quoted (String.ofList s)], .between)
    else if c = '\\' then some ([], .escaped s)
    else if c.toNat < 0x20 then none
    else some ([], .quoted (s ++ [c]))
  | .escaped s, c =>
    if c = 'u' then some ([], .code s 0 0)
    else (unescape? c).map fun d => ([], .quoted (s ++ [d]))
  | .code s digits value, c =>
    (hexValue? c).map fun d =>
      if digits = 3 then ([], .quoted (s ++ [Char.ofNat (16 * value + d)]))
      else ([], .code s (digits + 1) (16 * value + d))
  | .slash, c => if c = '*' then some ([], .comment) else none
  | .comment, c => if c = '*' then some ([], .star) else some ([], .comment)
  | .star, c =>
    if c = '/' then some ([], .between)
    else if c = '*' then some ([], .star)
    else some ([], .comment)

/-- The tokens of the rest of a text. -/
def tokensFrom? : Mode → List Char → Option (List Token)
  | .between, [] => some []
  | .word s, [] => some [.word (String.ofList s)]
  | _, [] => none
  | mode, c :: cs =>
    match step? mode c with
    | none => none
    | some (tokens, next) => (tokensFrom? next cs).map (tokens ++ ·)

/-- The tokens of a text. -/
def tokens? (text : String) : Option (List Token) := tokensFrom? .between text.toList

theorem tokensFrom?_cons (mode : Mode) (c : Char) (cs : List Char) :
    tokensFrom? mode (c :: cs) =
      match step? mode c with
      | none => none
      | some (tokens, next) => (tokensFrom? next cs).map (tokens ++ ·) := by
  rw [tokensFrom?]

/-- A character that ends no token only changes where the reading
stands. -/
theorem tokensFrom?_silent {mode next : Mode} {c : Char} (h : step? mode c = some ([], next))
    (cs : List Char) : tokensFrom? mode (c :: cs) = tokensFrom? next cs := by
  rw [tokensFrom?_cons, h]
  exact congrFun Option.map_id _

/-! ## 3. Pieces of text -/

/-- No part of a word stands first. -/
def Apart (rest : List Char) : Prop := ∀ c ∈ rest.head?, isWordPart c = false

/-- The text is read as the tokens whatever follows. -/
def Closes (text : List Char) (tokens : List Token) : Prop :=
  ∀ rest, tokensFrom? .between (text ++ rest) =
    (tokensFrom? .between rest).map (tokens ++ ·)

/-- The text is read as the tokens whatever follows apart from it. -/
def Spells (text : List Char) (tokens : List Token) : Prop :=
  ∀ rest, Apart rest → tokensFrom? .between (text ++ rest) =
    (tokensFrom? .between rest).map (tokens ++ ·)

theorem Apart.append {text rest : List Char} (h : Apart text) (hrest : Apart rest) :
    Apart (text ++ rest) := by
  cases text with
  | nil => exact hrest
  | cons c cs => exact h

theorem apart_cons {c : Char} (h : isWordPart c = false) (rest : List Char) :
    Apart (c :: rest) := by
  intro d hd
  obtain rfl := Option.some.inj hd
  exact h

theorem Closes.spells {text : List Char} {tokens : List Token} (h : Closes text tokens) :
    Spells text tokens :=
  fun rest _ => h rest

theorem Closes.nil : Closes [] [] := fun _ => (congrFun Option.map_id _).symm

theorem map_append_append (first second : List Token) (read : Option (List Token)) :
    (read.map (second ++ ·)).map (first ++ ·) = read.map (first ++ second ++ ·) := by
  rw [Option.map_map]
  congr 1
  funext tokens
  exact (List.append_assoc first second tokens).symm

theorem Closes.append {text more : List Char} {tokens others : List Token}
    (h : Closes text tokens) (hmore : Closes more others) :
    Closes (text ++ more) (tokens ++ others) := by
  intro rest
  rw [List.append_assoc, h, hmore, map_append_append]

theorem Closes.append_spells {text more : List Char} {tokens others : List Token}
    (h : Closes text tokens) (hmore : Spells more others) :
    Spells (text ++ more) (tokens ++ others) := by
  intro rest hrest
  rw [List.append_assoc, h, hmore rest hrest, map_append_append]

theorem Spells.append {text more : List Char} {tokens others : List Token}
    (h : Spells text tokens) (hapart : Apart more) (hmore : Spells more others) :
    Spells (text ++ more) (tokens ++ others) := by
  intro rest hrest
  rw [List.append_assoc, h _ (hapart.append hrest), hmore rest hrest, map_append_append]

/-- A text that closes behind one that spells tokens closes both. -/
theorem Spells.append_closes {text : List Char} {c : Char} {more : List Char}
    {tokens others : List Token} (h : Spells text tokens) (hc : isWordPart c = false)
    (hmore : Closes (c :: more) others) : Closes (text ++ c :: more) (tokens ++ others) := by
  intro rest
  rw [List.append_assoc, h (c :: more ++ rest) (apart_cons hc _), hmore, map_append_append]

/-- A text that spells tokens is read as these. -/
theorem Spells.tokens?_eq {text : String} {tokens : List Token} (h : Spells text.toList tokens) :
    tokens? text = some tokens := by
  have hnil : Apart [] := fun c hc => absurd hc (by simp)
  have := h [] hnil
  rw [List.append_nil, tokensFrom?, Option.map_some, List.append_nil] at this
  exact this

/-! ## 4. White space and marks -/

theorem closes_space {c : Char} (h : isSpace c = true) : Closes [c] [] := by
  intro rest
  have hstep : step? .between c = some ([], .between) := if_pos h
  rw [List.singleton_append, tokensFrom?_silent hstep]
  exact (congrFun Option.map_id _).symm

theorem closes_spaces {text : List Char} (h : text.all isSpace = true) : Closes text [] := by
  induction text with
  | nil => exact Closes.nil
  | cons c text ih =>
    rw [List.all_cons, Bool.and_eq_true] at h
    exact (closes_space h.1).append (ih h.2)

theorem closes_indent (level : Nat) : Closes (Text.indent level).toList [] := by
  refine closes_spaces ?_
  rw [Text.indent, String.toList_ofList, List.all_eq_true]
  intro c hc
  rw [List.eq_of_mem_replicate hc]
  rfl

/-- A mark is a token whatever follows. -/
theorem closes_mark {c : Char} (h : begin? c = some ([.mark c], .between)) :
    Closes [c] [.mark c] := by
  intro rest
  have hstep : step? .between c = some ([.mark c], .between) := h
  rw [List.singleton_append, tokensFrom?_cons, hstep]

/-! ## 5. Words -/

/-- A text that is read as one word. -/
def IsWord (s : String) : Prop := s.toList ≠ [] ∧ ∀ c ∈ s.toList, isWordPart c = true

/-- Behind the characters of a word stands its end, or nothing. -/
theorem tokensFrom?_word_apart {s rest : List Char} (h : Apart rest) :
    tokensFrom? (.word s) rest =
      (tokensFrom? .between rest).map ([.word (String.ofList s)] ++ ·) := by
  cases rest with
  | nil => rfl
  | cons c cs =>
    have hc : isWordPart c = false := h c rfl
    rw [tokensFrom?_cons, tokensFrom?_cons]
    simp only [step?, hc, Bool.false_eq_true, if_false]
    cases begin? c with
    | none => rfl
    | some next =>
      obtain ⟨tokens, mode⟩ := next
      simp only [Option.map_some, Option.map_map]
      rfl

/-- The characters of a word are collected. -/
theorem tokensFrom?_word {cs : List Char} (s : List Char) {rest : List Char}
    (hword : ∀ c ∈ cs, isWordPart c = true) (hrest : Apart rest) :
    tokensFrom? (.word s) (cs ++ rest) =
      (tokensFrom? .between rest).map ([.word (String.ofList (s ++ cs))] ++ ·) := by
  induction cs generalizing s with
  | nil =>
    rw [List.append_nil, List.nil_append]
    exact tokensFrom?_word_apart hrest
  | cons c cs ih =>
    have hstep : step? (.word s) c = some ([], .word (s ++ [c])) :=
      if_pos (hword c List.mem_cons_self)
    have hothers : ∀ d ∈ cs, isWordPart d = true :=
      fun d hd => hword d (List.mem_cons_of_mem c hd)
    rw [List.cons_append, tokensFrom?_silent hstep, ih (s ++ [c]) hothers, List.append_assoc]
    rfl

/-- No part of a word is white space. -/
theorem isSpace_eq_false {c : Char} (h : isWordPart c = true) : isSpace c = false := by
  rw [← Bool.not_eq_true]
  intro hspace
  simp only [isSpace, Bool.or_eq_true, decide_eq_true_eq] at hspace
  rcases hspace with ((rfl | rfl) | rfl) | rfl
  all_goals exact absurd h (by decide)

/-- A word is read as one. -/
theorem spells_word {s : String} (h : IsWord s) : Spells s.toList [.word s] := by
  obtain ⟨hne, hword⟩ := h
  intro rest hrest
  cases hs : s.toList with
  | nil => exact absurd hs hne
  | cons c cs =>
    rw [hs] at hword
    have hc := hword c List.mem_cons_self
    have hstep : step? .between c = some ([], .word [c]) := by
      simp [step?, begin?, isSpace_eq_false hc, hc]
    rw [List.cons_append, tokensFrom?_silent hstep,
      tokensFrom?_word [c] (fun d hd => hword d (List.mem_cons_of_mem c hd)) hrest,
      List.singleton_append, ← hs, String.ofList_toList]

/-- Every character of an identifier is one that an identifier may go on
with. -/
theorem isIdentifierPart_of_mem {s : String} (h : isIdentifier s = true) :
    ∀ c ∈ s.toList, isIdentifierPart c = true := by
  unfold isIdentifier at h
  cases hs : s.toList with
  | nil => exact fun c hc => absurd hc List.not_mem_nil
  | cons d ds =>
    rw [hs, isIdentifierChars, Bool.and_eq_true, List.all_eq_true] at h
    exact List.forall_mem_cons.mpr ⟨Bool.or_eq_true_iff.mpr (.inl h.1), h.2⟩

/-- An identifier is a word. -/
theorem isWord_of_isIdentifier {s : String} (h : isIdentifier s = true) : IsWord s := by
  constructor
  · intro hnil
    rw [isIdentifier, hnil] at h
    exact absurd h (by decide)
  · intro c hc
    simp [isWordPart, isIdentifierPart_of_mem h c hc]

/-! ## 6. Words that are read -/

/-- The characters of a word so far are parts of one. -/
def Mode.Fits : Mode → Prop
  | .word s => s ≠ [] ∧ ∀ c ∈ s, isWordPart c = true
  | _ => True

theorem isWord_ofList {s : List Char} (h : Mode.Fits (.word s)) : IsWord (String.ofList s) := by
  rw [IsWord, String.toList_ofList]
  exact h

/-- What a character begins has no word yet. -/
theorem begin?_fits {c : Char} {tokens : List Token} {next : Mode}
    (h : begin? c = some (tokens, next)) : (∀ w, .word w ∉ tokens) ∧ next.Fits := by
  unfold begin? at h
  split at h
  · cases h
    exact ⟨fun _ => List.not_mem_nil, trivial⟩
  · split at h
    · next hc =>
      cases h
      refine ⟨fun _ => List.not_mem_nil, List.cons_ne_nil _ _, fun d hd => ?_⟩
      rw [List.mem_singleton.mp hd]
      exact hc
    · split at h
      · cases h
        exact ⟨fun w hw => Token.noConfusion (List.mem_singleton.mp hw), trivial⟩
      · split at h
        · cases h
          exact ⟨fun _ => List.not_mem_nil, trivial⟩
        · split at h
          · cases h
            exact ⟨fun _ => List.not_mem_nil, trivial⟩
          · cases h

/-- A character ends no word but a fitting one. -/
theorem step?_fits {mode next : Mode} {c : Char} {tokens : List Token} (hmode : mode.Fits)
    (h : step? mode c = some (tokens, next)) :
    (∀ w, .word w ∈ tokens → IsWord w) ∧ next.Fits := by
  cases mode with
  | between =>
    obtain ⟨hnone, hnext⟩ := begin?_fits h
    exact ⟨fun w hw => absurd hw (hnone w), hnext⟩
  | word s =>
    simp only [step?] at h
    split at h
    · next hc =>
      cases h
      refine ⟨fun _ hw => absurd hw List.not_mem_nil, by simp, fun d hd => ?_⟩
      rcases List.mem_append.mp hd with hd | hd
      · exact hmode.2 d hd
      · rw [List.mem_singleton.mp hd]
        exact hc
    · obtain ⟨⟨others, after⟩, hbegin, hpair⟩ := Option.map_eq_some_iff.mp h
      cases hpair
      obtain ⟨hnone, hnext⟩ := begin?_fits hbegin
      refine ⟨fun w hw => ?_, hnext⟩
      rcases List.mem_cons.mp hw with hw | hw
      · rw [Token.word.inj hw]
        exact isWord_ofList hmode
      · exact absurd hw (hnone w)
  | quoted s =>
    simp only [step?] at h
    split at h
    · cases h
      exact ⟨fun w hw => Token.noConfusion (List.mem_singleton.mp hw), trivial⟩
    · split at h
      · cases h
        exact ⟨fun _ hw => absurd hw List.not_mem_nil, trivial⟩
      · split at h
        · cases h
        · cases h
          exact ⟨fun _ hw => absurd hw List.not_mem_nil, trivial⟩
  | escaped s =>
    simp only [step?] at h
    split at h
    · cases h
      exact ⟨fun _ hw => absurd hw List.not_mem_nil, trivial⟩
    · obtain ⟨d, -, hpair⟩ := Option.map_eq_some_iff.mp h
      cases hpair
      exact ⟨fun _ hw => absurd hw List.not_mem_nil, trivial⟩
  | code s digits value =>
    obtain ⟨d, -, hpair⟩ := Option.map_eq_some_iff.mp h
    split at hpair
    all_goals
      cases hpair
      exact ⟨fun _ hw => absurd hw List.not_mem_nil, trivial⟩
  | slash =>
    simp only [step?] at h
    split at h
    · cases h
      exact ⟨fun _ hw => absurd hw List.not_mem_nil, trivial⟩
    · cases h
  | comment =>
    simp only [step?] at h
    split at h
    all_goals
      cases h
      exact ⟨fun _ hw => absurd hw List.not_mem_nil, trivial⟩
  | star =>
    simp only [step?] at h
    split at h
    · cases h
      exact ⟨fun _ hw => absurd hw List.not_mem_nil, trivial⟩
    · split at h
      all_goals
        cases h
        exact ⟨fun _ hw => absurd hw List.not_mem_nil, trivial⟩

/-- Every word that is read is one. -/
theorem isWord_of_mem_tokensFrom? {cs : List Char} {mode : Mode} {tokens : List Token}
    (hmode : mode.Fits) (h : tokensFrom? mode cs = some tokens) :
    ∀ w, .word w ∈ tokens → IsWord w := by
  induction cs generalizing mode tokens with
  | nil =>
    intro w hw
    cases mode with
    | between =>
      cases h
      exact absurd hw List.not_mem_nil
    | word s =>
      cases h
      rw [Token.word.inj (List.mem_singleton.mp hw)]
      exact isWord_ofList hmode
    | quoted | escaped | code | slash | comment | star => cases h
  | cons c cs ih =>
    rw [tokensFrom?_cons] at h
    split at h
    · cases h
    · next first next hstep =>
      obtain ⟨rest, hrest, htokens⟩ := Option.map_eq_some_iff.mp h
      obtain ⟨hwords, hnext⟩ := step?_fits hmode hstep
      intro w hw
      rw [← htokens] at hw
      rcases List.mem_append.mp hw with hw | hw
      · exact hwords w hw
      · exact ih hnext hrest w hw

theorem isWord_of_mem_tokens? {source w : String} {tokens : List Token}
    (h : tokens? source = some tokens) (hw : .word w ∈ tokens) : IsWord w :=
  isWord_of_mem_tokensFrom? (show Mode.between.Fits from trivial) h w hw

end TableMapper.TypeScript
