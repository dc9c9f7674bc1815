/-
TableMapper.Proofs.TypeScript.TypeReading — reading a type from its
text, by precedence.

The reader is a machine on tokens. Brackets behind a type make an array
of the operand right before them; `&` goes on with the factors of one
alternative, and `|` begins a new one. Parentheses and tuples open a
type of their own, and braces are passed over up to their end. What has
been read at one level is a `Grid`: alternatives, each of them a row of
factors, with the last factor apart because brackets may still follow.
-/
import TableMapper.Proofs.TypeScript.TypeTree

namespace TableMapper.TypeScript

/-! ## 1. Grids -/

/-- Alternatives that are complete, the factors of the last one so far,
and its last factor. -/
structure Grid where
  rows : List (List TypeTree)
  factors : List TypeTree
  last : TypeTree

namespace Grid

/-- One operand. -/
def single (t : TypeTree) : Grid := ⟨[], [], t⟩

/-- The factors of the last alternative. -/
def lastRow (g : Grid) : List TypeTree := g.factors ++ [g.last]

/-- The alternatives, each with its factors. -/
def alternatives (g : Grid) : List (List TypeTree) := g.rows ++ [g.lastRow]

/-- The type of a grid. -/
def close (g : Grid) : TypeTree := .unionOf (g.alternatives.map .intersectionOf)

/-- An array of the last factor. -/
def brackets (g : Grid) : Grid := { g with last := .array g.last }

/-- A grid behind alternatives and the factors of a further one. -/
def place (rows : List (List TypeTree)) (factors : List TypeTree) (g : Grid) : Grid :=
  match g.rows with
  | [] => ⟨rows, factors ++ g.factors, g.last⟩
  | row :: more => ⟨rows ++ (factors ++ row) :: more, g.factors, g.last⟩

/-- The alternatives of the one and then those of the other. -/
def either (g h : Grid) : Grid := place g.alternatives [] h

/-- The last alternative of the one goes on with the first of the
other. -/
def both (g h : Grid) : Grid := place g.rows g.lastRow h

theorem place_brackets (rows : List (List TypeTree)) (factors : List TypeTree) (g : Grid) :
    place rows factors g.brackets = (place rows factors g).brackets := by
  obtain ⟨gRows, gFactors, gLast⟩ := g
  cases gRows <;> rfl

theorem place_either (rows : List (List TypeTree)) (factors : List TypeTree) (g h : Grid) :
    place rows factors (g.either h) = (place rows factors g).either h := by
  obtain ⟨gRows, gFactors, gLast⟩ := g
  obtain ⟨hRows, hFactors, hLast⟩ := h
  cases gRows <;> cases hRows <;> simp [either, place, alternatives, lastRow]

theorem place_both (rows : List (List TypeTree)) (factors : List TypeTree) (g h : Grid) :
    place rows factors (g.both h) = (place rows factors g).both h := by
  obtain ⟨gRows, gFactors, gLast⟩ := g
  obtain ⟨hRows, hFactors, hLast⟩ := h
  cases gRows <;> cases hRows <;> simp [both, place, lastRow]

theorem place_nil (g : Grid) : place [] [] g = g := by
  obtain ⟨rows, factors, last⟩ := g
  cases rows <;> rfl

theorem alternatives_either (g h : Grid) :
    (g.either h).alternatives = g.alternatives ++ h.alternatives := by
  obtain ⟨hRows, hFactors, hLast⟩ := h
  cases hRows <;> simp [either, place, alternatives, lastRow]

end Grid

/-! ## 2. The reader -/

namespace TypeTree

/-- What is open: parentheses, or a tuple with its elements so far, and
what stands before it at its level. -/
inductive Frame where
  | parens (rows : List (List TypeTree)) (factors : List TypeTree)
  | tuple (elements : List TypeTree) (rows : List (List TypeTree)) (factors : List TypeTree)

/-- What the reader looks for: an operand; the first element or the end
of a tuple; what comes behind an operand; the closing bracket of an
array; or the end of braces, with the number of inner ones that are
open and what stands between them so far. -/
inductive Focus where
  | operand (rows : List (List TypeTree)) (factors : List TypeTree)
  | firstElement
  | behind (grid : Grid)
  | bracket (grid : Grid)
  | braces (rows : List (List TypeTree)) (factors : List TypeTree) (depth : Nat)
    (content : List Token)

/-- What is open, innermost first, and what comes. -/
abbrev Reading := List Frame × Focus

/-- Begins an operand. -/
def beginOperand (stack : List Frame) (rows : List (List TypeTree)) (factors : List TypeTree) :
    Token → Option Reading
  | .word s => some (stack, .behind ⟨rows, factors, .word s⟩)
  | .quoted s => some (stack, .behind ⟨rows, factors, .quoted s⟩)
  | .mark '(' => some (.parens rows factors :: stack, .operand [] [])
  | .mark '[' => some (.tuple [] rows factors :: stack, .firstElement)
  | .mark '\x7b' => some (stack, .braces rows factors 0 [])
  | .mark _ => none

/-- Ends the first element of a tuple that has none, or begins it. -/
def firstElement : List Frame → Token → Option Reading
  | .tuple [] rows factors :: stack, .mark ']' => some (stack, .behind ⟨rows, factors, .tuple []⟩)
  | stack, token => beginOperand stack [] [] token

/-- Goes on behind an operand. -/
def goOn (grid : Grid) : List Frame → Token → Option Reading
  | stack, .mark '[' => some (stack, .bracket grid)
  | stack, .mark '&' => some (stack, .operand grid.rows grid.lastRow)
  | stack, .mark '|' => some (stack, .operand grid.alternatives [])
  | .parens rows factors :: stack, .mark ')' =>
    some (stack, .behind ⟨rows, factors, grid.close⟩)
  | .tuple elements rows factors :: stack, .mark ',' =>
    some (.tuple (elements ++ [grid.close]) rows factors :: stack, .operand [] [])
  | .tuple elements rows factors :: stack, .mark ']' =>
    some (stack, .behind ⟨rows, factors, .tuple (elements ++ [grid.close])⟩)
  | _, _ => none

/-- Goes on inside braces. -/
def goThrough (stack : List Frame) (rows : List (List TypeTree)) (factors : List TypeTree) :
    Nat → List Token → Token → Option Reading
  | 0, content, .mark '\x7d' => some (stack, .behind ⟨rows, factors, .braces content⟩)
  | depth + 1, content, .mark '\x7d' =>
    some (stack, .braces rows factors depth (content ++ [.mark '\x7d']))
  | depth, content, .mark '\x7b' =>
    some (stack, .braces rows factors (depth + 1) (content ++ [.mark '\x7b']))
  | depth, content, token => some (stack, .braces rows factors depth (content ++ [token]))

/-- Reads one token. -/
def read : Reading → Token → Option Reading
  | (stack, .operand rows factors), token => beginOperand stack rows factors token
  | (stack, .firstElement), token => firstElement stack token
  | (stack, .behind grid), token => goOn grid stack token
  | (stack, .bracket grid), token =>
    if token = .mark ']' then some (stack, .behind grid.brackets) else none
  | (stack, .braces rows factors depth content), token =>
    goThrough stack rows factors depth content token

/-- Reads tokens one after the other. -/
def readAll : Reading → List Token → Option Reading
  | reading, [] => some reading
  | reading, token :: rest =>
    match read reading token with
    | none => none
    | some next => readAll next rest

/-- The type that a text is. -/
def read? (source : String) : Option TypeTree :=
  match (tokens? source).bind (readAll ([], .operand [] [])) with
  | some ([], .behind grid) => some grid.close
  | _ => none

example : read? "A | B[] & (C | D)" =
    some (.union [.word "A",
      .intersection [.array (.word "B"), .union [.word "C", .word "D"]]]) := by rfl

theorem readAll_cons {reading next : Reading} {token : Token} (h : read reading token = some next)
    (rest : List Token) : readAll reading (token :: rest) = readAll next rest := by
  rw [readAll, h]

/-! ## 3. Braces -/

/-- Tokens with braces that match. -/
inductive Balanced : List Token → Prop where
  | nil : Balanced []
  | token {t : Token} {rest : List Token} : t ≠ .mark '\x7b' → t ≠ .mark '\x7d' →
      Balanced rest → Balanced (t :: rest)
  | braces {inner rest : List Token} : Balanced inner → Balanced rest →
      Balanced (.mark '\x7b' :: inner ++ .mark '\x7d' :: rest)

theorem Balanced.append {first second : List Token} (h : Balanced first)
    (hsecond : Balanced second) : Balanced (first ++ second) := by
  induction h with
  | nil => exact hsecond
  | token hopen hclose _ ih => exact .token hopen hclose ih
  | braces hinner _ _ ih =>
    have := Balanced.braces hinner ih
    simpa using this

/-- Tokens with matching braces are passed over at any depth. -/
theorem Balanced.readAll_eq {tokens : List Token} (h : Balanced tokens) :
    ∀ (stack : List Frame) (rows : List (List TypeTree)) (factors : List TypeTree) (depth : Nat)
      (content rest : List Token),
      readAll (stack, .braces rows factors depth content) (tokens ++ rest) =
        readAll (stack, .braces rows factors depth (content ++ tokens)) rest := by
  induction h with
  | nil =>
    intro stack rows factors depth content rest
    rw [List.append_nil]
    rfl
  | @token t tokens hopen hclose _ ih =>
    intro stack rows factors depth content rest
    have hread : read (stack, .braces rows factors depth content) t =
        some (stack, .braces rows factors depth (content ++ [t])) := by
      rw [read]
      unfold goThrough
      split
      · exact absurd rfl hclose
      · exact absurd rfl hclose
      · exact absurd rfl hopen
      · rfl
    rw [List.cons_append, readAll_cons hread, ih, List.append_assoc]
    rfl
  | @braces inner tokens _ _ ihinner ih =>
    intro stack rows factors depth content rest
    have hopen : read (stack, .braces rows factors depth content) (.mark '\x7b') =
        some (stack, .braces rows factors (depth + 1) (content ++ [.mark '\x7b'])) := by
      cases depth <;> rfl
    have hclose : ∀ content, read (stack, .braces rows factors (depth + 1) content)
        (.mark '\x7d') = some (stack, .braces rows factors depth (content ++ [.mark '\x7d'])) :=
      fun _ => rfl
    rw [List.cons_append, List.cons_append, readAll_cons hopen, List.append_assoc, ihinner,
      List.cons_append, readAll_cons (hclose _), ih]
    simp only [List.append_assoc, List.cons_append, List.nil_append]

/-- Braces around tokens with matching braces are one operand. -/
theorem Balanced.readAll_braces {tokens : List Token} (h : Balanced tokens) (stack : List Frame)
    (rows : List (List TypeTree)) (factors : List TypeTree) (rest : List Token) :
    readAll (stack, .operand rows factors) (.mark '\x7b' :: tokens ++ .mark '\x7d' :: rest) =
      readAll (stack, .behind ⟨rows, factors, .braces tokens⟩) rest := by
  have hopen : read (stack, .operand rows factors) (.mark '\x7b') =
      some (stack, .braces rows factors 0 []) := rfl
  have hclose : read (stack, .braces rows factors 0 ([] ++ tokens)) (.mark '\x7d') =
      some (stack, .behind ⟨rows, factors, .braces tokens⟩) := rfl
  rw [List.cons_append, readAll_cons hopen, h.readAll_eq, readAll_cons hclose]

/-! ## 4. Where the words of a type come from -/

/-- The words of a token. -/
def wordsOfToken : Token → List String
  | .word s => [s]
  | .quoted _ => []
  | .mark _ => []

/-- The words before an operand. -/
def wordsBefore (rows : List (List TypeTree)) (factors : List TypeTree) : List String :=
  rows.flatMap wordsOf ++ wordsOf factors

/-- The words of a grid. -/
def wordsOfGrid (g : Grid) : List String := g.alternatives.flatMap wordsOf

/-- The words of what is open. -/
def Frame.words : Frame → List String
  | .parens rows factors => wordsBefore rows factors
  | .tuple elements rows factors => wordsOf elements ++ wordsBefore rows factors

/-- The words that have been read at the innermost level. -/
def Focus.words : Focus → List String
  | .operand rows factors => wordsBefore rows factors
  | .firstElement => []
  | .behind grid => wordsOfGrid grid
  | .bracket grid => wordsOfGrid grid
  | .braces rows factors _ _ => wordsBefore rows factors

/-- The words that have been read. -/
def wordsRead (reading : Reading) : List String :=
  reading.1.flatMap Frame.words ++ reading.2.words

theorem words_parens (rows : List (List TypeTree)) (factors : List TypeTree) :
    (Frame.parens rows factors).words = wordsBefore rows factors := rfl

theorem words_tuple (elements : List TypeTree) (rows : List (List TypeTree))
    (factors : List TypeTree) :
    (Frame.tuple elements rows factors).words = wordsOf elements ++ wordsBefore rows factors := rfl

theorem wordsBefore_nil : wordsBefore [] [] = [] := rfl

theorem words_unionOf : ∀ branches : List TypeTree, words (unionOf branches) = wordsOf branches
  | [] => rfl
  | [t] => (List.append_nil (words t)).symm
  | _ :: _ :: _ => rfl

theorem words_intersectionOf : ∀ branches : List TypeTree,
    words (intersectionOf branches) = wordsOf branches
  | [] => rfl
  | [t] => (List.append_nil (words t)).symm
  | _ :: _ :: _ => rfl

theorem wordsOf_map_intersectionOf (rows : List (List TypeTree)) :
    wordsOf (rows.map intersectionOf) = rows.flatMap wordsOf := by
  induction rows with
  | nil => rfl
  | cons row rest ih =>
    rw [List.map_cons, wordsOf, words_intersectionOf, ih, List.flatMap_cons]

theorem words_close (g : Grid) : words g.close = wordsOfGrid g := by
  rw [Grid.close, words_unionOf, wordsOf_map_intersectionOf]
  rfl

theorem wordsOfGrid_mk (rows : List (List TypeTree)) (factors : List TypeTree) (last : TypeTree) :
    wordsOfGrid ⟨rows, factors, last⟩ = wordsBefore rows factors ++ words last := by
  simp [wordsOfGrid, wordsBefore, Grid.alternatives, Grid.lastRow, wordsOf_append, wordsOf]

theorem wordsBefore_lastRow (g : Grid) : wordsBefore g.rows g.lastRow = wordsOfGrid g := by
  simp [wordsOfGrid, wordsBefore, Grid.alternatives]

theorem wordsBefore_alternatives (g : Grid) : wordsBefore g.alternatives [] = wordsOfGrid g := by
  simp [wordsOfGrid, wordsBefore, wordsOf]

theorem wordsOfGrid_brackets (g : Grid) : wordsOfGrid g.brackets = wordsOfGrid g := by
  simp [wordsOfGrid, Grid.alternatives, Grid.lastRow, Grid.brackets, wordsOf_append, wordsOf, words]

theorem beginOperand_words {stack : List Frame} {rows : List (List TypeTree)}
    {factors : List TypeTree} {token : Token} {next : Reading}
    (h : beginOperand stack rows factors token = some next) :
    wordsRead next ⊆ stack.flatMap Frame.words ++ wordsBefore rows factors ++ wordsOfToken token := by
  unfold beginOperand at h
  split at h
  all_goals
    cases h
    try simp [wordsRead, Focus.words, Frame.words, wordsOfGrid_mk, words, wordsOfToken,
      wordsBefore, wordsOf]

theorem firstElement_words {stack : List Frame} {token : Token} {next : Reading}
    (h : firstElement stack token = some next) :
    wordsRead next ⊆ stack.flatMap Frame.words ++ wordsOfToken token := by
  unfold firstElement at h
  split at h
  · cases h
    intro w hw
    simp only [wordsRead, Focus.words, words_tuple, wordsOfGrid_mk, words, wordsOf,
      List.flatMap_cons, List.mem_append, List.not_mem_nil] at hw ⊢
    tauto
  · simpa only [wordsBefore_nil, List.append_nil] using beginOperand_words h

theorem goOn_words {grid : Grid} {stack : List Frame} {token : Token} {next : Reading}
    (h : goOn grid stack token = some next) :
    wordsRead next ⊆ stack.flatMap Frame.words ++ wordsOfGrid grid ++ wordsOfToken token := by
  unfold goOn at h
  split at h
  all_goals
    cases h
  all_goals
    intro w hw
    simp only [wordsRead, Focus.words, words_parens, words_tuple, wordsOfGrid_mk, words,
      words_close, wordsOf, wordsOf_append, wordsBefore_nil, wordsBefore_lastRow,
      wordsBefore_alternatives, List.flatMap_cons, List.mem_append, List.not_mem_nil] at hw ⊢
    tauto

theorem goThrough_words {stack : List Frame} {rows : List (List TypeTree)}
    {factors : List TypeTree} {depth : Nat} {content : List Token} {token : Token} {next : Reading}
    (h : goThrough stack rows factors depth content token = some next) :
    wordsRead next ⊆ stack.flatMap Frame.words ++ wordsBefore rows factors := by
  unfold goThrough at h
  split at h
  all_goals
    cases h
    simp [wordsRead, Focus.words, wordsOfGrid_mk, words]

/-- A token adds no words but its own. -/
theorem read_words {reading next : Reading} {token : Token} (h : read reading token = some next) :
    wordsRead next ⊆ wordsRead reading ++ wordsOfToken token := by
  obtain ⟨stack, focus⟩ := reading
  cases focus with
  | operand rows factors => exact beginOperand_words h
  | firstElement =>
    have hnone : wordsRead (stack, .firstElement) = stack.flatMap Frame.words :=
      List.append_nil _
    rw [hnone]
    exact firstElement_words h
  | behind grid => exact goOn_words h
  | bracket grid =>
    rw [read] at h
    split at h
    · cases h
      show _ ++ wordsOfGrid grid.brackets ⊆ _
      rw [wordsOfGrid_brackets]
      exact List.subset_append_left _ _
    · cases h
  | braces rows factors depth content =>
    exact List.Subset.trans (goThrough_words h) (List.subset_append_left _ _)

/-- Tokens add no words but their own. -/
theorem readAll_words {tokens : List Token} {reading next : Reading}
    (h : readAll reading tokens = some next) :
    wordsRead next ⊆ wordsRead reading ++ tokens.flatMap wordsOfToken := by
  induction tokens generalizing reading with
  | nil =>
    cases h
    exact List.subset_append_left _ _
  | cons token tokens ih =>
    rw [readAll] at h
    split at h
    · cases h
    · next second hread =>
      have hfirst := read_words hread
      have hrest := ih h
      intro w hw
      rw [List.flatMap_cons, ← List.append_assoc]
      rcases List.mem_append.mp (hrest hw) with hw | hw
      · exact List.mem_append_left _ (hfirst hw)
      · exact List.mem_append_right _ hw

/-- The words of a type that is read are words of its text. -/
theorem isWord_of_mem_read? {source : String} {t : TypeTree} (h : read? source = some t) :
    ∀ w ∈ t.words, IsWord w := by
  unfold read? at h
  split at h
  · next grid hgrid =>
    obtain ⟨tokens, htokens, hread⟩ := Option.bind_eq_some_iff.mp hgrid
    cases h
    intro w hw
    rw [words_close] at hw
    obtain ⟨token, htoken, hw⟩ := List.mem_flatMap.mp (readAll_words hread hw)
    cases token with
    | word s =>
      rw [List.mem_singleton.mp hw]
      exact isWord_of_mem_tokens? htokens htoken
    | quoted s => exact absurd hw List.not_mem_nil
    | mark c => exact absurd hw List.not_mem_nil
  · cases h

end TypeTree

end TableMapper.TypeScript
