/-
TableMapper.Proofs.TypeScript.TextReading — what the text of a type
expression is read as.

`Reads` says of tokens that they are read as a grid wherever an operand
may stand, whatever follows them. It is closed under every way in which
expressions are put together, so the grid of an expression is put
together from the grids of its parts.
-/
import TableMapper.Proofs.TypeScript.TypeReading
import TableMapper.Proofs.TypeScript.TypeText

namespace TableMapper

/-! ## 1. Tokens that are read as a grid -/

namespace TypeScript

open TypeTree (Balanced Frame Reading read readAll readAll_cons)

/-- The alternatives of several grids. -/
def Grid.eitherAll : List Grid → Grid
  | [] => .single (.union [])
  | [g] => g
  | g :: rest => g.either (eitherAll rest)

/-- Several grids one after the other, each going on where the one
before ends. -/
def Grid.bothAll : List Grid → Grid
  | [] => .single (.intersection [])
  | [g] => g
  | g :: rest => g.both (bothAll rest)

theorem Grid.eitherAll_cons (g h : Grid) (rest : List Grid) :
    eitherAll (g :: h :: rest) = g.either (eitherAll (h :: rest)) := rfl

theorem Grid.bothAll_cons (g h : Grid) (rest : List Grid) :
    bothAll (g :: h :: rest) = g.both (bothAll (h :: rest)) := rfl

/-- Tokens that are read as a grid wherever an operand may stand. -/
def Reads (tokens : List Token) (g : Grid) : Prop :=
  ∀ (stack : List Frame) (rows : List (List TypeTree)) (factors : List TypeTree)
    (rest : List Token),
    readAll (stack, .operand rows factors) (tokens ++ rest) =
      readAll (stack, .behind (.place rows factors g)) rest

theorem place_single (rows : List (List TypeTree)) (factors : List TypeTree) (t : TypeTree) :
    Grid.place rows factors (.single t) = ⟨rows, factors, t⟩ := by
  rw [Grid.place, Grid.single, List.append_nil]

theorem Reads.word (s : String) : Reads [.word s] (.single (.word s)) := by
  intro stack rows factors rest
  rw [place_single]
  rfl

theorem Reads.quoted (s : String) : Reads [.quoted s] (.single (.quoted s)) := by
  intro stack rows factors rest
  rw [place_single]
  rfl

/-- Brackets take the last factor. -/
theorem Reads.brackets {tokens : List Token} {g : Grid} (h : Reads tokens g) :
    Reads (tokens ++ [.mark '[', .mark ']']) g.brackets := by
  intro stack rows factors rest
  rw [List.append_assoc, h, Grid.place_brackets]
  rfl

/-- Parentheses make one operand of a grid. -/
theorem Reads.parens {tokens : List Token} {g : Grid} (h : Reads tokens g) :
    Reads (.mark '(' :: tokens ++ [.mark ')']) (.single g.close) := by
  intro stack rows factors rest
  have hopen : read (stack, .operand rows factors) (.mark '(') =
      some (.parens rows factors :: stack, .operand [] []) := rfl
  have hclose : read (.parens rows factors :: stack, .behind g) (.mark ')') =
      some (stack, .behind ⟨rows, factors, g.close⟩) := rfl
  rw [List.cons_append, List.cons_append, readAll_cons hopen, List.append_assoc, h,
    Grid.place_nil, List.singleton_append, readAll_cons hclose, place_single]

/-- Braces make one operand of what matches in them. -/
theorem Reads.braces {tokens : List Token} (h : Balanced tokens) :
    Reads (.mark '\x7b' :: tokens ++ [.mark '\x7d']) (.single (.braces tokens)) := by
  intro stack rows factors rest
  rw [List.append_assoc, List.singleton_append, h.readAll_braces, place_single]

/-- Between bars, the alternatives follow each other. -/
theorem Reads.either {pieces : List (List Token)} {grids : List Grid} (hne : pieces ≠ [])
    (hpieces : List.Forall₂ Reads pieces grids) :
    Reads (separated '|' pieces) (.eitherAll grids) := by
  induction hpieces with
  | nil => exact absurd rfl hne
  | @cons tokens g pieces grids h hrest ih =>
    cases hrest with
    | nil => exact h
    | cons hnext hrest =>
      intro stack rows factors rest
      have hbar : read (stack, .behind (.place rows factors g)) (.mark '|') =
          some (stack, .operand (Grid.place rows factors g).alternatives []) := rfl
      rw [separated_cons, List.append_assoc, h, List.cons_append, readAll_cons hbar,
        ih (List.cons_ne_nil _ _), Grid.eitherAll_cons, Grid.place_either, Grid.either]

/-- Between ampersands, each piece goes on with the last factors of the
one before. -/
theorem Reads.both {pieces : List (List Token)} {grids : List Grid} (hne : pieces ≠ [])
    (hpieces : List.Forall₂ Reads pieces grids) :
    Reads (separated '&' pieces) (.bothAll grids) := by
  induction hpieces with
  | nil => exact absurd rfl hne
  | @cons tokens g pieces grids h hrest ih =>
    cases hrest with
    | nil => exact h
    | cons hnext hrest =>
      intro stack rows factors rest
      have hampersand : read (stack, .behind (.place rows factors g)) (.mark '&') =
          some (stack, .operand (Grid.place rows factors g).rows
            (Grid.place rows factors g).lastRow) := rfl
      rw [separated_cons, List.append_assoc, h, List.cons_append, readAll_cons hampersand,
        ih (List.cons_ne_nil _ _), Grid.bothAll_cons, Grid.place_both, Grid.both]

/-- Behind the opening bracket of a tuple, an operand is read as
anywhere. -/
theorem Reads.firstElement {tokens : List Token} {g : Grid} (h : Reads tokens g)
    (stack : List Frame) (rest : List Token) :
    readAll (stack, .firstElement) (tokens ++ rest) =
      readAll (stack, .behind g) rest := by
  have hplain : ∀ rest, readAll (stack, .operand [] []) (tokens ++ rest) =
      readAll (stack, .behind g) rest := by
    intro rest
    rw [h, Grid.place_nil]
  rw [← hplain]
  have hdone := hplain []
  cases tokens with
  | nil => cases hdone
  | cons token tokens =>
    by_cases hend : token = .mark ']'
    · subst hend
      cases hdone
    · have hread : read (stack, .firstElement) token = read (stack, .operand [] []) token := by
        show TypeTree.firstElement stack token = TypeTree.beginOperand stack [] [] token
        unfold TypeTree.firstElement
        split
        · exact absurd rfl hend
        · rfl
      rw [List.cons_append, readAll, readAll, hread]

/-- The elements of a tuple are read up to its end. -/
theorem readAll_elements (stack : List Frame) (rows : List (List TypeTree))
    (factors : List TypeTree) (rest : List Token) {pieces : List (List Token)} {grids : List Grid}
    (elements : List TypeTree) (hne : pieces ≠ []) (hpieces : List.Forall₂ Reads pieces grids) :
    readAll (.tuple elements rows factors :: stack, .operand [] [])
        (separated ',' pieces ++ .mark ']' :: rest) =
      readAll (stack, .behind ⟨rows, factors, .tuple (elements ++ grids.map Grid.close)⟩) rest := by
  induction hpieces generalizing elements with
  | nil => exact absurd rfl hne
  | @cons tokens g pieces grids h hrest ih =>
    cases hrest with
    | nil =>
      rw [separated, h, Grid.place_nil]
      rfl
    | cons hnext hrest =>
      have hcomma : read (.tuple elements rows factors :: stack, .behind g) (.mark ',') =
          some (.tuple (elements ++ [g.close]) rows factors :: stack, .operand [] []) := rfl
      rw [separated_cons, List.append_assoc, h, Grid.place_nil, List.cons_append,
        readAll_cons hcomma, ih _ (List.cons_ne_nil _ _), List.append_assoc]
      rfl

/-- Between commas and in brackets, the pieces are the elements of a
tuple. -/
theorem Reads.tuple {pieces : List (List Token)} {grids : List Grid}
    (h : List.Forall₂ Reads pieces grids) :
    Reads (.mark '[' :: separated ',' pieces ++ [.mark ']'])
      (.single (.tuple (grids.map Grid.close))) := by
  intro stack rows factors rest
  have hopen : read (stack, .operand rows factors) (.mark '[') =
      some (.tuple [] rows factors :: stack, .firstElement) := rfl
  rw [List.cons_append, List.cons_append, readAll_cons hopen, List.append_assoc,
    List.singleton_append, place_single]
  cases h with
  | nil => rfl
  | @cons tokens g pieces grids hfirst hrest =>
    have hall := readAll_elements stack rows factors rest [] (List.cons_ne_nil _ _)
      (.cons hfirst hrest)
    rw [List.nil_append] at hall
    rw [← hall]
    cases hrest with
    | nil =>
      rw [separated, hfirst.firstElement, hfirst, Grid.place_nil]
    | cons hnext hrest =>
      rw [separated_cons, List.append_assoc, hfirst.firstElement, hfirst, Grid.place_nil]

/-- A text whose tokens are read as a grid is read as its type. -/
theorem Reads.read?_eq {source : String} {tokens : List Token} {g : Grid} (h : Reads tokens g)
    (hsource : Spells source.toList tokens) : TypeTree.read? source = some g.close := by
  have hread : readAll ([], .operand [] []) tokens = some ([], .behind g) := by
    have := h [] [] [] []
    rw [List.append_nil, Grid.place_nil] at this
    exact this
  rw [TypeTree.read?, hsource.tokens?_eq, Option.bind_some, hread]

/-! ## 2. Braces match -/

namespace TypeTree

theorem Balanced.word (s : String) : Balanced [.word s] := .token (by simp) (by simp) .nil

theorem Balanced.quoted (s : String) : Balanced [.quoted s] := .token (by simp) (by simp) .nil

/-- A mark that is not a brace matches. -/
theorem Balanced.mark {c : Char} (hopen : c ≠ '\x7b') (hclose : c ≠ '\x7d') :
    Balanced [.mark c] :=
  .token (fun h => hopen (Token.mark.inj h)) (fun h => hclose (Token.mark.inj h)) .nil

theorem Balanced.between {opening closing : Char} {tokens : List Token}
    (hopening : Balanced [.mark opening]) (hclosing : Balanced [.mark closing])
    (h : Balanced tokens) : Balanced (.mark opening :: tokens ++ [.mark closing]) :=
  hopening.append (h.append hclosing)

theorem Balanced.separated {c : Char} (hmark : Balanced [.mark c]) :
    ∀ {pieces : List (List Token)}, (∀ tokens ∈ pieces, Balanced tokens) →
      Balanced (separated c pieces)
  | [], _ => .nil
  | [tokens], h => h tokens (List.mem_singleton.mpr rfl)
  | tokens :: _ :: _, h =>
    (h tokens List.mem_cons_self).append (hmark.append
      (Balanced.separated hmark fun tokens htokens => h tokens (List.mem_cons_of_mem _ htokens)))

theorem Balanced.keyToken (name : String) : Balanced [keyToken name] := by
  unfold TypeScript.keyToken
  split
  · exact .word name
  · exact .quoted name

end TypeTree

end TypeScript

/-! ## 3. Documents -/

namespace Json

open TypeScript (Grid Reads)
open TypeScript.TypeTree (Balanced)

mutual

theorem balanced_tokens : ∀ v : Json, Balanced v.tokens
  | .null => .word "null"
  | .bool b => .word (boolText b)
  | .number n => .word n.text
  | .string s => .quoted s
  | .array items => .between (.mark (by decide) (by decide)) (.mark (by decide) (by decide))
      (.separated (.mark (by decide) (by decide)) (balanced_itemTokens items))
  | .object fields => .braces
      (.separated (.mark (by decide) (by decide)) (balanced_fieldTokens fields)) .nil

theorem balanced_itemTokens : ∀ items : List Json, ∀ tokens ∈ itemTokens items, Balanced tokens
  | [], _, h => absurd h List.not_mem_nil
  | item :: rest, tokens, h => by
    rcases List.mem_cons.mp h with rfl | h
    · exact balanced_tokens item
    · exact balanced_itemTokens rest tokens h

theorem balanced_fieldTokens : ∀ fields : Fields Json, ∀ tokens ∈ fieldTokens fields,
    Balanced tokens
  | [], _, h => absurd h List.not_mem_nil
  | (name, value) :: rest, tokens, h => by
    rcases List.mem_cons.mp h with rfl | h
    · exact (Balanced.quoted name).append
        ((Balanced.mark (by decide) (by decide)).append (balanced_tokens value))
    · exact balanced_fieldTokens rest tokens h

end

theorem map_close_single (items : List Json) :
    (items.map fun item => Grid.single item.typeTree).map Grid.close = itemTypes items := by
  induction items with
  | nil => rfl
  | cons item rest ih =>
    rw [List.map_cons, List.map_cons, ih]
    rfl

mutual

/-- A document is read as the type that it is. -/
theorem reads_tokens : ∀ v : Json, Reads v.tokens (.single v.typeTree)
  | .null => .word "null"
  | .bool b => .word (boolText b)
  | .number n => .word n.text
  | .string s => .quoted s
  | .array items => by
    have hitems := Reads.tuple (reads_itemTokens items)
    rw [map_close_single] at hitems
    exact hitems
  | .object fields => .braces (.separated (.mark (by decide) (by decide))
      (balanced_fieldTokens fields))

theorem reads_itemTokens : ∀ items : List Json,
    List.Forall₂ Reads (itemTokens items) (items.map fun item => Grid.single item.typeTree)
  | [] => .nil
  | item :: rest => .cons (reads_tokens item) (reads_itemTokens rest)

end

end Json

/-! ## 4. Expressions -/

namespace TypeScript.TypeExpr

open TypeTree (Balanced)

mutual

theorem balanced_tokens : ∀ e : TypeExpr, Balanced e.tokens
  | .name s => .word s
  | .verbatim _ => .nil
  | .literal value => value.balanced_tokens
  | .array element =>
    (balanced_tokens element).append (.between (.mark (by decide) (by decide))
      (.mark (by decide) (by decide)) .nil)
  | .tuple elements => .between (.mark (by decide) (by decide)) (.mark (by decide) (by decide))
      (.separated (.mark (by decide) (by decide)) (balanced_tokensOf elements))
  | .union branches => .separated (.mark (by decide) (by decide)) (balanced_tokensOf branches)
  | .intersection branches =>
    .separated (.mark (by decide) (by decide)) (balanced_tokensOf branches)
  | .parens inner => .between (.mark (by decide) (by decide)) (.mark (by decide) (by decide))
      (balanced_tokens inner)
  | .object members further => .braces
      ((balanced_memberTokens members).append (balanced_furtherTokens further)) .nil

theorem balanced_tokensOf : ∀ es : List TypeExpr, ∀ tokens ∈ tokensOf es, Balanced tokens
  | [], _, h => absurd h List.not_mem_nil
  | e :: es, tokens, h => by
    rcases List.mem_cons.mp h with rfl | h
    · exact balanced_tokens e
    · exact balanced_tokensOf es tokens h

theorem balanced_memberTokens : ∀ members : List (PropertyHead × TypeExpr),
    Balanced (memberTokens members)
  | [] => .nil
  | (head, type) :: rest => by
    have hoption : Balanced (if head.required then [] else [.mark '?']) := by
      split
      · exact .nil
      · exact .mark (by decide) (by decide)
    have hrest := (balanced_tokens type).append
      ((Balanced.mark (c := ';') (by decide) (by decide)).append (balanced_memberTokens rest))
    have hall := (Balanced.keyToken head.name).append (hoption.append
      ((Balanced.mark (c := ':') (by decide) (by decide)).append hrest))
    simpa only [memberTokens, List.append_assoc, List.cons_append, List.nil_append] using hall

theorem balanced_furtherTokens : ∀ further : Option TypeExpr, Balanced (furtherTokens further)
  | none => .nil
  | some type => by
    have hindex : Balanced [.mark '[', .word "k", .mark ':', .word "string", .mark ']',
        .mark ':'] := by
      repeat' constructor
      all_goals simp
    exact (hindex.append (balanced_tokens type)).append (.mark (by decide) (by decide))

end

mutual

/-- The grid that the text of an expression is read as. -/
def grid : TypeExpr → Grid
  | .name s => .single (.word s)
  | .verbatim source => .single (.word source)
  | .literal value => .single value.typeTree
  | .array element => (grid element).brackets
  | .tuple elements => .single (.tuple ((gridsOf elements).map Grid.close))
  | .union branches => .eitherAll (gridsOf branches)
  | .intersection branches => .bothAll (gridsOf branches)
  | .parens inner => .single (grid inner).close
  | .object members further => .single (.braces (memberTokens members ++ furtherTokens further))

/-- The grids of several expressions. -/
def gridsOf : List TypeExpr → List Grid
  | [] => []
  | e :: es => grid e :: gridsOf es

end

theorem tokensOf_ne_nil {es : List TypeExpr} (h : es ≠ []) : tokensOf es ≠ [] := by
  cases es with
  | nil => exact absurd rfl h
  | cons e es => exact List.cons_ne_nil _ _

mutual

/-- The tokens of an expression with plain parts are read as its
grid. -/
theorem reads_tokens : ∀ {e : TypeExpr}, All Plain e.parts → Reads e.tokens e.grid
  | .name s, _ => .word s
  | .verbatim _, h => absurd (h _ (List.mem_singleton.mpr rfl)) id
  | .literal value, _ => value.reads_tokens
  | .array element, h => (reads_tokens (e := element) h.tail).brackets
  | .tuple _, h => .tuple (reads_tokensOf h.tail)
  | .union _, h =>
    .either (tokensOf_ne_nil (h _ List.mem_cons_self)) (reads_tokensOf h.tail)
  | .intersection _, h =>
    .both (tokensOf_ne_nil (h _ List.mem_cons_self)) (reads_tokensOf h.tail)
  | .parens inner, h => (reads_tokens (e := inner) h).parens
  | .object members further, _ =>
    .braces ((balanced_memberTokens members).append (balanced_furtherTokens further))

theorem reads_tokensOf : ∀ {es : List TypeExpr}, All Plain (partsOf es) →
    List.Forall₂ Reads (tokensOf es) (gridsOf es)
  | [], _ => .nil
  | _ :: _, h => .cons (reads_tokens h.left) (reads_tokensOf h.right)

end

/-- What is read from the text of an expression with plain parts,
whether or not it is what was meant. -/
theorem read?_text {e : TypeExpr} (h : All Plain e.parts) (level : Nat) :
    TypeTree.read? (e.text level) = some e.grid.close :=
  (reads_tokens h).read?_eq (spells_text h level)

end TypeScript.TypeExpr

end TableMapper
