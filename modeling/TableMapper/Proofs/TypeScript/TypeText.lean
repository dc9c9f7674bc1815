/-
TableMapper.Proofs.TypeScript.TypeText — the tokens of the text of a
type expression.

`Plain` expressions are those whose text can be told apart into tokens
at all: their names are words, no part is given by its source text, and
unions and intersections have branches.
-/
import TableMapper.Proofs.TypeScript.Comments
import TableMapper.Proofs.TypeScript.TypeTree
import TableMapper.Proofs.TypeScript.WrittenTokens
import TableMapper.TypeScript.TypeExpr

namespace TableMapper

/-! ## 1. Literals -/

namespace Json

open TypeScript (Token TypeTree separated)

mutual

/-- The tokens of a document. -/
def tokens : Json → List Token
  | .null => [.word "null"]
  | .bool b => [.word (boolText b)]
  | .number n => [.word n.text]
  | .string s => [.quoted s]
  | .array items => .mark '[' :: separated ',' (itemTokens items) ++ [.mark ']']
  | .object fields => .mark '\x7b' :: separated ',' (fieldTokens fields) ++ [.mark '\x7d']

/-- The tokens of each item. -/
def itemTokens : List Json → List (List Token)
  | [] => []
  | item :: rest => tokens item :: itemTokens rest

/-- The tokens of each field. -/
def fieldTokens : Fields Json → List (List Token)
  | [] => []
  | (name, value) :: rest => (.quoted name :: .mark ':' :: tokens value) :: fieldTokens rest

end

mutual

/-- A document as a type: an array is a tuple, and an object is
braces. -/
def typeTree : Json → TypeTree
  | .null => .word "null"
  | .bool b => .word (boolText b)
  | .number n => .word n.text
  | .string s => .quoted s
  | .array items => .tuple (itemTypes items)
  | .object fields => .braces (separated ',' (fieldTokens fields))

/-- The items of a document as types. -/
def itemTypes : List Json → List TypeTree
  | [] => []
  | item :: rest => typeTree item :: itemTypes rest

end

end Json

namespace TypeScript

namespace TypeExpr

/-! ## 2. Tokens and parts -/

mutual

/-- The tokens of an expression. -/
def tokens : TypeExpr → List Token
  | .name s => [.word s]
  | .verbatim _ => []
  | .literal value => value.tokens
  | .array element => tokens element ++ [.mark '[', .mark ']']
  | .tuple elements => .mark '[' :: separated ',' (tokensOf elements) ++ [.mark ']']
  | .union branches => separated '|' (tokensOf branches)
  | .intersection branches => separated '&' (tokensOf branches)
  | .parens inner => .mark '(' :: tokens inner ++ [.mark ')']
  | .object members further =>
    .mark '\x7b' :: (memberTokens members ++ furtherTokens further) ++ [.mark '\x7d']

/-- The tokens of several expressions. -/
def tokensOf : List TypeExpr → List (List Token)
  | [] => []
  | e :: es => tokens e :: tokensOf es

/-- The tokens of members. -/
def memberTokens : List (PropertyHead × TypeExpr) → List Token
  | [] => []
  | (head, type) :: rest =>
    keyToken head.name :: (if head.required then [] else [.mark '?'])
      ++ .mark ':' :: tokens type ++ .mark ';' :: memberTokens rest

/-- The tokens of the type of all further members. -/
def furtherTokens : Option TypeExpr → List Token
  | none => []
  | some type =>
    [.mark '[', .word "k", .mark ':', .word "string", .mark ']', .mark ':'] ++ tokens type
      ++ [.mark ';']

end

mutual

/-- The expressions in an expression, itself among them. Parentheses are
not counted: they belong to what is inside. -/
def parts : TypeExpr → List TypeExpr
  | .name s => [.name s]
  | .verbatim source => [.verbatim source]
  | .literal value => [.literal value]
  | .array element => .array element :: parts element
  | .tuple elements => .tuple elements :: partsOf elements
  | .union branches => .union branches :: partsOf branches
  | .intersection branches => .intersection branches :: partsOf branches
  | .parens inner => parts inner
  | .object members further =>
    .object members further :: (partsOfMembers members ++ partsOfFurther further)

/-- The expressions in several expressions. -/
def partsOf : List TypeExpr → List TypeExpr
  | [] => []
  | e :: es => parts e ++ partsOf es

/-- The expressions in members. -/
def partsOfMembers : List (PropertyHead × TypeExpr) → List TypeExpr
  | [] => []
  | (_, type) :: rest => parts type ++ partsOfMembers rest

/-- The expressions in the type of all further members. -/
def partsOfFurther : Option TypeExpr → List TypeExpr
  | none => []
  | some type => parts type

end

/-- An expression that spells tokens of a type, as far as it is not its
parts that do. -/
def Plain : TypeExpr → Prop
  | .name s => IsWord s
  | .verbatim _ => False
  | .union branches => branches ≠ []
  | .intersection branches => branches ≠ []
  | _ => True

/-- A property that all of the expressions have. -/
abbrev All (p : TypeExpr → Prop) (es : List TypeExpr) : Prop := ∀ e ∈ es, p e

theorem All.tail {p : TypeExpr → Prop} {e : TypeExpr} {es : List TypeExpr}
    (h : All p (e :: es)) : All p es :=
  fun x hx => h x (List.mem_cons_of_mem e hx)

theorem All.left {p : TypeExpr → Prop} {first second : List TypeExpr}
    (h : All p (first ++ second)) : All p first :=
  fun x hx => h x (List.mem_append_left second hx)

theorem All.right {p : TypeExpr → Prop} {first second : List TypeExpr}
    (h : All p (first ++ second)) : All p second :=
  fun x hx => h x (List.mem_append_right first hx)

end TypeExpr

/-! ## 3. Texts spell their tokens -/

theorem closes_bareComma : Closes ",".toList [.mark ','] := closes_mark rfl

theorem closes_colon : Closes ":".toList [.mark ':'] := closes_mark rfl

theorem closes_colonSpace : Closes [':', ' '] [.mark ':'] :=
  (closes_mark rfl).append (closes_space rfl)

theorem closes_commaSpace : Closes ", ".toList [.mark ','] :=
  (closes_mark rfl).append (closes_space rfl)

theorem closes_bar : Closes " | ".toList [.mark '|'] :=
  (closes_space rfl).append ((closes_mark rfl).append (closes_space rfl))

theorem closes_ampersand : Closes " & ".toList [.mark '&'] :=
  (closes_space rfl).append ((closes_mark rfl).append (closes_space rfl))

/-- A text between two marks closes behind the second. -/
theorem closes_between {opening closing : Char} {inner : List Char} {tokens : List Token}
    (hopening : begin? opening = some ([.mark opening], .between))
    (hclosing : begin? closing = some ([.mark closing], .between))
    (hapart : isWordPart closing = false) (h : Spells inner tokens) :
    Closes (opening :: (inner ++ [closing])) (.mark opening :: tokens ++ [.mark closing]) := by
  have hbody := h.append_closes hapart (closes_mark hclosing)
  exact (closes_mark hopening).append hbody

end TypeScript

namespace Json

open TypeScript

mutual

/-- The compact text of a document spells its tokens. -/
theorem spells_compact : ∀ v : Json, Spells v.compact.toList v.tokens
  | .null => spells_word (isWord_of_isIdentifier (show isIdentifier "null" = true by decide))
  | .bool true => spells_word (isWord_of_isIdentifier (show isIdentifier "true" = true by decide))
  | .bool false =>
    spells_word (isWord_of_isIdentifier (show isIdentifier "false" = true by decide))
  | .number n => spells_word (isWord_numberText n)
  | .string s => (closes_quoted s).spells
  | .array items => by
    have hitems := spells_joinWith rfl rfl closes_bareComma (spells_compactItems items)
    have htext : (compact (.array items)).toList =
        '[' :: ((Text.joinWith "," (compactItems items)).toList ++ [']']) := by
      simp [compact, String.toList_append]
    rw [htext]
    exact (closes_between rfl rfl rfl hitems).spells
  | .object fields => by
    have hfields := spells_joinWith rfl rfl closes_bareComma (spells_compactFields fields)
    have htext : (compact (.object fields)).toList =
        '\x7b' :: ((Text.joinWith "," (compactFields fields)).toList ++ ['\x7d']) := by
      simp [compact, String.toList_append]
    rw [htext]
    exact (closes_between rfl rfl rfl hfields).spells

theorem spells_compactItems : ∀ items : List Json,
    List.Forall₂ (fun text tokens => Spells text.toList tokens) (compactItems items)
      (itemTokens items)
  | [] => .nil
  | item :: rest => .cons (spells_compact item) (spells_compactItems rest)

theorem spells_compactFields : ∀ fields : Fields Json,
    List.Forall₂ (fun text tokens => Spells text.toList tokens) (compactFields fields)
      (fieldTokens fields)
  | [] => .nil
  | (name, value) :: rest => by
    refine .cons ?_ (spells_compactFields rest)
    rw [String.toList_append, String.toList_append, List.append_assoc]
    exact (closes_quoted name).append_spells
      (closes_colon.append_spells (spells_compact value))

end

end Json

namespace TypeScript.TypeExpr

/-- Joined lines with the end of the last are the ended lines. -/
theorem joinWith_lines : ∀ {lines : List String}, lines ≠ [] →
    (Text.joinWith "\n" lines).toList ++ ['\n'] = lines.flatMap endedLine
  | [], h => absurd rfl h
  | [line], _ => by simp [Text.joinWith, endedLine]
  | line :: next :: rest, _ => by
    have ih := joinWith_lines (List.cons_ne_nil next rest)
    rw [Text.toList_joinWith_cons, List.append_assoc, List.append_assoc, ih]
    simp [endedLine]

/-- Lines between braces close behind them. -/
theorem closes_braced {lines : List String} {tokens : List Token}
    (h : Closes (lines.flatMap endedLine) tokens) (level : Nat) :
    Closes (braced level lines).toList (.mark '\x7b' :: tokens ++ [.mark '\x7d']) := by
  have hopening : begin? '\x7b' = some ([.mark '\x7b'], .between) := rfl
  have hclosing : begin? '\x7d' = some ([.mark '\x7d'], .between) := rfl
  cases lines with
  | nil =>
    have htext : (braced level []).toList = '\x7b' :: ([] ++ ['\x7d']) := by simp [braced]
    rw [htext]
    exact (closes_mark hopening).append (h.append (closes_mark hclosing))
  | cons line rest =>
    have htext : (braced level (line :: rest)).toList = '\x7b' :: '\n' ::
        ((line :: rest).flatMap endedLine ++ ((Text.indent level).toList ++ ['\x7d'])) := by
      rw [← joinWith_lines (List.cons_ne_nil line rest)]
      simp [braced, String.toList_append]
    rw [htext]
    exact (closes_mark hopening).append ((closes_space rfl).append
      (h.append ((closes_indent level).append (closes_mark hclosing))))

theorem closes_end : Closes [';', '\n'] [.mark ';'] :=
  (closes_mark rfl).append (closes_space rfl)

/-- The line of a member closes with its tokens. -/
theorem closes_memberLine (level : Nat) (head : PropertyHead) {type : String}
    {tokens : List Token} (h : Spells type.toList tokens) :
    Closes (endedLine (Text.indent level ++ propertyKey head.name
        ++ (if head.required then "" else "?") ++ ": " ++ type ++ ";"))
      (keyToken head.name :: (if head.required then [] else [.mark '?'])
        ++ .mark ':' :: tokens ++ [.mark ';']) := by
  have hkey := spells_propertyKey head.name
  have htype : Closes (':' :: ' ' :: (type.toList ++ [';', '\n']))
      (.mark ':' :: (tokens ++ [.mark ';'])) :=
    closes_colonSpace.append (h.append_closes rfl closes_end)
  cases head.required with
  | true =>
    have hline := (closes_indent level).append (hkey.append_closes rfl htype)
    simpa [endedLine, String.toList_append] using hline
  | false =>
    have hoption : Closes ('?' :: ':' :: ' ' :: (type.toList ++ [';', '\n']))
        (.mark '?' :: .mark ':' :: (tokens ++ [.mark ';'])) :=
      (closes_mark (c := '?') rfl).append htype
    have hline := (closes_indent level).append (hkey.append_closes rfl hoption)
    simpa [endedLine, String.toList_append] using hline

/-- The line of all further members closes with its tokens. -/
theorem closes_furtherLine (level : Nat) {type : String} {tokens : List Token}
    (h : Spells type.toList tokens) :
    Closes (endedLine (furtherLine level type))
      ([.mark '[', .word "k", .mark ':', .word "string", .mark ']', .mark ':'] ++ tokens
        ++ [.mark ';']) := by
  have hk : Spells "k".toList [.word "k"] :=
    spells_word (isWord_of_isIdentifier (show isIdentifier "k" = true by decide))
  have hstring : Spells "string".toList [.word "string"] :=
    spells_word (isWord_of_isIdentifier (show isIdentifier "string" = true by decide))
  have htype : Closes (']' :: ':' :: ' ' :: (type.toList ++ [';', '\n']))
      (.mark ']' :: .mark ':' :: (tokens ++ [.mark ';'])) :=
    (closes_mark (c := ']') rfl).append
      (closes_colonSpace.append (h.append_closes rfl closes_end))
  have hindex := hk.append_closes rfl
    (closes_colonSpace.append (hstring.append_closes rfl htype))
  have hline := (closes_indent level).append
    ((closes_mark (c := '[') rfl).append hindex)
  simpa [endedLine, furtherLine, String.toList_append] using hline

mutual

/-- The text of an expression with plain parts spells its tokens. -/
theorem spells_text : ∀ {e : TypeExpr}, All Plain e.parts →
    ∀ level, Spells (text level e).toList e.tokens
  | .name _, h, _ => spells_word (h _ (List.mem_singleton.mpr rfl))
  | .verbatim _, h, _ => absurd (h _ (List.mem_singleton.mpr rfl)) id
  | .literal value, _, _ => value.spells_compact
  | .array element, h, level => by
    have hbrackets : Closes "[]".toList [.mark '[', .mark ']'] :=
      (closes_mark rfl).append (closes_mark rfl)
    rw [text, String.toList_append]
    exact ((spells_text (e := element) h.tail level).append_closes rfl hbrackets).spells
  | .tuple elements, h, level => by
    have helements := spells_joinWith rfl rfl closes_commaSpace (spells_texts h.tail level)
    have htext : (text level (.tuple elements)).toList =
        '[' :: ((Text.joinWith ", " (texts level elements)).toList ++ [']']) := by
      simp [text, String.toList_append]
    rw [htext]
    exact (closes_between rfl rfl rfl helements).spells
  | .union branches, h, level =>
    spells_joinWith rfl rfl closes_bar (spells_texts h.tail level)
  | .intersection branches, h, level =>
    spells_joinWith rfl rfl closes_ampersand (spells_texts h.tail level)
  | .parens inner, h, level => by
    have htext : (text level (.parens inner)).toList =
        '(' :: ((text level inner).toList ++ [')']) := by
      simp [text, String.toList_append]
    rw [htext]
    exact (closes_between rfl rfl rfl (spells_text (e := inner) h level)).spells
  | .object members further, h, level => by
    have hmembers := closes_membersLines h.tail.left (level + 1)
    have hfurther := closes_furtherLines h.tail.right (level + 1)
    rw [text]
    refine (closes_braced ?_ level).spells
    rw [List.flatMap_append]
    exact hmembers.append hfurther

/-- The texts of expressions with plain parts spell their tokens. -/
theorem spells_texts : ∀ {es : List TypeExpr}, All Plain (partsOf es) → ∀ level,
    List.Forall₂ (fun text tokens => Spells text.toList tokens) (texts level es) (tokensOf es)
  | [], _, _ => .nil
  | _ :: _, h, level => .cons (spells_text h.left level) (spells_texts h.right level)

/-- The lines of members with plain parts close with their tokens. -/
theorem closes_membersLines : ∀ {members : List (PropertyHead × TypeExpr)},
    All Plain (partsOfMembers members) → ∀ level,
      Closes ((membersLines level members).flatMap endedLine) (memberTokens members)
  | [], _, _ => Closes.nil
  | (head, type) :: rest, h, level => by
    have hline := closes_memberLine level head (spells_text (e := type) h.left level)
    rw [membersLines, memberLines, List.flatMap_append, List.flatMap_append, List.append_assoc,
      List.flatMap_singleton]
    have hlines := (DocComment.closes_lines? level head.description).append
      (hline.append (closes_membersLines h.right level))
    simpa only [memberTokens, List.nil_append, List.append_assoc, List.cons_append] using hlines

/-- The line of further members with plain parts closes with its
tokens. -/
theorem closes_furtherLines : ∀ {further : Option TypeExpr},
    All Plain (partsOfFurther further) → ∀ level,
      Closes ((furtherLines level further).flatMap endedLine) (furtherTokens further)
  | none, _, _ => Closes.nil
  | some type, h, level => by
    rw [furtherLines, List.flatMap_singleton]
    exact closes_furtherLine level (spells_text (e := type) h level)

end

end TypeScript.TypeExpr

end TableMapper
