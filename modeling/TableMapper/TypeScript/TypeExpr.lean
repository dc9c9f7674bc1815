/-
TableMapper.TypeScript.TypeExpr — type expressions and the members of
object types, and their text.

Parentheses are a form of expression of their own, so the text of an
expression is put together from the texts of its parts with nothing
else decided.
-/
import TableMapper.Json.Basic
import TableMapper.TypeScript.DocComment
import TableMapper.TypeScript.Identifier

namespace TableMapper

/-- What is said of a property beside its type: its name, what
describes it, and whether every object has it. -/
structure PropertyHead where
  name : String
  description : Option String
  required : Bool
deriving DecidableEq, Repr

namespace TypeScript

/-! ## 1. Expressions -/

/-- A type expression. An object type has members in order and, if it
is open, the type of all further members. -/
inductive TypeExpr where
  | name (s : String)
  | verbatim (source : String)
  | literal (value : Json)
  | array (element : TypeExpr)
  | tuple (elements : List TypeExpr)
  | union (branches : List TypeExpr)
  | intersection (branches : List TypeExpr)
  | parens (inner : TypeExpr)
  | object (members : List (PropertyHead × TypeExpr)) (further : Option TypeExpr)

namespace TypeExpr

/-! ## 2. Text -/

/-- The lines of one member at a level, given the text of its type. -/
def memberLines (level : Nat) (head : PropertyHead) (type : String) : List String :=
  DocComment.lines? level head.description ++
    [Text.indent level ++ propertyKey head.name ++ (if head.required then "" else "?")
      ++ ": " ++ type ++ ";"]

/-- The line for all further members at a level, given the text of
their type. -/
def furtherLine (level : Nat) (type : String) : String :=
  Text.indent level ++ "[k: string]: " ++ type ++ ";"

/-- Lines between braces that close at a level; without any line the
braces close at once. -/
def braced (level : Nat) (lines : List String) : String :=
  if lines.isEmpty then "\x7b\x7d"
  else "\x7b\n" ++ Text.joinWith "\n" lines ++ "\n" ++ Text.indent level ++ "\x7d"

mutual

/-- The text of an expression whose first line stands at a level. -/
def text (level : Nat) : TypeExpr → String
  | .name s => s
  | .verbatim source => source
  | .literal value => value.compact
  | .array element => text level element ++ "[]"
  | .tuple elements => "[" ++ Text.joinWith ", " (texts level elements) ++ "]"
  | .union branches => Text.joinWith " | " (texts level branches)
  | .intersection branches => Text.joinWith " & " (texts level branches)
  | .parens inner => "(" ++ text level inner ++ ")"
  | .object members further =>
    braced level (membersLines (level + 1) members ++ furtherLines (level + 1) further)

/-- The texts of several expressions. -/
def texts (level : Nat) : List TypeExpr → List String
  | [] => []
  | e :: es => text level e :: texts level es

/-- The lines of members at a level. -/
def membersLines (level : Nat) : List (PropertyHead × TypeExpr) → List String
  | [] => []
  | (head, type) :: rest => memberLines level head (text level type) ++ membersLines level rest

/-- The line for all further members at a level, if there may be any. -/
def furtherLines (level : Nat) : Option TypeExpr → List String
  | none => []
  | some type => [furtherLine level (text level type)]

end

/-! ## 3. Parentheses -/

/-- Whether the pattern stands somewhere in the text. -/
def occurs (pattern : List Char) : List Char → Bool
  | [] => pattern.isEmpty
  | c :: cs => pattern.isPrefixOf (c :: cs) || occurs pattern cs

/-- Whether the expression is put in parentheses as an operand: its
text holds an operator and does not begin with a brace. -/
def needsParens (e : TypeExpr) : Bool :=
  let source := (text 0 e).toList
  source.head? != some '\x7b' &&
    (occurs [' ', '|', ' '] source || occurs [' ', '&', ' '] source)

/-- The expression as an operand. -/
def operand (e : TypeExpr) : TypeExpr := if e.needsParens then .parens e else e

end TypeExpr

end TypeScript

end TableMapper
