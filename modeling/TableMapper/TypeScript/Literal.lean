/-
TableMapper.TypeScript.Literal — literal expressions of the generated
source: JSON documents with the further value `undefined`, laid out
over several lines.

A container opens on the line it starts on, holds one entry a line, one
level deeper, and closes at its own level. Keys that are identifiers
stand bare.
-/
import TableMapper.Json.Basic
import TableMapper.TypeScript.Identifier

namespace TableMapper.TypeScript

/-- A value that can be written as a literal expression. -/
inductive Literal where
  | undefined
  | null
  | bool (b : Bool)
  | number (n : Number)
  | text (s : String)
  | sequence (items : List Literal)
  | mapping (entries : List (String × Literal))

namespace Literal

/-! ## 1. Building literals -/

/-- A mapping from entries in order; a repeated key keeps its first
place and takes the last value. -/
def ofEntries (entries : Fields Literal) : Literal :=
  .mapping (entries.foldl (fun acc (key, value) => Fields.insert key value acc) [])

mutual

/-- The literal of a JSON document. -/
def ofJson : Json → Literal
  | .null => .null
  | .bool b => .bool b
  | .number n => .number n
  | .string s => .text s
  | .array items => .sequence (ofItems items)
  | .object fields => .mapping (ofFields fields)

/-- The literals of the items of an array. -/
def ofItems : List Json → List Literal
  | [] => []
  | item :: rest => ofJson item :: ofItems rest

/-- The literals of the fields of an object. -/
def ofFields : Fields Json → Fields Literal
  | [] => []
  | (key, value) :: rest => (key, ofJson value) :: ofFields rest

end

/-! ## 2. Layout -/

mutual

/-- The literal from its first token on, when its lines stand at the
given level. -/
def bare (level : Nat) : Literal → String
  | .undefined => "undefined"
  | .null => "null"
  | .bool b => Json.boolText b
  | .number n => n.text
  | .text s => Text.quoted s
  | .sequence items =>
    "[\n" ++ Text.joinWith ",\n" (itemLines (level + 1) items) ++ "\n" ++ Text.indent level ++ "]"
  | .mapping entries =>
    "\x7b\n" ++ Text.joinWith ",\n" (entryLines (level + 1) entries) ++ "\n"
      ++ Text.indent level ++ "\x7d"

/-- The items of a sequence, each from the start of its line. -/
def itemLines (level : Nat) : List Literal → List String
  | [] => []
  | item :: rest => (Text.indent level ++ bare level item) :: itemLines level rest

/-- The entries of a mapping, each from the start of its line. -/
def entryLines (level : Nat) : Fields Literal → List String
  | [] => []
  | (key, value) :: rest =>
    (Text.indent level ++ propertyKey key ++ ": " ++ bare level value) :: entryLines level rest

end

/-- Where a literal is written: the level of its lines, and whether its
first line is left without indentation because something stands there
already. -/
structure Placement where
  level : Nat := 0
  continued : Bool := false

/-- The text of a literal at its place. -/
def render (literal : Literal) (place : Placement) : String :=
  (if place.continued then "" else Text.indent place.level) ++ bare place.level literal

/-- The text of a literal that continues a line of the given level. -/
def renderContinued (literal : Literal) (level : Nat) : String :=
  literal.render ⟨level, true⟩

end Literal

end TableMapper.TypeScript
