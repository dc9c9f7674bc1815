/-
TableMapper.Yaml.Cursor — a place in a text that is read from front to
back.
-/

namespace TableMapper.Yaml

/-! ## 1. Characters -/

/-- A character that ends a line. -/
def isBreak (c : Char) : Bool :=
  c = '\n' || c = '\r' || c = '\u0085' || c = '\u2028' || c = '\u2029'

/-- A space or a tab. -/
def isBlank (c : Char) : Bool := c = ' ' || c = '\t'

/-- A letter, a digit, a hyphen or an underscore, all of them ASCII. -/
def isNameChar (c : Char) : Bool := c.isAlphanum || c = '-' || c = '_'

/-- Whether a character is allowed in a document at all: no control
character but tab, line ends and the next-line character, and no code
that is reserved for other uses. -/
def isAllowed (c : Char) : Bool :=
  c = '\t' || c = '\n' || c = '\r' || c = '\u0085'
    || (0x20 ≤ c.toNat && c.toNat ≤ 0x7e) || (0xa0 ≤ c.toNat && c.toNat ≤ 0xfffd)
    || 0x10000 ≤ c.toNat

/-! ## 2. Places -/

/-- What is left of a text of the given size, and where that begins: the
number of characters before it, of lines, and of characters of its
line. -/
structure Cursor where
  rest : List Char
  size : Nat
  index : Nat := 0
  line : Nat := 0
  column : Nat := 0

namespace Cursor

/-- The beginning of a text. -/
def start (text : List Char) : Cursor := { rest := text, size := text.length }

/-- A number greater than that of the characters that are left, each
step of a scan being at least one of them. -/
def steps (c : Cursor) : Nat := c.size + 1 - c.index

/-- The character `n` places ahead, if the text goes on so far. -/
def peek? (c : Cursor) (n : Nat) : Option Char := c.rest[n]?

/-- Whether the character `n` places ahead is the given one. -/
def sees (c : Cursor) (n : Nat) (x : Char) : Bool := c.peek? n == some x

/-- Whether the place `n` ahead is at the end of a line or of the
text. -/
def lineEndsAt (c : Cursor) (n : Nat) : Bool :=
  match c.peek? n with
  | none => true
  | some x => isBreak x

/-- Whether the place `n` ahead is blank, or at the end of a line or of
the text. -/
def wordEndsAt (c : Cursor) (n : Nat) : Bool :=
  match c.peek? n with
  | none => true
  | some x => isBlank x || isBreak x

/-- The place after `n` characters of one line. -/
def skip (n : Nat) (c : Cursor) : Cursor :=
  { c with rest := c.rest.drop n, index := c.index + n, column := c.column + n }

/-- The place after the characters that pass a test, none of which ends
a line. -/
def skipWhile (test : Char → Bool) (c : Cursor) : Cursor :=
  c.skip (c.rest.takeWhile test).length

/-- The place after a line end, and the text it stands for: the line
and paragraph separators stand for themselves, all others for a line
feed. -/
def takeBreak (c : Cursor) : List Char × Cursor :=
  match c.rest with
  | '\r' :: '\n' :: rest =>
    (['\n'], { c with rest, index := c.index + 2, line := c.line + 1, column := 0 })
  | x :: rest =>
    if isBreak x then
      (if x = '\u2028' ∨ x = '\u2029' then [x] else ['\n'],
        { c with rest, index := c.index + 1, line := c.line + 1, column := 0 })
    else ([], c)
  | [] => ([], c)

/-- Whether a document marker, three times the given character, stands
at the start of a line here. -/
def seesMarker (c : Cursor) (x : Char) : Bool :=
  c.column = 0 && c.sees 0 x && c.sees 1 x && c.sees 2 x && c.wordEndsAt 3

end Cursor

end TableMapper.Yaml
