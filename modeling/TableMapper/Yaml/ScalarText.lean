/-
TableMapper.Yaml.ScalarText — the text of a scalar that goes over
several lines: block scalars, quoted scalars and plain ones.

A single line break inside a folded, quoted or plain scalar is a space,
and of several the first is dropped.
-/
import TableMapper.Yaml.Cursor
import TableMapper.Yaml.Error

namespace TableMapper.Yaml

/-- Scanning either gives a result or names a problem. -/
abbrev Scanned := Except Problem

/-! ## 1. White space between the words of a scalar -/

/-- White space inside a scalar: the blanks of one line, or the first
line break and those after it. -/
structure Gap where
  blanks : List Char := []
  first : List Char := []
  others : List Char := []
  broken : Bool := false

namespace Gap

/-- The text that white space stands for. A line feed is folded; a line
or paragraph separator is kept. -/
def text (g : Gap) : List Char :=
  if !g.broken then g.blanks
  else if g.first.head? = some '\n' then (if g.others.isEmpty then [' '] else g.others)
  else g.first ++ g.others

/-- Reads white space. A tab before the given column of a new line is
an error if tabs are watched. -/
def scan (watched : Option Nat) : Nat → Gap → Cursor → Scanned (Gap × Cursor)
  | 0, g, c => .ok (g, c)
  | fuel + 1, g, c =>
    match c.peek? 0 with
    | none => .ok (g, c)
    | some x =>
      if isBlank x then
        if g.broken && x = '\t' && watched.any (c.column < ·) then .error .tabInIndentation
        else if g.broken then scan watched fuel g (c.skip 1)
        else scan watched fuel { g with blanks := g.blanks ++ [x] } (c.skip 1)
      else if isBreak x then
        let (text, c) := c.takeBreak
        if g.broken then scan watched fuel { g with others := g.others ++ text } c
        else scan watched fuel { g with first := text, broken := true } c
      else .ok (g, c)

end Gap

/-! ## 2. Block scalars -/

/-- What becomes of the line breaks at the end of a block scalar. -/
inductive Chomping where
  | strip
  | clip
  | keep
deriving DecidableEq, Repr

/-- The chomping that a character of the header asks for. -/
def chomping? : Option Char → Option Chomping
  | some '-' => some .strip
  | some '+' => some .keep
  | _ => none

/-- The indentation that a character of the header asks for. -/
def indentation? : Option Char → Option Nat
  | some x => if x.isDigit then some (x.toNat - '0'.toNat) else none
  | none => none

/-- Reads the header of a block scalar after its first character: a
chomping and an indentation in either order, and then nothing but a
comment. -/
def scanBlockHeader (c : Cursor) : Scanned (Chomping × Option Nat × Cursor) := do
  let (chomping, indentation, c) := match chomping? (c.peek? 0) with
    | some k => match indentation? (c.peek? 1) with
      | some n => (k, some n, c.skip 2)
      | none => (k, none, c.skip 1)
    | none => match indentation? (c.peek? 0) with
      | some n => match chomping? (c.peek? 1) with
        | some k => (k, some n, c.skip 2)
        | none => (.clip, some n, c.skip 1)
      | none => (.clip, none, c)
  if indentation = some 0 then .error .badBlockHeader
  else
    let c := c.skipWhile isBlank
    let c := if c.sees 0 '#' then c.skipWhile (!isBreak ·) else c
    if c.lineEndsAt 0 then .ok (chomping, indentation, c.takeBreak.2)
    else .error .badBlockHeader

/-- Reads indentation and empty lines before a line of a block scalar.
While the indentation is not known, the widest is noted. -/
def scanBlockBreaks (indent : Option Nat) :
    Nat → Nat → List Char → Cursor → Scanned (Nat × List Char × Cursor)
  | 0, widest, breaks, c => .ok (widest, breaks, c)
  | fuel + 1, widest, breaks, c =>
    let spaces := (c.rest.takeWhile (· = ' ')).length
    let c := c.skip (match indent with
      | none => spaces
      | some n => min spaces (n - c.column))
    let widest := max widest c.column
    if indent.all (c.column < ·) && c.sees 0 '\t' then .error .tabInIndentation
    else match c.peek? 0 with
      | none => .ok (widest, breaks, c)
      | some x =>
        if isBreak x then
          let (text, c) := c.takeBreak
          scanBlockBreaks indent fuel widest (breaks ++ text) c
        else .ok (widest, breaks, c)

/-- The state between two lines of a block scalar: the text so far, last
character first, the line break after the last line, those of empty
lines after it, and whether the last line began with a blank. -/
structure BlockText where
  text : List Char := []
  lineBreak : List Char := []
  breaks : List Char := []
  blankLine : Bool := false

/-- Adds a line to a block scalar. -/
def BlockText.add (folded : Bool) (b : BlockText) (line lineBreak : List Char) : BlockText :=
  let blank := line.head?.any isBlank
  let joint :=
    if folded && b.lineBreak.head? = some '\n' && !b.blankLine && !blank then
      if b.breaks.isEmpty then [' '] else []
    else b.lineBreak
  { text := line.reverse ++ (b.breaks.reverse ++ (joint.reverse ++ b.text))
    lineBreak
    blankLine := blank }

/-- Reads the lines of a block scalar. -/
def scanBlockLines (folded : Bool) (indent : Nat) :
    Nat → BlockText → Cursor → Scanned (BlockText × Cursor)
  | 0, b, c => .ok (b, c)
  | fuel + 1, b, c =>
    if c.column = indent && !c.rest.isEmpty then do
      let line := c.rest.takeWhile (!isBreak ·)
      let (lineBreak, c) := (c.skip line.length).takeBreak
      let (_, breaks, c) ← scanBlockBreaks (some indent) c.steps 0 [] c
      scanBlockLines folded indent fuel { b.add folded line lineBreak with breaks } c
    else .ok (b, c)

/-- Reads a block scalar from its first character on, inside a block of
the given indentation. -/
def scanBlockScalar (folded : Bool) (outer : Int) (c : Cursor) :
    Scanned (List Char × Cursor) := do
  let (chomping, indentation, c) ← scanBlockHeader (c.skip 1)
  let given := indentation.map fun n => if 0 ≤ outer then outer.toNat + n else n
  let (widest, breaks, c) ← scanBlockBreaks given c.steps 0 [] c
  let indent := given.getD (max (max widest (outer + 1).toNat) 1)
  let (b, c) ← scanBlockLines folded indent c.steps { breaks } c
  let tail := match chomping with
    | .strip => []
    | .clip => b.lineBreak
    | .keep => b.lineBreak ++ b.breaks
  return (b.text.reverse ++ tail, c)

/-! ## 3. Quoted scalars -/

/-- The value of a hexadecimal digit. -/
def hexValue? (x : Char) : Option Nat :=
  if x.isDigit then some (x.toNat - '0'.toNat)
  else if 'a' ≤ x ∧ x ≤ 'f' then some (x.toNat - 'a'.toNat + 10)
  else if 'A' ≤ x ∧ x ≤ 'F' then some (x.toNat - 'A'.toNat + 10)
  else none

/-- The value of hexadecimal digits. -/
def hexNumber? (digits : List Char) : Option Nat :=
  digits.foldlM (fun n x => (hexValue? x).map (16 * n + ·)) 0

/-- The character of an escape of one letter. -/
def plainEscape? : Char → Option Char
  | '0' => some '\x00'
  | 'a' => some '\x07'
  | 'b' => some '\x08'
  | 't' => some '\t'
  | '\t' => some '\t'
  | 'n' => some '\n'
  | 'v' => some '\x0b'
  | 'f' => some '\x0c'
  | 'r' => some '\r'
  | 'e' => some '\x1b'
  | ' ' => some ' '
  | '"' => some '"'
  | '/' => some '/'
  | '\\' => some '\\'
  | 'N' => some '\u0085'
  | '_' => some '\u00a0'
  | 'L' => some '\u2028'
  | 'P' => some '\u2029'
  | _ => none

/-- The number of hexadecimal digits after a letter. -/
def codeLength? : Char → Option Nat
  | 'x' => some 2
  | 'u' => some 4
  | 'U' => some 8
  | _ => none

/-- Reads an escape after its backslash. -/
def scanEscape (c : Cursor) : Scanned (Char × Cursor) :=
  match c.peek? 0 with
  | none => .error .badEscape
  | some x =>
    match plainEscape? x with
    | some y => .ok (y, c.skip 1)
    | none => match codeLength? x with
      | none => .error .badEscape
      | some n =>
        let digits := (c.rest.drop 1).take n
        match hexNumber? digits with
        | none => .error .badEscape
        | some code =>
          if digits.length = n ∧ code.isValidChar then .ok (Char.ofNat code, c.skip (n + 1))
          else .error .badEscape

/-- Reads a word of a quoted scalar, up to white space or the closing
quote, and puts it before `text`, the text so far; both have the last
character first. After an escaped line break the flag is set. -/
def scanQuotedWord (single : Bool) :
    Nat → List Char → Cursor → Scanned (List Char × Bool × Cursor)
  | 0, text, c => .ok (text, false, c)
  | fuel + 1, text, c =>
    match c.peek? 0 with
    | none => .ok (text, false, c)
    | some x =>
      if isBlank x || isBreak x then .ok (text, false, c)
      else if single && x = '\'' && c.sees 1 '\'' then
        scanQuotedWord single fuel ('\'' :: text) (c.skip 2)
      else if x = (if single then '\'' else '"') then .ok (text, false, c)
      else if !single && x = '\\' then
        if (c.peek? 1).any isBreak then .ok (text, true, (c.skip 1).takeBreak.2)
        else do
          let (y, c) ← scanEscape (c.skip 1)
          scanQuotedWord single fuel (y :: text) c
      else scanQuotedWord single fuel (x :: text) (c.skip 1)

/-- Reads a quoted scalar after its opening quote, when `text` of it is
read, last character first. -/
def scanQuotedRest (single : Bool) : Nat → List Char → Cursor → Scanned (List Char × Cursor)
  | 0, _, _ => .error .unclosedQuotes
  | fuel + 1, text, c =>
    if c.seesMarker '-' || c.seesMarker '.' then .error .markerInQuotes
    else if c.rest.isEmpty then .error .unclosedQuotes
    else do
      let (text, broken, c) ← scanQuotedWord single c.steps text c
      if c.sees 0 (if single then '\'' else '"') then .ok (text.reverse, c.skip 1)
      else
        let (gap, c) ← Gap.scan none c.steps { broken } c
        scanQuotedRest single fuel (gap.text.reverse ++ text) c

/-- Reads a quoted scalar from its opening quote on. -/
def scanQuoted (single : Bool) (c : Cursor) : Scanned (List Char × Cursor) :=
  scanQuotedRest single c.steps [] (c.skip 1)

/-! ## 4. Plain scalars -/

/-- Whether the character ends a flow entry or opens a collection. -/
def isFlowIndicator (x : Char) : Bool :=
  x = ',' || x = '[' || x = ']' || x = '\x7b' || x = '\x7d'

/-- Reads a word of a plain scalar, up to white space or an indicator,
and gives it with the last character first, after `word` of it is
read. -/
def scanPlainWord (inFlow : Bool) : Nat → List Char → Cursor → Scanned (List Char × Cursor)
  | 0, word, c => .ok (word, c)
  | fuel + 1, word, c =>
    match c.peek? 0 with
    | none => .ok (word, c)
    | some x =>
      if isBlank x || isBreak x then .ok (word, c)
      else if inFlow && x = ':' && (c.peek? 1).any (fun y => isFlowIndicator y || y = '?') then
        .error .colonInFlow
      else if (x = ':' && c.wordEndsAt 1) || (inFlow && isFlowIndicator x) then .ok (word, c)
      else scanPlainWord inFlow fuel (x :: word) (c.skip 1)

/-- Reads the words of a plain scalar, when `text` of it is read, last
character first, and the white space before the next word is in hand.
The flag tells whether the scalar ends after a line break. -/
def scanPlainRest (inFlow : Bool) (outer : Int) :
    Nat → List Char → Gap → Cursor → Scanned (List Char × Bool × Cursor)
  | 0, text, gap, c => .ok (text.reverse, gap.broken, c)
  | fuel + 1, text, gap, c =>
    if c.seesMarker '-' || c.seesMarker '.' || c.sees 0 '#' then
      .ok (text.reverse, gap.broken, c)
    else do
      let (word, c) ← scanPlainWord inFlow c.steps [] c
      let (text, gap) :=
        if word.isEmpty then (text, gap) else (word ++ (gap.text.reverse ++ text), {})
      if (c.peek? 0).any (fun x => isBlank x || isBreak x) then
        let (gap, c) ← Gap.scan (some (outer + 1).toNat) c.steps gap c
        if !inFlow && (c.column : Int) < outer + 1 then .ok (text.reverse, gap.broken, c)
        else scanPlainRest inFlow outer fuel text gap c
      else .ok (text.reverse, gap.broken, c)

/-- Reads a plain scalar inside a block of the given indentation. -/
def scanPlain (inFlow : Bool) (outer : Int) (c : Cursor) :
    Scanned (List Char × Bool × Cursor) :=
  scanPlainRest inFlow outer c.steps [] {} c

end TableMapper.Yaml
