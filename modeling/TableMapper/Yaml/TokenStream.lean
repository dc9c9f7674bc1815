/-
TableMapper.Yaml.TokenStream — the tokens of a text, in order.

A key is recognised by the colon after it, when its own tokens are
there already. So the place where a key may begin is remembered, one
for each flow collection that is open, and the tokens that a key needs
are put in at that place once its colon is met.
-/
import TableMapper.Yaml.ScalarText
import TableMapper.Yaml.Token

namespace TableMapper.Yaml

/-! ## 1. The state of the scan -/

/-- A place where a key may begin: the number of tokens before it, and
where it is in the text. A key is demanded at the indentation of a
block mapping. -/
structure KeyPlace where
  tokens : Nat
  demanded : Bool
  index : Nat
  line : Nat
  column : Nat

/-- What is known at a place of the text: the columns of the open
blocks, innermost first; for each open flow collection, innermost
first, and for the block around them the place where a key may have
begun; whether a key may begin here; and the tokens so far, last one
first, with their number. -/
structure Scanner where
  cursor : Cursor
  indent : Int := -1
  outerIndents : List Int := []
  flowLevel : Nat := 0
  keyAllowed : Bool := true
  keyPlace : Option KeyPlace := none
  outerKeyPlaces : List (Option KeyPlace) := []
  tokens : List Token := []
  count : Nat := 0

namespace Scanner

/-- Adds a token. -/
def emit (t : Token) (s : Scanner) : Scanner :=
  { s with tokens := t :: s.tokens, count := s.count + 1 }

/-- Adds a token so that `n` tokens are before it. -/
def emitAt (n : Nat) (t : Token) (s : Scanner) : Scanner :=
  let after := s.count - n
  { s with tokens := s.tokens.take after ++ t :: s.tokens.drop after, count := s.count + 1 }

/-- Moves to another place. -/
def moveTo (c : Cursor) (s : Scanner) : Scanner := { s with cursor := c }

/-- Moves over characters of a line. -/
def skip (n : Nat) (s : Scanner) : Scanner := s.moveTo (s.cursor.skip n)

/-! ## 2. Keys -/

/-- Gives up the place where a key may have begun, which is an error
where a key is demanded. -/
def dropKey (s : Scanner) : Scanned Scanner :=
  if s.keyPlace.any (·.demanded) then .error .unfinishedKey else .ok { s with keyPlace := none }

/-- Notes that a key may begin here, if it may. -/
def noteKey (s : Scanner) : Scanned Scanner :=
  if s.keyAllowed then do
    let s ← s.dropKey
    let c := s.cursor
    let demanded := s.flowLevel = 0 && s.indent = (c.column : Int)
    return { s with keyPlace := some ⟨s.count, demanded, c.index, c.line, c.column⟩ }
  else .ok s

/-- Whether a key that begins there would be over by now: it is on one
line, and at most 1024 characters long. -/
def isStale (s : Scanner) (k : KeyPlace) : Bool :=
  k.line < s.cursor.line || k.index + 1024 < s.cursor.index

/-- Gives up a stale place. -/
def refreshPlace (s : Scanner) : Option KeyPlace → Scanned (Option KeyPlace)
  | none => .ok none
  | some k =>
    if !s.isStale k then .ok (some k)
    else if k.demanded then .error .unfinishedKey
    else .ok none

/-- Gives up all stale places. -/
def dropStaleKeys (s : Scanner) : Scanned Scanner := do
  let outer ← s.outerKeyPlaces.mapM s.refreshPlace
  let place ← s.refreshPlace s.keyPlace
  return { s with keyPlace := place, outerKeyPlaces := outer }

/-! ## 3. Blocks -/

/-- Opens a block at a column if it is further in than the blocks that
are open. The token goes before the one that `before` tokens precede,
or to the end. -/
def openBlock (column : Nat) (before : Option Nat) (t : Token) (s : Scanner) : Scanner :=
  if s.flowLevel = 0 && s.indent < (column : Int) then
    let s := { s with indent := column, outerIndents := s.indent :: s.outerIndents }
    match before with
    | some n => s.emitAt n t
    | none => s.emit t
  else s

/-- Closes the blocks that are further in than a column, given the
blocks around the innermost. -/
def closeBlocksTo (column : Int) : List Int → Scanner → Scanner
  | [], s => s
  | outer :: rest, s =>
    if column < s.indent then
      closeBlocksTo column rest { s.emit .blockEnd with indent := outer, outerIndents := rest }
    else s

/-- Closes the blocks that are further in than a column, outside flow
collections. -/
def closeBlocks (column : Int) (s : Scanner) : Scanner :=
  if s.flowLevel = 0 then closeBlocksTo column s.outerIndents s else s

/-! ## 4. White space and comments between tokens -/

/-- Moves to the next token. A tab is white space where no key may
begin; a line end outside flow collections allows one. -/
def skipToToken : Nat → Scanner → Scanner
  | 0, s => s
  | fuel + 1, s =>
    let c := if s.cursor.index = 0 && s.cursor.sees 0 '\ufeff' then s.cursor.skip 1 else s.cursor
    let tabs := s.flowLevel ≠ 0 || !s.keyAllowed
    let c := c.skipWhile fun x => x = ' ' || (tabs && x = '\t')
    let c := if c.sees 0 '#' then c.skipWhile (!isBreak ·) else c
    if (c.peek? 0).any isBreak then
      let keyAllowed := s.flowLevel = 0 || s.keyAllowed
      skipToToken fuel { s with cursor := c.takeBreak.2, keyAllowed }
    else s.moveTo c

/-! ## 5. Directives, anchors and tags -/

/-- Reads a version number of one or more digits, at most nine. -/
def scanNumber (c : Cursor) : Scanned (Nat × Cursor) :=
  let digits := c.rest.takeWhile Char.isDigit
  if digits.isEmpty || 9 < digits.length then .error .badDirective
  else .ok (digits.foldl (fun n x => 10 * n + (x.toNat - '0'.toNat)) 0, c.skip digits.length)

/-- Reads the handle of a tag: an exclamation mark, and perhaps a name
and another mark. In a directive a name without the second mark is an
error. -/
def scanTagHandle (inDirective : Bool) (c : Cursor) : Scanned (List Char × Cursor) :=
  if !c.sees 0 '!' then .error .badTag
  else
    let name := (c.rest.drop 1).takeWhile isNameChar
    let c := c.skip (name.length + 1)
    if c.sees 0 '!' then .ok ('!' :: name ++ ['!'], c.skip 1)
    else if inDirective && !name.isEmpty then .error .badTag
    else .ok ('!' :: name, c)

/-- A character of a tag. Inside angle brackets and directives commas
and square brackets are allowed as well. -/
def isTagChar (verbatim : Bool) (x : Char) : Bool :=
  isNameChar x || ";/?:@&=+$.%!~*'()".toList.contains x || (verbatim && ",[]".toList.contains x)

/-- The value of the two hexadecimal digits of an escape. -/
def escapedByte? : List Char → Option (Nat × List Char)
  | '%' :: a :: b :: rest => do return (16 * (← hexValue? a) + (← hexValue? b), rest)
  | _ => none

/-- Reads further bytes of a character in UTF-8. -/
def continuation? : Nat → Nat → List Char → Option (Nat × List Char)
  | 0, code, cs => some (code, cs)
  | n + 1, code, cs => do
    let (byte, cs) ← escapedByte? cs
    if byte / 64 = 2 then continuation? n (64 * code + byte % 64) cs else none

/-- Reads a character that is escaped byte by byte. -/
def escapedChar? (cs : List Char) : Option (Char × List Char) := do
  let (byte, rest) ← escapedByte? cs
  let (code, rest) ←
    if byte < 0x80 then some (byte, rest)
    else if byte / 32 = 6 then continuation? 1 (byte % 32) rest
    else if byte / 16 = 14 then continuation? 2 (byte % 16) rest
    else if byte / 8 = 30 then continuation? 3 (byte % 8) rest
    else none
  if code.isValidChar then some (Char.ofNat code, rest) else none

/-- The characters of a tag with the escapes resolved. -/
def unescapeTag : Nat → List Char → Scanned (List Char)
  | 0, _ => .ok []
  | _ + 1, [] => .ok []
  | fuel + 1, x :: cs =>
    if x = '%' then
      match escapedChar? (x :: cs) with
      | some (y, rest) => (unescapeTag fuel rest).map (y :: ·)
      | none => .error .badTag
    else (unescapeTag fuel cs).map (x :: ·)

/-- Reads the characters of a tag after those of `head`, of which the
exclamation mark is dropped. -/
def scanTagText (verbatim : Bool) (head : List Char) (c : Cursor) :
    Scanned (List Char × Cursor) := do
  let raw := c.rest.takeWhile (isTagChar verbatim)
  if raw.isEmpty && head.isEmpty then .error .badTag
  else
    let text ← unescapeTag raw.length raw
    return (head.drop 1 ++ text, c.skip raw.length)

/-- Reads a tag. -/
def scanTag (inFlow : Bool) (c : Cursor) : Scanned (Token × Cursor) := do
  let (t, c) ←
    if c.sees 1 '<' then do
      let (suffix, c) ← scanTagText true [] (c.skip 2)
      if c.sees 0 '>' then .ok (Token.tag [] suffix, c.skip 1) else .error .badTag
    else do
      let (handle, c) ← scanTagHandle false c
      if 1 < handle.length && handle.getLast? = some '!' then
        let (suffix, c) ← scanTagText false [] c
        .ok (Token.tag handle suffix, c)
      else
        let (suffix, c) ← scanTagText false handle c
        if suffix.isEmpty then .ok (Token.tag [] ['!'], c) else .ok (Token.tag ['!'] suffix, c)
  if (inFlow && c.sees 0 ',') || c.wordEndsAt 0 then .ok (t, c) else .error .badTag

/-- Reads the name of an anchor or an alias. -/
def scanAnchor (c : Cursor) : Scanned (List Char × Cursor) :=
  let name := (c.rest.drop 1).takeWhile isNameChar
  let c := c.skip (name.length + 1)
  let ends := c.wordEndsAt 0 || (c.peek? 0).any ("?:,]\x7d%@`".toList.contains ·)
  if name.isEmpty || !ends then .error .badAnchor else .ok (name, c)

/-- Reads the value of a directive of the given name. -/
def scanDirectiveValue (name : List Char) (c : Cursor) : Scanned (Token × Cursor) := do
  let c := c.skipWhile isBlank
  if name = "YAML".toList then
    let (major, c) ← scanNumber c
    if !c.sees 0 '.' then .error .badDirective
    else
      let (minor, c) ← scanNumber (c.skip 1)
      .ok (.version major minor, c)
  else if name = "TAG".toList then
    let (handle, c) ← scanTagHandle true c
    if !(c.peek? 0).any isBlank then .error .badDirective
    else
      let (expansion, c) ← scanTagText true [] (c.skipWhile isBlank)
      if c.wordEndsAt 0 then .ok (.tagHandle handle expansion, c) else .error .badDirective
  else .error .badDirective

/-- Reads a directive, up to the end of its line. -/
def scanDirective (c : Cursor) : Scanned (Token × Cursor) := do
  let name := (c.rest.drop 1).takeWhile isNameChar
  let c := c.skip (name.length + 1)
  if name.isEmpty || !c.wordEndsAt 0 then .error .badDirective
  else
    let (t, c) ← scanDirectiveValue name c
    let c := c.skipWhile isBlank
    let c := if c.sees 0 '#' then c.skipWhile (!isBreak ·) else c
    if c.lineEndsAt 0 then .ok (t, c.takeBreak.2) else .error .badDirective

/-! ## 6. Tokens -/

/-- Ends all blocks before a directive, a document marker or the end of
the text. -/
def leaveBlocks (s : Scanner) : Scanned Scanner := do
  let s ← (s.closeBlocks (-1)).dropKey
  return { s with keyAllowed := false }

/-- Reads a marker between documents. -/
def takeMarker (t : Token) (s : Scanner) : Scanned Scanner := do
  return ((← s.leaveBlocks).emit t).skip 3

/-- Opens a flow collection, which may be a key, and at whose start a
key may begin. -/
def openFlow (t : Token) (s : Scanner) : Scanned Scanner := do
  let s ← s.noteKey
  return { (s.emit t).skip 1 with
    flowLevel := s.flowLevel + 1, keyAllowed := true, keyPlace := none,
    outerKeyPlaces := s.keyPlace :: s.outerKeyPlaces }

/-- Closes a flow collection; without one that is open, there is only
the token. -/
def closeFlow (t : Token) (s : Scanner) : Scanned Scanner := do
  let s ← s.dropKey
  let s := match s.outerKeyPlaces with
    | place :: rest =>
      { s with flowLevel := s.flowLevel - 1, keyPlace := place, outerKeyPlaces := rest }
    | [] => s
  return { (s.emit t).skip 1 with keyAllowed := false }

/-- Reads the comma between flow entries. -/
def takeFlowEntry (s : Scanner) : Scanned Scanner := do
  return { ((← s.dropKey).emit .flowEntry).skip 1 with keyAllowed := true }

/-- Reads the hyphen before a block entry. -/
def takeBlockEntry (s : Scanner) : Scanned Scanner := do
  if s.flowLevel = 0 && !s.keyAllowed then .error .misplacedEntry
  else
    let s ← (s.openBlock s.cursor.column none .blockSequenceStart).dropKey
    return { (s.emit .blockEntry).skip 1 with keyAllowed := true }

/-- Reads the question mark before a key. -/
def takeKey (s : Scanner) : Scanned Scanner := do
  if s.flowLevel = 0 && !s.keyAllowed then .error .misplacedKey
  else
    let s ← (s.openBlock s.cursor.column none .blockMappingStart).dropKey
    return { (s.emit .key).skip 1 with keyAllowed := s.flowLevel = 0 }

/-- Reads the colon before a value, and makes what stands before it on
its line a key. -/
def takeValue (s : Scanner) : Scanned Scanner :=
  match s.keyPlace with
  | some k =>
    let s := (s.emitAt k.tokens .key).openBlock k.column (some k.tokens) .blockMappingStart
    .ok { (s.emit .value).skip 1 with keyPlace := none, keyAllowed := false }
  | none =>
    if s.flowLevel = 0 && !s.keyAllowed then .error .misplacedValue
    else
      let s := s.openBlock s.cursor.column none .blockMappingStart
      .ok { (s.emit .value).skip 1 with keyAllowed := s.flowLevel = 0 }

/-- Reads something that may be a key. -/
def takeKeyToken (scan : Cursor → Scanned (Token × Cursor)) (s : Scanner) : Scanned Scanner := do
  let s ← s.noteKey
  let (t, c) ← scan s.cursor
  return { (s.emit t).moveTo c with keyAllowed := false }

/-- Reads a plain scalar. After a line break a key may follow it. -/
def takePlain (s : Scanner) : Scanned Scanner := do
  let s ← s.noteKey
  let (text, broken, c) ← scanPlain (s.flowLevel ≠ 0) s.indent s.cursor
  return { (s.emit (.scalar text true)).moveTo c with keyAllowed := broken }

/-- Reads a block scalar, which is no key. -/
def takeBlockScalar (folded : Bool) (s : Scanner) : Scanned Scanner := do
  let s ← s.dropKey
  let (text, c) ← scanBlockScalar folded s.indent s.cursor
  return { (s.emit (.scalar text false)).moveTo c with keyAllowed := true }

/-- Whether a plain scalar may begin here with the given character. -/
def startsPlain (s : Scanner) (x : Char) : Bool :=
  (!isBlank x && !"-?:,[]\x7b\x7d#&*!|>'\"%@`".toList.contains x)
    || (x = '-' && !(s.cursor.peek? 1).any isBlank)
    || (s.flowLevel = 0 && (x = '?' || x = ':') && !s.cursor.wordEndsAt 1)

/-- Reads the token that begins with the given character. -/
def takeToken (s : Scanner) (x : Char) : Scanned Scanner :=
  let c := s.cursor
  let inFlow := s.flowLevel ≠ 0
  if c.column = 0 && x = '%' then do
    let s ← s.leaveBlocks
    let (t, c) ← scanDirective s.cursor
    return (s.emit t).moveTo c
  else if c.seesMarker '-' then s.takeMarker .documentStart
  else if c.seesMarker '.' then s.takeMarker .documentEnd
  else if x = '[' then s.openFlow .flowSequenceStart
  else if x = '\x7b' then s.openFlow .flowMappingStart
  else if x = ']' then s.closeFlow .flowSequenceEnd
  else if x = '\x7d' then s.closeFlow .flowMappingEnd
  else if x = ',' then s.takeFlowEntry
  else if x = '-' && c.wordEndsAt 1 then s.takeBlockEntry
  else if x = '?' && (inFlow || c.wordEndsAt 1) then s.takeKey
  else if x = ':' && (inFlow || c.wordEndsAt 1) then s.takeValue
  else if x = '*' then s.takeKeyToken fun c => (scanAnchor c).map fun (n, c) => (.alias n, c)
  else if x = '&' then s.takeKeyToken fun c => (scanAnchor c).map fun (n, c) => (.anchor n, c)
  else if x = '!' then s.takeKeyToken (scanTag inFlow)
  else if x = '|' && !inFlow then s.takeBlockScalar false
  else if x = '>' && !inFlow then s.takeBlockScalar true
  else if x = '\'' then
    s.takeKeyToken fun c => (scanQuoted true c).map fun (t, c) => (.scalar t false, c)
  else if x = '"' then
    s.takeKeyToken fun c => (scanQuoted false c).map fun (t, c) => (.scalar t false, c)
  else if s.startsPlain x then s.takePlain
  else .error .strayCharacter

/-- Reads all tokens to the end of the text. -/
def run : Nat → Scanner → Scanned Scanner
  | 0, s => .ok s
  | fuel + 1, s => do
    let s ← (s.skipToToken s.cursor.steps).dropStaleKeys
    let s := s.closeBlocks s.cursor.column
    match s.cursor.peek? 0 with
    | none => s.leaveBlocks
    | some x => run fuel (← s.takeToken x)

end Scanner

/-- The tokens of a text, or the first problem. -/
def tokensOf (text : String) : Scanned (List Token) :=
  if text.toList.all isAllowed then
    let cursor := Cursor.start text.toList
    (Scanner.run cursor.steps { cursor }).map (·.tokens.reverse)
  else .error .controlCharacter

end TableMapper.Yaml
