/-
TableMapper.Yaml.Tree — the written structure of a document, and its
reading from tokens.

The tree has the nodes as they are written: a scalar is still its text,
and an alias still points to the anchor it names. `documentOf` reads
the tree of a text that holds one document.
-/
import TableMapper.Yaml.TokenStream

namespace TableMapper.Yaml

/-! ## 1. Trees -/

/-- What may be written before a node: the number of its anchor, and its
tag in full. -/
structure Marks where
  anchor : Option Nat := none
  tag : Option (List Char) := none
deriving DecidableEq, Repr

/-- The node of a document. -/
inductive Tree where
  | alias (anchor : Nat)
  | scalar (marks : Marks) (text : List Char) (plain : Bool)
  | sequence (marks : Marks) (items : List Tree)
  | mapping (marks : Marks) (entries : List (Tree × Tree))

namespace Tree

/-- A node of which nothing is written. -/
def empty : Tree := .scalar {} [] true

/-! ## 2. Reading -/

/-- What the reading of a tree goes on with: the tokens that are left,
how many there were, the meanings of tag handles, and the numbers of
the anchors so far. -/
structure Source where
  tokens : List Token
  size : Nat
  handles : List (List Char × List Char)
  anchors : List (List Char × Nat) := []

/-- A reading step. -/
abbrev Reader := StateT Source Scanned

/-- The next token, if there is one. -/
def next? : Reader (Option Token) := return (← get).tokens.head?

/-- Moves over a token. -/
def advance : Reader Unit := modify fun s => { s with tokens := s.tokens.tail }

/-- Moves over a token if it is the given one. -/
def skipOver (t : Token) : Reader Bool := do
  if (← next?) = some t then
    advance
    return true
  else return false

/-- A number greater than that of the entries of any collection, each
of which begins with a token of its own. -/
def bound : Reader Nat := return (← get).size + 1

/-- Sets the anchor of the next node. Its number is how many names are
in use, so a name that is used again does not make the next number
greater. -/
def setAnchor (name : List Char) : Reader Nat := do
  let anchors := (← get).anchors
  let number := anchors.length
  modify fun s =>
    { s with anchors := (name, number) :: anchors.filter (·.1 ≠ name) }
  return number

/-- The number that a name stands for. -/
def anchorNumber (name : List Char) : Reader Nat := do
  match (← get).anchors.find? (·.1 = name) with
  | some (_, number) => return number
  | none => throw .unknownAnchor

/-- A tag in full, with the handle replaced by its meaning. -/
def fullTag (handle suffix : List Char) : Reader (List Char) := do
  if handle.isEmpty then return suffix
  else match (← get).handles.find? (·.1 = handle) with
    | some (_, expansion) => return expansion ++ suffix
    | none => throw .unknownTagHandle

/-- Reads the anchor and the tag of a node, in either order. -/
def readMarks : Reader Marks := do
  match ← next? with
  | some (.anchor name) =>
    advance
    let number ← setAnchor name
    match ← next? with
    | some (.tag handle suffix) =>
      advance
      return ⟨some number, some (← fullTag handle suffix)⟩
    | _ => return ⟨some number, none⟩
  | some (.tag handle suffix) =>
    advance
    let tag ← fullTag handle suffix
    match ← next? with
    | some (.anchor name) =>
      advance
      return ⟨some (← setAnchor name), some tag⟩
    | _ => return ⟨none, some tag⟩
  | _ => return {}

/-- Where a node stands. Blocks can be there outside flow collections
only; the entries of a block sequence need no further indentation where
the sequence is the key or value of a mapping; and inside a flow
sequence a key and a value can be a mapping of their own. -/
inductive Place where
  | block
  | mapped
  | flow
  | pair
deriving DecidableEq, Repr

/-- Reads a node, or leaves it empty before one of the given tokens. -/
def nodeUnless (enders : List Token) (node : Reader Tree) : Reader Tree := do
  if (← next?).any (enders.contains ·) then return empty else node

/-- Reads a value after its colon, or leaves it empty. -/
def valueUnless (enders : List Token) (node : Reader Tree) : Reader Tree := do
  if ← skipOver .value then nodeUnless enders node else return empty

section Collections

variable (node : Place → Reader Tree)

/-- Reads the entries of a block sequence. -/
def blockItems : Nat → Reader (List Tree)
  | 0 => throw .missingEntry
  | fuel + 1 => do
    if ← skipOver .blockEntry then
      let item ← nodeUnless [.blockEntry, .blockEnd] (node .block)
      return item :: (← blockItems fuel)
    else if ← skipOver .blockEnd then return []
    else throw .missingEntry

/-- Reads the entries of a block sequence without indentation. -/
def mappedItems : Nat → Reader (List Tree)
  | 0 => throw .missingEntry
  | fuel + 1 => do
    if ← skipOver .blockEntry then
      let item ← nodeUnless [.blockEntry, .key, .value, .blockEnd] (node .block)
      return item :: (← mappedItems fuel)
    else return []

/-- Reads the entries of a block mapping. -/
def blockEntries : Nat → Reader (List (Tree × Tree))
  | 0 => throw .missingKey
  | fuel + 1 => do
    if ← skipOver .key then
      let enders := [.key, .value, .blockEnd]
      let key ← nodeUnless enders (node .mapped)
      let value ← valueUnless enders (node .mapped)
      return (key, value) :: (← blockEntries fuel)
    else if ← skipOver .blockEnd then return []
    else throw .missingKey

/-- Reads the comma before all entries of a flow collection but the
first. -/
def readComma (first : Bool) : Reader Unit := do
  unless first do
    unless ← skipOver .flowEntry do throw .missingComma

/-- Reads the entries of a flow sequence. -/
def flowItems : Nat → Bool → Reader (List Tree)
  | 0, _ => throw .missingComma
  | fuel + 1, first => do
    if ← skipOver .flowSequenceEnd then return []
    else
      readComma first
      if ← skipOver .key then
        let item ← node .pair
        return item :: (← flowItems fuel false)
      else if ← skipOver .flowSequenceEnd then return []
      else
        let item ← node .flow
        return item :: (← flowItems fuel false)

/-- Reads a key and a value inside a flow sequence. Where the key is
empty, the token after it is lost. -/
def readPair : Reader (Tree × Tree) := do
  let enders := [.flowEntry, .flowSequenceEnd]
  let key ← if (← next?).any ((Token.value :: enders).contains ·) then
      advance
      pure empty
    else node .flow
  let value ← valueUnless enders (node .flow)
  return (key, value)

/-- Reads the entries of a flow mapping. A key may stand there without
a value. -/
def flowEntries : Nat → Bool → Reader (List (Tree × Tree))
  | 0, _ => throw .missingComma
  | fuel + 1, first => do
    if ← skipOver .flowMappingEnd then return []
    else
      readComma first
      if ← skipOver .key then
        let enders := [.flowEntry, .flowMappingEnd]
        let key ← nodeUnless (.value :: enders) (node .flow)
        let value ← valueUnless enders (node .flow)
        return (key, value) :: (← flowEntries fuel false)
      else if ← skipOver .flowMappingEnd then return []
      else
        let key ← node .flow
        return (key, empty) :: (← flowEntries fuel false)

end Collections

/-- Reads a node after its marks. The nodes inside it are read by
`inner`, without which there can be none. -/
def readContent (inner : Option (Place → Reader Tree)) (place : Place) (marks : Marks) :
    Reader Tree := do
  let collect {α : Type} (items : (Place → Reader Tree) → Nat → Reader α) : Reader α := do
    match inner with
    | some node => items node (← bound)
    | none => throw .tooDeep
  let block := place = .block || place = .mapped
  match ← next? with
  | some (.scalar text plain) =>
    advance
    let tag := if marks.tag = some ['!'] then none else marks.tag
    return .scalar { marks with tag } text plain
  | some .flowSequenceStart =>
    advance
    return .sequence marks (← collect fun node fuel => flowItems node fuel true)
  | some .flowMappingStart =>
    advance
    return .mapping marks (← collect fun node fuel => flowEntries node fuel true)
  | some .blockEntry =>
    if place = .mapped then return .sequence marks (← collect mappedItems)
    else leaf marks
  | some .blockSequenceStart =>
    if block then
      advance
      return .sequence marks (← collect blockItems)
    else leaf marks
  | some .blockMappingStart =>
    if block then
      advance
      return .mapping marks (← collect blockEntries)
    else leaf marks
  | _ => leaf marks
where
  /-- Anchors and tags alone make a node that is empty. -/
  leaf (marks : Marks) : Reader Tree :=
    if marks.anchor.isSome || marks.tag.isSome then return .scalar marks [] true
    else throw .missingContent

/-- Reads a node, the nodes inside which are read by `inner`. -/
def readNodeWith (inner : Option (Place → Reader Tree)) (place : Place) : Reader Tree := do
  match place, inner with
  | .pair, some node => return .mapping {} [← readPair node]
  | .pair, none => throw .tooDeep
  | _, _ =>
    match ← next? with
    | some (.alias name) =>
      advance
      return .alias (← anchorNumber name)
    | _ => readContent inner place (← readMarks)

/-- Reads a node with at most so many collections inside each other. -/
def readNode : Nat → Place → Reader Tree
  | 0, place => readNodeWith none place
  | depth + 1, place => readNodeWith (some (readNode depth)) place

/-! ## 3. Documents -/

/-- The greatest number of collections inside each other. -/
def greatestDepth : Nat := 128

/-- The handles that need no directive. -/
def standardHandles : List (List Char × List Char) :=
  [(['!'], ['!']), (['!', '!'], "tag:yaml.org,2002:".toList)]

/-- Reads the directives before a document, given what they said so
far: whether there was a version, and the handles. -/
def readDirectives : List Token → Bool → List (List Char × List Char) →
    Scanned (List Token × List (List Char × List Char))
  | .version major minor :: rest, versioned, handles =>
    if versioned || major ≠ 1 || (minor ≠ 1 && minor ≠ 2) then .error .wrongVersion
    else readDirectives rest true handles
  | .tagHandle handle expansion :: rest, versioned, handles =>
    if handles.any (·.1 = handle) then .error .badDirective
    else readDirectives rest versioned ((handle, expansion) :: handles)
  | tokens, _, handles => .ok (tokens, handles)

/-- Whether a token cannot be in a document. -/
def isOutside : Token → Bool
  | .version .. | .tagHandle .. | .documentStart | .documentEnd => true
  | _ => false

/-- Reads the content of a document, and what is left after it. -/
def readDocument (tokens : List Token) : Scanned (Tree × List Token) := do
  let read (tokens : List Token) (handles : List (List Char × List Char)) := do
    let source : Source := { tokens, size := tokens.length, handles }
    let (tree, source) ← (readNode greatestDepth .block).run source
    return (tree, source.tokens)
  if tokens.head?.any fun t => isOutside t && t ≠ .documentEnd then
    let (tokens, handles) ← readDirectives tokens false []
    match tokens with
    | .documentStart :: tokens =>
      if tokens.head?.all isOutside then .ok (empty, tokens)
      else read tokens (handles ++ standardHandles)
    | _ => .error .missingDocumentStart
  else read tokens standardHandles

/-- The tree of a text that holds one document, or none, which is the
same as an empty one. -/
def documentOf (text : String) : Scanned Tree := do
  match ← tokensOf text with
  | [] => .ok empty
  | tokens =>
    let (tree, rest) ← readDocument tokens
    if rest.all (· = .documentEnd) then .ok tree else .error .severalDocuments

end Tree

end TableMapper.Yaml
