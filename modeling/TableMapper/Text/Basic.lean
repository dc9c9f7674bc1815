/-
TableMapper.Text.Basic — joining, indenting and splitting text.
-/

namespace TableMapper.Text

/-- The pieces in order with `separator` between neighbours. -/
def joinWith (separator : String) : List String → String
  | [] => ""
  | [piece] => piece
  | piece :: rest => piece ++ separator ++ joinWith separator rest

/-- The indentation of a nesting level: two spaces each. -/
def indent (level : Nat) : String :=
  String.ofList (List.replicate (2 * level) ' ')

/-- The characters up to the first `separator`, and those after it;
`none` if there is no separator. -/
def splitAtFirst? (separator : Char) : List Char → Option (List Char × List Char)
  | [] => none
  | c :: cs =>
    if c = separator then some ([], cs)
    else (splitAtFirst? separator cs).map fun (before, after) => (c :: before, after)

/-- The parts between separators; a text without one is one part. -/
def splitOn (separator : Char) : List Char → List (List Char)
  | [] => [[]]
  | c :: cs =>
    if c = separator then [] :: splitOn separator cs
    else match splitOn separator cs with
      | [] => [[c]]
      | part :: parts => (c :: part) :: parts

/-- A line without the carriage return at its end. -/
def chompReturn (line : List Char) : List Char :=
  if line.getLast? = some '\r' then line.dropLast else line

/-- The lines of a text. A line ends at a line feed, and one carriage
return before that belongs to the line end; the part after the last
line feed is a line only if it is not empty, and keeps a carriage
return. -/
def lines (text : String) : List String :=
  let parts := splitOn '\n' text.toList
  let ended := parts.dropLast.map chompReturn
  let last := (parts.getLast?.getD [])
  (if last.isEmpty then ended else ended ++ [last]).map String.ofList

end TableMapper.Text
