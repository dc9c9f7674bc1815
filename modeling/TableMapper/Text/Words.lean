/-
TableMapper.Text.Words — the words of a name, and the name put together
from them with a capital each.

A name is split at separators, where small letters give way to
capitals, around digits, and before the last capital of a run of them
that goes on in small letters: `userID2Http-OKPage` has the words
`user`, `ID`, `2`, `Http`, `OK` and `Page`.
-/
import TableMapper.Text.Cluster

namespace TableMapper.Text

/-- Whether a word ends between two neighbouring clusters, given the
one after them. -/
def endsWord (a b : Cluster) (next : Option Cluster) : Bool :=
  (a.isSmall && b.isCapital) || (a.isCapital && b.isDigit) || (a.isDigit && b.isCapital)
    || (a.isDigit && b.isSmall) || (a.isSmall && b.isDigit)
    || (a.isCapital && b.isCapital && next.any Cluster.isSmall)

/-- The words of clusters of which `current`, last cluster first, has
been read into the first; words may be empty. -/
def wordsAfter (current : List Cluster) : List Cluster → List (List Char)
  | [] => [current.reverse.flatten]
  | g :: rest =>
    if g.isSeparator then current.reverse.flatten :: wordsAfter [] rest
    else if current.head?.any (endsWord · g rest.head?) then
      current.reverse.flatten :: wordsAfter [g] rest
    else wordsAfter (g :: current) rest

/-- The words of a name. -/
def words (name : List Char) : List (List Char) :=
  (wordsAfter [] (clusters name)).filter (!·.isEmpty)

/-- A word with its first character in capitals and the rest small. -/
def capitalized : List Char → List Char
  | [] => []
  | c :: cs => capital c ++ toSmalls cs

/-- The words of a name in a row, each with a capital. -/
def pascalCase (name : String) : String :=
  String.ofList ((words name.toList).flatMap capitalized)

end TableMapper.Text
