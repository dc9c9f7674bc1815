/-
TableMapper.Text.Cluster — clusters: what a reader takes for one
character, such as a letter with its accents.

A cluster is told apart here as far as case, digits and separators can
tell. The conventions that tie Hangul letters, regional indicators,
Indic conjuncts and the two characters of a line end together concern
caseless characters alone, and make no difference to that.
-/
import TableMapper.Text.Case
import TableMapper.Text.ClusterTable

namespace TableMapper.Text

/-- A cluster, as its characters. -/
abbrev Cluster := List Char

/-- The character that ties two pictographs together. -/
def joiner : Char := '\u200d'

/-- Whether a cluster that ends in a joiner, last character first, is a
pictograph with combining characters. -/
def endsJoinedPictograph : List Char → Bool
  | c :: cs =>
    c = joiner && ((cs.dropWhile (inRanges extendRanges)).head?).any (inRanges pictographRanges)
  | [] => false

/-- Whether `c` belongs to the cluster before it, whose characters are
given last one first. -/
def continues (before : List Char) (c : Char) : Bool :=
  inRanges extendRanges c || c = joiner || inRanges spacingMarkRanges c
    || before.head?.any (inRanges prependedRanges)
    || (inRanges pictographRanges c && endsJoinedPictograph before)

/-- The clusters of a text of which `current`, last character first, has
been read into the first. -/
def clustersAfter (current : List Char) : List Char → List Cluster
  | [] => [current.reverse]
  | c :: cs =>
    if continues current c then clustersAfter (c :: current) cs
    else current.reverse :: clustersAfter [c] cs

/-- The clusters of a text. -/
def clusters : List Char → List Cluster
  | [] => []
  | c :: cs => clustersAfter [c] cs

namespace Cluster

/-- Whether the cluster is a capital: its two forms differ and it is
the first. -/
def isCapital (g : Cluster) : Bool := toCapitals g != toSmalls g && g == toCapitals g

/-- Whether the cluster is small: its two forms differ and it is the
second. -/
def isSmall (g : Cluster) : Bool := toCapitals g != toSmalls g && g == toSmalls g

/-- Whether the cluster is a digit. -/
def isDigit (g : Cluster) : Bool := g.all Char.isDigit

/-- Whether the cluster separates words: a hyphen, an underscore or a
space. -/
def isSeparator (g : Cluster) : Bool := g == ['-'] || g == ['_'] || g == [' ']

end Cluster

end TableMapper.Text
