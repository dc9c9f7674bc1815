/-
TableMapper.Text.Case — capital and small letters of whole texts.

One letter may have several characters as its counterpart, and the
small form of the Greek sigma depends on its place: at the end of a
word it is `ς`. Characters that are passed over, such as apostrophes
and accents, do not end a word.
-/
import TableMapper.Text.CaseTable

namespace TableMapper.Text

/-- Whether a character lies in one of the ranges. -/
def inRanges (ranges : List (Nat × Nat)) (c : Char) : Bool :=
  ranges.any fun (first, last) => first ≤ c.toNat && c.toNat ≤ last

/-- The character of the run that `c` is, at its distance. -/
def CaseRun.counterpart? (run : CaseRun) (c : Char) : Option Char :=
  if run.first ≤ c.toNat && c.toNat ≤ run.last && (c.toNat - run.first) % run.step == 0 then
    some (Char.ofNat ((c.toNat : Int) + run.distance).toNat)
  else none

/-- The counterpart of a character by the tables; a character without
one is its own. -/
def counterpart (long : List (Nat × List Nat)) (runs : List CaseRun) (c : Char) : List Char :=
  match long.lookup c.toNat with
  | some codes => codes.map Char.ofNat
  | none => [(runs.findSome? (·.counterpart? c)).getD c]

/-- The capital form of a character. -/
def capital (c : Char) : List Char :=
  if c.toNat < 0x80 then [c.toUpper] else counterpart longCapitals capitalRuns c

/-- The small form of a character that stands alone. -/
def small (c : Char) : List Char :=
  if c.toNat < 0x80 then [c.toLower] else counterpart longSmalls smallRuns c

/-- Whether the first character that is not passed over has case. -/
def facesCased (cs : List Char) : Bool :=
  ((cs.dropWhile (inRanges caseIgnorableRanges)).head?).any (inRanges casedRanges)

/-- The small form of a character between the characters before it,
last one first, and those after it. -/
def smallBetween (before : List Char) (c : Char) (after : List Char) : List Char :=
  if c = 'Σ' then
    if facesCased before && !facesCased after then ['ς'] else ['σ']
  else small c

/-- The text in capital letters. -/
def toCapitals (cs : List Char) : List Char := cs.flatMap capital

/-- The rest of a text in small letters, when `before` stands before it,
last character first. -/
def toSmallsAfter (before : List Char) : List Char → List Char
  | [] => []
  | c :: cs => smallBetween before c cs ++ toSmallsAfter (c :: before) cs

/-- The text in small letters. -/
def toSmalls (cs : List Char) : List Char := toSmallsAfter [] cs

end TableMapper.Text
