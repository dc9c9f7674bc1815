/-
TableMapper.Text.Shown — texts between quotes as messages show them.

Quotes, backslashes and line ends are escaped, and so is everything
that could not be seen or told apart on a screen: unprintable
characters and combining ones, by their hexadecimal code in braces.
-/
import TableMapper.Text.Case
import TableMapper.Text.ClusterTable
import TableMapper.Text.PrintableTable

namespace TableMapper.Text

/-- The modifiers of skin tone. They extend clusters, and are shown as
they are all the same. -/
def skinToneRanges : List (Nat × Nat) := [(0x1f3fb, 0x1f3ff)]

/-- Whether a character can be shown as it is. -/
def isShownAsIs (c : Char) : Bool :=
  if c.toNat < 0x7f then 0x20 ≤ c.toNat
  else inRanges printableRanges c && (inRanges skinToneRanges c || !inRanges extendRanges c)

/-- One character as it is shown. -/
def shownChar (c : Char) : List Char :=
  if c = '"' then ['\\', '"']
  else if c = '\\' then ['\\', '\\']
  else if c = '\n' then ['\\', 'n']
  else if c = '\r' then ['\\', 'r']
  else if c = '\t' then ['\\', 't']
  else if c.toNat = 0 then ['\\', '0']
  else if isShownAsIs c then [c]
  else '\\' :: 'u' :: '\x7b' :: Nat.toDigits 16 c.toNat ++ ['\x7d']

/-- A text as it is shown, between double quotes. -/
def shown (s : String) : String :=
  String.ofList ('"' :: s.toList.flatMap shownChar ++ ['"'])

end TableMapper.Text
