/-
TableMapper.Text.Blank — white space at the ends of a text.
-/

namespace TableMapper.Text

/-- The white space of Unicode: the control characters from tab to
carriage return and the next-line character, and all spaces and line
and paragraph separators. -/
def isBlank (c : Char) : Bool :=
  (0x9 ≤ c.toNat && c.toNat ≤ 0xd) || c.toNat = 0x20 || c.toNat = 0x85 || c.toNat = 0xa0
    || c.toNat = 0x1680 || (0x2000 ≤ c.toNat && c.toNat ≤ 0x200a) || c.toNat = 0x2028
    || c.toNat = 0x2029 || c.toNat = 0x202f || c.toNat = 0x205f || c.toNat = 0x3000

/-- The text without the white space at its end. -/
def trimEnd (cs : List Char) : List Char := (cs.reverse.dropWhile isBlank).reverse

/-- The text without the white space at its ends. -/
def trimmed (s : String) : String :=
  String.ofList (trimEnd (s.toList.dropWhile isBlank))

end TableMapper.Text
