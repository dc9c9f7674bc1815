/-
TableMapper.Number — the numbers of a JSON document: whole numbers and
double-precision numbers, which are never equal to each other.
-/
import TableMapper.Number.Decimal

namespace TableMapper

/-- A number as a document distinguishes them: `1` is whole, `1.0` is
not. -/
inductive Number where
  | whole (n : Int)
  | double (x : Binary64)
deriving DecidableEq, Repr

namespace Number

/-- A whole number in decimal. -/
def wholeText : Int → String
  | .ofNat n => String.ofList (Decimal.digitsOf n)
  | .negSucc n => String.ofList ('-' :: Decimal.digitsOf (n + 1))

/-- A number as JSON writes it. -/
def text : Number → String
  | whole n => wholeText n
  | double x => x.text

end Number

end TableMapper
