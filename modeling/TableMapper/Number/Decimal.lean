/-
TableMapper.Number.Decimal — the shortest decimal that reads back to a
double-precision number, and its written forms.

The digits and their layout are two decisions. `Binary64.shortest`
chooses the digits: the coarsest decimal grid with a point that reads
back, and of two such points the nearer, the even one on a tie. `Decimal.positional` and
`Decimal.scientific` lay the chosen digits out.
-/
import TableMapper.Number.Binary64

namespace TableMapper

/-! ## 1. Choosing the digits -/

/-- The decimal `digits * 10 ^ exponent`. -/
structure Decimal where
  digits : Nat
  exponent : Int
deriving DecidableEq, Repr

namespace Binary64

/-- The two neighbours of the magnitude of `x` on the grid of multiples
of `10 ^ exponent`, the nearer first, and halfway between them the even
one first. -/
def gridNeighbours (x : Binary64) (exponent : Int) : List Decimal :=
  let (num, den) := x.ratio
  let num := num * Nat.pow 10 (-exponent).toNat
  let den := den * Nat.pow 10 exponent.toNat
  let below := num / den
  if roundHalfEven num den = below then [⟨below, exponent⟩, ⟨below + 1, exponent⟩]
  else [⟨below + 1, exponent⟩, ⟨below, exponent⟩]

/-- Whether the decimal, with the sign of `x`, reads back as `x`. -/
def readsBack (x : Binary64) (d : Decimal) : Bool :=
  ofDecimal? x.negative d.digits d.exponent == some x

/-- A power of ten that is at least the magnitude of `x`, and at most
a hundred times it. -/
def decimalMagnitude (x : Binary64) : Int :=
  let (num, den) := x.ratio
  if den ≤ num then decimalLength (num / den)
  else 1 - (decimalLength (den / num) : Int)

/-- The exact decimal value of the magnitude. -/
def exactDecimal (x : Binary64) : Decimal :=
  if 0 ≤ x.exponent then ⟨x.significand * Nat.pow 2 x.exponent.toNat, 0⟩
  else ⟨x.significand * Nat.pow 5 (-x.exponent).toNat, x.exponent⟩

/-- The shortest decimal that reads back as `x`: the grids are tried
from coarse to fine. Seventeen digits always suffice, so the exact
value, which reads back as well, is only the end of the search. -/
def shortest (x : Binary64) : Decimal :=
  let grids := (List.range 20).map fun i : Nat => x.decimalMagnitude - i
  ((grids.flatMap x.gridNeighbours).find? x.readsBack).getD x.exactDecimal

end Binary64

/-! ## 2. Laying the digits out -/

namespace Decimal

/-- The decimal digits of `n`, most significant first. -/
def digitsOf (n : Nat) : List Char := Nat.toDigits 10 n

/-- The power of ten of the leading digit: the `k` of `d.ddd * 10 ^ k`. -/
def leadingExponent (d : Decimal) : Int :=
  (digitsOf d.digits).length - 1 + d.exponent

/-- The digits around a decimal point, with at least one on either
side of it. -/
def positional (d : Decimal) : List Char :=
  let ds := digitsOf d.digits
  if 0 ≤ d.exponent then
    ds ++ List.replicate d.exponent.toNat '0' ++ ['.', '0']
  else
    let places := (-d.exponent).toNat
    if places < ds.length then
      ds.take (ds.length - places) ++ '.' :: ds.drop (ds.length - places)
    else
      '0' :: '.' :: List.replicate (places - ds.length) '0' ++ ds

/-- One digit, the others after a point, and the exponent with its
sign. -/
def scientific (d : Decimal) : List Char :=
  let k := d.leadingExponent
  let mantissa := match digitsOf d.digits with
    | [] => []
    | [c] => [c]
    | c :: rest => c :: '.' :: rest
  mantissa ++ 'e' :: (if k < 0 then '-' else '+') :: digitsOf k.natAbs

end Decimal

namespace Binary64

/-- The sign of a number as it is written: only `-` is. -/
def signText (x : Binary64) : List Char := if x.negative then ['-'] else []

/-- Positional notation throughout: `1000.0`, `0.001`, `-0.0`. -/
def positionalText (x : Binary64) : String :=
  String.ofList (x.signText ++ (if x.isZero then ['0', '.', '0'] else x.shortest.positional))

/-- Positional notation for a leading digit between the fifth place
after the point and the sixteenth before it, and scientific notation
beyond: `1000.0`, `0.00001`, `1e+16`, `1e-6`. -/
def text (x : Binary64) : String :=
  if x.isZero then x.positionalText
  else
    let d := x.shortest
    let k := d.leadingExponent
    String.ofList (x.signText ++
      (if -5 ≤ k ∧ k ≤ 15 then d.positional else d.scientific))

end Binary64

end TableMapper
