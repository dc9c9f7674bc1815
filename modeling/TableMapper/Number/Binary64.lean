/-
TableMapper.Number.Binary64 — finite double-precision numbers, kept
exactly, and the reading of a decimal as the nearest of them.

A number is a sign, a significand and a power of two, so every
comparison and every rounding is done in whole numbers. Two
structures are equal exactly when the numbers have the same bits.
-/

namespace TableMapper

/-! ## 1. The numbers -/

/-- The significand and exponent of a double-precision number: 53 bits,
with a leading one unless the exponent is the least. -/
def Binary64.Canonical (significand : Nat) (exponent : Int) : Prop :=
  significand < Nat.pow 2 53 ∧ -1074 ≤ exponent ∧ exponent ≤ 971 ∧
    (Nat.pow 2 52 ≤ significand ∨ exponent = -1074)

instance (significand : Nat) (exponent : Int) :
    Decidable (Binary64.Canonical significand exponent) :=
  inferInstanceAs (Decidable (_ ∧ _))

/-- A finite double-precision number, `± significand * 2 ^ exponent`. -/
structure Binary64 where
  negative : Bool
  significand : Nat
  exponent : Int
  canonical : Binary64.Canonical significand exponent
deriving DecidableEq, Repr

namespace Binary64

/-- Zero with the given sign. -/
def zero (negative : Bool) : Binary64 :=
  ⟨negative, 0, -1074, by decide⟩

/-- Whether the number is one of the two zeros. -/
def isZero (x : Binary64) : Bool := x.significand == 0

/-- Numerical equality: the two zeros are equal, all else is equal to
itself only. -/
def sameValue (x y : Binary64) : Bool :=
  (x.isZero && y.isZero) || x == y

/-- The numerator and the denominator of the magnitude. -/
def ratio (x : Binary64) : Nat × Nat :=
  (x.significand * Nat.pow 2 x.exponent.toNat, Nat.pow 2 (-x.exponent).toNat)

/-! ## 2. Rounding a quotient -/

/-- The whole number nearest to `num / den`; a half goes to the even
neighbour. -/
def roundHalfEven (num den : Nat) : Nat :=
  let q := num / den
  let r := num % den
  if 2 * r < den then q
  else if den < 2 * r then q + 1
  else if q % 2 = 0 then q
  else q + 1

/-- The `k` with `2 ^ k ≤ num / den < 2 ^ (k + 1)`, for positive `num`
and `den`. -/
def binaryMagnitude (num den : Nat) : Int :=
  let k : Int := (num.log2 : Int) - (den.log2 : Int)
  if den * Nat.pow 2 k.toNat ≤ num * Nat.pow 2 (-k).toNat then k else k - 1

/-- The double-precision number nearest to `num / den`, or `none` if it
is beyond the greatest. -/
def nearest? (negative : Bool) (num den : Nat) : Option Binary64 :=
  if num = 0 then some (zero negative)
  else
    let e : Int := max (binaryMagnitude num den - 52) (-1074)
    let m := roundHalfEven (num * Nat.pow 2 (-e).toNat) (den * Nat.pow 2 e.toNat)
    let (m, e) := if m = Nat.pow 2 53 then (Nat.pow 2 52, e + 1) else (m, e)
    if h : Canonical m e then some ⟨negative, m, e, h⟩ else none

/-! ## 3. Reading a decimal -/

/-- The number of decimal digits of `n`; zero has one. -/
def decimalLength (n : Nat) : Nat := (Nat.toDigits 10 n).length

/-- The double-precision number nearest to `digits * 10 ^ exponent`, or
`none` if it is beyond the greatest.

A decimal of 10 ^ 310 and above is beyond the greatest number, and one
below 10 ^ -400 is nearest to zero, so the power of ten that is worked
out stays small. -/
def ofDecimal? (negative : Bool) (digits : Nat) (exponent : Int) :
    Option Binary64 :=
  if digits = 0 then some (zero negative)
  else
    let size := (decimalLength digits : Int) + exponent
    if 310 < size then none
    else if size < -400 then some (zero negative)
    else nearest? negative (digits * Nat.pow 10 exponent.toNat) (Nat.pow 10 (-exponent).toNat)

end Binary64

end TableMapper
