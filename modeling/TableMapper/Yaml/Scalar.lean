/-
TableMapper.Yaml.Scalar — the value of a scalar.

A plain scalar without a tag is what its text looks like; any other is
the text itself, unless its tag asks for something else.
-/
import TableMapper.Yaml.Node
import TableMapper.Yaml.ScalarText

namespace TableMapper.Yaml.Scalar

/-! ## 1. Null and truth values -/

/-- Whether a text is a spelling of null. The empty text is not, though
an empty plain scalar is null. -/
def isNull (cs : List Char) : Bool :=
  ["~".toList, "null".toList, "Null".toList, "NULL".toList].contains cs

/-- The truth value that a text spells. -/
def bool? (cs : List Char) : Option Bool :=
  if ["true".toList, "True".toList, "TRUE".toList].contains cs then some true
  else if ["false".toList, "False".toList, "FALSE".toList].contains cs then some false
  else none

/-! ## 2. Whole numbers -/

/-- The number that one or more digits to a base write. -/
def digits? (base : Nat) (cs : List Char) : Option Nat :=
  if cs.isEmpty then none
  else cs.foldlM (fun n x => do
    let d ← hexValue? x
    if d < base then some (base * n + d) else none) 0

/-- A number of several digits without a sign. Decimal numbers have no
base before them, and no zero but as their only digit. -/
def natural? : List Char → Option Nat
  | '0' :: 'x' :: cs => digits? 16 cs
  | '0' :: 'o' :: cs => digits? 8 cs
  | '0' :: 'b' :: cs => digits? 2 cs
  | '0' :: _ :: _ => none
  | cs => digits? 10 cs

/-- A whole number, perhaps with a sign. -/
def integer? : List Char → Option Int
  | '+' :: cs => (natural? cs).map Int.ofNat
  | '-' :: cs => (natural? cs).map fun n => -(n : Int)
  | cs => (natural? cs).map Int.ofNat

/-- Whole numbers that fit 128 bits, with or without a sign, are
integers. -/
def isInteger (n : Int) : Bool :=
  -0x80000000000000000000000000000000 ≤ n && n ≤ 0xffffffffffffffffffffffffffffffff

/-- Integers that fit 64 bits, with or without a sign, are supported. -/
def isSupported (n : Int) : Bool :=
  -0x8000000000000000 ≤ n && n ≤ 0xffffffffffffffff

/-- The integer that a text writes, which is an error if it is not
supported. -/
def readInteger? (cs : List Char) : Scanned (Option Int) :=
  match integer? cs with
  | none => .ok none
  | some n =>
    if isSupported n then .ok (some n)
    else if isInteger n then .error .hugeInteger
    else .ok none

/-! ## 3. Numbers that are not whole -/

/-- The exponent of a decimal: nothing, or a mark, a sign and digits. -/
def exponent? : List Char → Option Int
  | [] => some 0
  | x :: cs =>
    if x = 'e' || x = 'E' then match cs with
      | '+' :: ds => (digits? 10 ds).map Int.ofNat
      | '-' :: ds => (digits? 10 ds).map fun n => -(n : Int)
      | ds => (digits? 10 ds).map Int.ofNat
    else none

/-- A decimal without a sign, with a digit on one side of the point at
least, as the nearest number with the given sign. -/
def decimal? (negative : Bool) (cs : List Char) : Option Binary64 := do
  let before := cs.takeWhile Char.isDigit
  let rest := cs.drop before.length
  let (after, rest) := match rest with
    | '.' :: rest => (rest.takeWhile Char.isDigit, rest.dropWhile Char.isDigit)
    | _ => ([], rest)
  let digits ← digits? 10 (before ++ after)
  let exponent ← exponent? rest
  Binary64.ofDecimal? negative digits (exponent - after.length)

/-- The infinity of a sign. -/
def infinity? (negative : Bool) (cs : List Char) : Option Real :=
  if [".inf".toList, ".Inf".toList, ".INF".toList].contains cs then some (.infinite negative)
  else none

/-- The number that a text writes. -/
def real? (cs : List Char) : Option Real :=
  if [".nan".toList, ".NaN".toList, ".NAN".toList].contains cs then some .notANumber
  else
    let (negative, cs) := match cs with
      | '+' :: cs => (false, cs)
      | '-' :: cs => (true, cs)
      | cs => (false, cs)
    (infinity? negative cs).or ((decimal? negative cs).map .finite)

/-- Whether a text is all digits but begins with a zero, and so is no
number. -/
def isZeroLed (cs : List Char) : Bool :=
  let cs := match cs with
    | '+' :: cs => cs
    | '-' :: cs => cs
    | cs => cs
  1 < cs.length && cs.head? = some '0' && cs.all Char.isDigit

/-! ## 4. Scalars -/

/-- The value of a plain scalar. -/
def ofPlain (cs : List Char) : Scanned Node := do
  if cs.isEmpty || isNull cs then return .null
  else if let some b := bool? cs then return .bool b
  else if let some n ← readInteger? cs then return .whole n
  else if isZeroLed cs then return .text (String.ofList cs)
  else match real? cs with
    | some x => return .real x
    | none => return .text (String.ofList cs)

/-- The kinds of scalars that a tag can ask for. -/
inductive Kind where
  | null
  | bool
  | integer
  | real
  | text
  | other
deriving DecidableEq, Repr

/-- The kind of scalar that a tag asks for. -/
def kindOf (tag : List Char) : Kind :=
  if tag = "tag:yaml.org,2002:null".toList then .null
  else if tag = "tag:yaml.org,2002:bool".toList then .bool
  else if tag = "tag:yaml.org,2002:int".toList then .integer
  else if tag = "tag:yaml.org,2002:float".toList then .real
  else if tag.head? = some '!' then .other
  else .text

/-- The value of a scalar with a tag. -/
def ofTagged (tag cs : List Char) : Scanned Node := do
  match kindOf tag with
  | .null => if isNull cs then return .null else throw .badTaggedValue
  | .bool =>
    match bool? cs with
    | some b => return .bool b
    | none => throw .badTaggedValue
  | .integer =>
    match ← readInteger? cs with
    | some n => return .whole n
    | none => throw .badTaggedValue
  | .real =>
    match real? cs with
    | some x => return .real x
    | none => throw .badTaggedValue
  | .text => return .text (String.ofList cs)
  | .other => throw .localTag

/-- The value of a scalar. -/
def value (tag : Option (List Char)) (cs : List Char) (plain : Bool) : Scanned Node :=
  match tag with
  | some tag => ofTagged tag cs
  | none => if plain then ofPlain cs else .ok (.text (String.ofList cs))

end TableMapper.Yaml.Scalar
