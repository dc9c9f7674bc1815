/-
TableMapper.Proofs.Number.Reading — reading a number back from its text.

The reader knows the grammar of numbers in JSON: an optional sign, a
whole part without leading zeros, digits behind a point, and an exponent
of ten. A number without the latter two is whole, every other is the
double-precision number nearest to the decimal. `read?_text` says that
it gets back the number that was written.
-/
import TableMapper.Number
import TableMapper.Proofs.Number.Rounding
import TableMapper.Proofs.Text.Splitting

namespace TableMapper.Number

open Text

/-! ## 1. The reader -/

/-- The number that decimal digits spell. -/
def valueOf (digits : List Char) : Nat := Nat.ofDigitChars 10 digits 0

/-- Digits that may stand before the point: at least one, and of several
the first is no zero. -/
def isWholePart : List Char → Bool
  | [] => false
  | [_] => true
  | c :: _ => c != '0'

/-- The digits behind a point, and the rest; there need be no point, but
behind one there is a digit. -/
def fraction? : List Char → Option (List Char × List Char)
  | '.' :: cs =>
    if (cs.takeWhile Char.isDigit).isEmpty then none
    else some (cs.takeWhile Char.isDigit, cs.dropWhile Char.isDigit)
  | cs => some ([], cs)

/-- The number that a text of digits is. -/
def digits? (cs : List Char) : Option Nat :=
  if cs.isEmpty || !cs.all Char.isDigit then none else some (valueOf cs)

/-- The exponent of ten that the rest of a number is; none is zero. -/
def exponent? : List Char → Option Int
  | [] => some 0
  | e :: cs =>
    if e = 'e' ∨ e = 'E' then
      match cs with
      | '-' :: ds => (digits? ds).map fun n : Nat => -(n : Int)
      | '+' :: ds => (digits? ds).map fun n : Nat => (n : Int)
      | ds => (digits? ds).map fun n : Nat => (n : Int)
    else none

/-- A number without fraction and exponent is whole; only zero with a
sign is not. -/
def ofWhole (negative : Bool) (n : Nat) : Number :=
  if negative then if n = 0 then double (.zero true) else whole (-n) else whole n

/-- The number that the text behind a sign is. -/
def unsigned? (negative : Bool) (cs : List Char) : Option Number :=
  let digits := cs.takeWhile Char.isDigit
  let rest := cs.dropWhile Char.isDigit
  if !isWholePart digits then none
  else if rest.isEmpty then some (ofWhole negative (valueOf digits))
  else
    (fraction? rest).bind fun (places, rest) =>
      (exponent? rest).bind fun exponent =>
        (Binary64.ofDecimal? negative (valueOf (digits ++ places))
          (exponent - places.length)).map double

/-- The number that a text is. -/
def read? (text : String) : Option Number :=
  match text.toList with
  | '-' :: cs => unsigned? true cs
  | cs => unsigned? false cs

/-! ## 2. Digits -/

/-- All characters are digits. -/
abbrev Digits (cs : List Char) : Prop := ∀ c ∈ cs, c.isDigit = true

theorem digits_digitsOf (n : Nat) : Digits (Decimal.digitsOf n) :=
  fun _ hc => Nat.isDigit_of_mem_toDigits (by decide) (by decide) hc

theorem digits_zeros (n : Nat) : Digits (List.replicate n '0') := by
  intro c hc
  rw [List.eq_of_mem_replicate hc]
  rfl

theorem valueOf_digitsOf (n : Nat) : valueOf (Decimal.digitsOf n) = n :=
  Nat.ofDigitChars_ten_toDigits

/-- Zeros before the digits do not count. -/
theorem valueOf_zeros_append (n : Nat) (cs : List Char) :
    valueOf (List.replicate n '0' ++ cs) = valueOf cs := by
  rw [valueOf, Nat.ofDigitChars_append, Nat.ofDigitChars_replicate_zero, Nat.mul_zero, valueOf]

theorem digitChar_ne_zero : ∀ n < 10, 0 < n → n.digitChar ≠ '0' := by decide

/-- The digits of a number other than zero do not begin with zero. -/
theorem head?_digitsOf_ne_zero (n : Nat) (hn : 0 < n) :
    (Decimal.digitsOf n).head? ≠ some '0' := by
  induction n using Nat.strongRecOn with
  | _ n ih =>
    rw [Decimal.digitsOf]
    by_cases hlt : n < 10
    · rw [Nat.toDigits_of_lt_base hlt, List.head?_cons]
      exact fun h => digitChar_ne_zero n hlt hn (Option.some.inj h)
    · rw [Nat.toDigits_of_base_le (by decide) (by omega),
        List.head?_append_of_ne_nil _ Nat.toDigits_ne_nil]
      exact ih (n / 10) (by omega) (by omega)

theorem isWholePart_cons {c : Char} (cs : List Char) (h : c ≠ '0') :
    isWholePart (c :: cs) = true := by
  cases cs with
  | nil => rfl
  | cons d ds => exact bne_iff_ne.mpr h

/-- The digits of a number, or the first of them, may stand before the
point. -/
theorem isWholePart_take_digitsOf (n : Nat) {k : Nat} (hk : 0 < k) :
    isWholePart ((Decimal.digitsOf n).take k) = true := by
  obtain ⟨k, rfl⟩ := Nat.exists_eq_succ_of_ne_zero hk.ne'
  rcases Nat.eq_zero_or_pos n with rfl | hn
  · rw [Decimal.digitsOf, Nat.toDigits_zero, List.take_succ_cons, List.take_nil]
    rfl
  · have hhead := head?_digitsOf_ne_zero n hn
    cases hs : Decimal.digitsOf n with
    | nil => exact absurd hs Nat.toDigits_ne_nil
    | cons c cs =>
      rw [hs] at hhead
      exact isWholePart_cons _ fun h => hhead (congrArg some h)

theorem isWholePart_digitsOf (n : Nat) : isWholePart (Decimal.digitsOf n) = true := by
  have hpos : 0 < (Decimal.digitsOf n).length := Nat.length_toDigits_pos
  have htake := isWholePart_take_digitsOf n hpos
  rwa [List.take_length] at htake

/-! ## 3. Reading parts of a number -/

/-- Digits behind a point are read as such. -/
theorem fraction?_point {places rest : List Char} (hne : places ≠ []) (h : Digits places)
    (hrest : EndsRun Char.isDigit rest) :
    fraction? ('.' :: (places ++ rest)) = some (places, rest) := by
  simp [fraction?, takeWhile_run h hrest, dropWhile_run h hrest, hne]

theorem digits?_digitsOf (n : Nat) : digits? (Decimal.digitsOf n) = some n := by
  have hne : Decimal.digitsOf n ≠ [] := Nat.toDigits_ne_nil
  have hall : (Decimal.digitsOf n).all Char.isDigit = true :=
    List.all_eq_true.mpr (digits_digitsOf n)
  simp [digits?, hne, hall, valueOf_digitsOf]

/-- A written exponent is read back. -/
theorem exponent?_written (k : Int) :
    exponent? ('e' :: (if k < 0 then '-' else '+') :: Decimal.digitsOf k.natAbs) = some k := by
  by_cases hk : k < 0
  · simp [exponent?, hk, digits?_digitsOf, abs_of_neg hk]
  · simp [exponent?, hk, digits?_digitsOf, abs_of_nonneg (not_lt.mp hk)]

/-! ## 4. Reading numbers -/

/-- Digits alone are a whole number. -/
theorem unsigned?_digitsOf (negative : Bool) (n : Nat) :
    unsigned? negative (Decimal.digitsOf n) = some (ofWhole negative n) := by
  have htake := takeWhile_run (digits_digitsOf n) (endsRun_nil _)
  have hdrop := dropWhile_run (digits_digitsOf n) (endsRun_nil _)
  rw [List.append_nil] at htake hdrop
  simp [unsigned?, htake, hdrop, isWholePart_digitsOf, valueOf_digitsOf]

/-- Digits around a point are the nearest double-precision number. -/
theorem unsigned?_point (negative : Bool) {digits places rest : List Char}
    (hwhole : isWholePart digits = true) (hdigits : Digits digits) (hne : places ≠ [])
    (hplaces : Digits places) (hrest : EndsRun Char.isDigit rest) :
    unsigned? negative (digits ++ '.' :: (places ++ rest)) =
      (exponent? rest).bind fun exponent =>
        (Binary64.ofDecimal? negative (valueOf (digits ++ places))
          (exponent - places.length)).map double := by
  have hends : EndsRun Char.isDigit ('.' :: (places ++ rest)) := endsRun_cons rfl _
  simp [unsigned?, takeWhile_run hdigits hends, dropWhile_run hdigits hends, hwhole,
    fraction?_point hne hplaces hrest]

/-- Digits before an exponent are the nearest double-precision number. -/
theorem unsigned?_exponent (negative : Bool) {digits : List Char}
    (hwhole : isWholePart digits = true) (hdigits : Digits digits) (rest : List Char) :
    unsigned? negative (digits ++ 'e' :: rest) =
      (exponent? ('e' :: rest)).bind fun exponent =>
        (Binary64.ofDecimal? negative (valueOf digits) exponent).map double := by
  have hends : EndsRun Char.isDigit ('e' :: rest) := endsRun_cons rfl _
  have hfraction : fraction? ('e' :: rest) = some ([], 'e' :: rest) := rfl
  simp [unsigned?, takeWhile_run hdigits hends, dropWhile_run hdigits hends, hwhole,
    hfraction]

/-- Positional notation is digits around a point, which have the value
of the decimal once its zeros are counted. -/
theorem exists_positional {d : Decimal} (hd : 0 < d.digits) :
    ∃ (digits places : List Char) (k : Nat), d.positional = digits ++ '.' :: places ∧
      isWholePart digits = true ∧ Digits digits ∧ places ≠ [] ∧ Digits places ∧
      valueOf (digits ++ places) = d.digits * 10 ^ k ∧ -(places.length : Int) = d.exponent - k := by
  have hdigits := digits_digitsOf d.digits
  unfold Decimal.positional
  simp only
  split
  · next hexp =>
    have hzeros : ∀ k : Nat, Decimal.digitsOf d.digits ++ List.replicate k '0' =
        Decimal.digitsOf (d.digits * 10 ^ k) :=
      fun k => (Binary64.toDigits_mul_ten_pow hd k).symm
    refine ⟨Decimal.digitsOf (d.digits * 10 ^ d.exponent.toNat), ['0'], d.exponent.toNat + 1,
      ?_, isWholePart_digitsOf _, digits_digitsOf _, List.cons_ne_nil _ _, digits_zeros 1, ?_, ?_⟩
    · rw [hzeros]
    · rw [← hzeros, List.append_assoc, ← List.replicate_succ', hzeros, valueOf_digitsOf]
    · rw [List.length_singleton]
      omega
  · next hexp =>
    split
    · next hplaces =>
      refine ⟨_, _, 0, rfl, isWholePart_take_digitsOf _ (by omega),
        fun c hc => hdigits c (List.mem_of_mem_take hc), ?_,
        fun c hc => hdigits c (List.mem_of_mem_drop hc), ?_, ?_⟩
      · refine List.ne_nil_of_length_pos ?_
        rw [List.length_drop]
        omega
      · rw [List.take_append_drop, valueOf_digitsOf, Nat.pow_zero, Nat.mul_one]
      · rw [List.length_drop]
        omega
    · next hplaces =>
      refine ⟨['0'], List.replicate ((-d.exponent).toNat - (Decimal.digitsOf d.digits).length) '0'
        ++ Decimal.digitsOf d.digits, 0, rfl, rfl, digits_zeros 1,
        List.append_ne_nil_of_right_ne_nil _ Nat.toDigits_ne_nil,
        List.forall_mem_append.mpr ⟨digits_zeros _, hdigits⟩, ?_, ?_⟩
      · rw [← List.append_assoc, ← List.replicate_one, List.replicate_append_replicate,
          valueOf_zeros_append, valueOf_digitsOf, Nat.pow_zero, Nat.mul_one]
      · rw [List.length_append, List.length_replicate]
        omega

/-- A decimal in positional notation is read as the nearest
double-precision number. -/
theorem unsigned?_positional (negative : Bool) {d : Decimal} (hd : 0 < d.digits) :
    unsigned? negative d.positional =
      (Binary64.ofDecimal? negative d.digits d.exponent).map double := by
  obtain ⟨digits, places, k, htext, hwhole, hdigits, hne, hplaces, hvalue, hexp⟩ :=
    exists_positional hd
  have hpoint := unsigned?_point negative hwhole hdigits hne hplaces (endsRun_nil _)
  rw [List.append_nil] at hpoint
  rw [htext, hpoint, exponent?, Option.bind_some, zero_sub, hvalue, hexp,
    Binary64.ofDecimal?_mul_ten_pow negative hd]

/-- A decimal in scientific notation is read as the nearest
double-precision number. -/
theorem unsigned?_scientific (negative : Bool) (d : Decimal) :
    unsigned? negative d.scientific =
      (Binary64.ofDecimal? negative d.digits d.exponent).map double := by
  have hdigits := digits_digitsOf d.digits
  have hvalue := valueOf_digitsOf d.digits
  have hleading : d.leadingExponent = (Decimal.digitsOf d.digits).length - 1 + d.exponent := rfl
  unfold Decimal.scientific
  simp only
  split
  · next hs => exact absurd hs Nat.toDigits_ne_nil
  · next c hs =>
    rw [hs] at hdigits hvalue hleading
    have hexp : d.leadingExponent = d.exponent := by simpa using hleading
    rw [unsigned?_exponent negative rfl hdigits, exponent?_written, Option.bind_some, hvalue, hexp]
  · next c places hne hs =>
    rw [hs] at hdigits hvalue hleading
    have hexp : d.leadingExponent - places.length = d.exponent := by
      rw [hleading, List.length_cons]
      omega
    obtain ⟨hc, hplaces⟩ := List.forall_mem_cons.mp hdigits
    have hfirst : Digits [c] := List.forall_mem_cons.mpr ⟨hc, List.forall_mem_nil _⟩
    have hends := endsRun_cons (show Char.isDigit 'e' = false by decide)
      ((if d.leadingExponent < 0 then '-' else '+') :: Decimal.digitsOf d.leadingExponent.natAbs)
    have hpoint := unsigned?_point negative rfl hfirst hne hplaces hends
    rw [exponent?_written, Option.bind_some, List.singleton_append, List.singleton_append, hvalue,
      hexp] at hpoint
    exact hpoint

/-! ## 5. Reading texts -/

/-- A text is read behind its sign. -/
theorem read?_of_unsigned? {negative : Bool} {cs : List Char} {n : Number}
    (h : unsigned? negative cs = some n) :
    read? (String.ofList ((if negative then ['-'] else []) ++ cs)) = some n := by
  rw [read?, String.toList_ofList]
  cases negative with
  | true => exact h
  | false =>
    split
    · next cs hcs =>
      obtain rfl : _ = '-' :: cs := hcs
      exact absurd h (by simp [unsigned?, isWholePart])
    · exact h

theorem unsigned?_zero : ∀ negative : Bool,
    unsigned? negative ['0', '.', '0'] = some (double (.zero negative)) := by
  decide

/-- A double-precision number is read back from its text. -/
theorem read?_doubleText (x : Binary64) : read? x.text = some (double x) := by
  unfold Binary64.text
  rcases x.eq_zero_or_pos with hx | hx
  · have hzero : x.isZero = true := by rw [hx]; rfl
    have hread := unsigned?_zero x.negative
    rw [← hx] at hread
    rw [if_pos hzero, Binary64.positionalText, if_pos hzero]
    exact read?_of_unsigned? hread
  · have hzero : x.isZero ≠ true := by simpa [Binary64.isZero] using hx.ne'
    rw [if_neg hzero]
    refine read?_of_unsigned? ?_
    split
    · rw [unsigned?_positional _ (Binary64.shortest_digits_pos hx), Binary64.ofDecimal?_shortest hx,
        Option.map_some]
    · rw [unsigned?_scientific, Binary64.ofDecimal?_shortest hx, Option.map_some]

/-- A number is read back from its text. -/
theorem read?_text : ∀ n : Number, read? n.text = some n
  | whole (.ofNat n) => by
    have hread := read?_of_unsigned? (unsigned?_digitsOf false n)
    rw [if_neg Bool.false_ne_true, List.nil_append] at hread
    exact hread
  | whole (.negSucc n) => by
    have hread := read?_of_unsigned? (unsigned?_digitsOf true (n + 1))
    rw [if_pos rfl, List.singleton_append] at hread
    exact hread
  | double x => read?_doubleText x

/-- No digit follows a leading zero, and a point has digits behind it. -/
example : read? "01" = none ∧ read? "1." = none ∧ read? "-7" = some (whole (-7)) := by decide

end TableMapper.Number
