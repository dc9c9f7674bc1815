/-
TableMapper.Proofs.Number.Rounding — the rounding of quotients and of
decimals to double-precision numbers.

The rounding depends on the value of a quotient only and leaves a
number alone that is double-precision already. `ofDecimal?_shortest`
says that the decimal chosen for a number is read back as the number,
also where the search for a short one ends with the exact value.
-/
import Mathlib.Data.Int.Log
import Mathlib.Data.Rat.Floor
import Mathlib.Tactic.NormNum
import Mathlib.Tactic.Positivity
import TableMapper.Number.Decimal

namespace TableMapper.Binary64

/-! ## 1. The magnitude of a quotient -/

/-- A power of two as a quotient of whole numbers. -/
theorem two_zpow_eq_div (k : Int) :
    (2 : ℚ) ^ k = (Nat.pow 2 k.toNat : Nat) / (Nat.pow 2 (-k).toNat : Nat) := by
  rw [Nat.pow_eq, Nat.pow_eq, Nat.cast_pow, Nat.cast_pow, Nat.cast_ofNat, ← zpow_natCast,
    ← zpow_natCast, ← zpow_sub₀ two_ne_zero, Int.toNat_sub_toNat_neg]

theorem two_pow_pos (n : Nat) : 0 < Nat.pow 2 n := Nat.pow_pos two_pos

/-- A power of two against a quotient, in whole numbers. -/
theorem two_zpow_le_div_iff (num : Nat) {den : Nat} (hden : 0 < den) (k : Int) :
    (2 : ℚ) ^ k ≤ num / den ↔ den * Nat.pow 2 k.toNat ≤ num * Nat.pow 2 (-k).toNat := by
  have hpow : (0 : ℚ) < (Nat.pow 2 (-k).toNat : Nat) := by exact_mod_cast two_pow_pos _
  rw [two_zpow_eq_div, div_le_div_iff₀ hpow (by exact_mod_cast hden), mul_comm]
  exact_mod_cast Iff.rfl

/-- The magnitude of a quotient is its binary logarithm. -/
theorem binaryMagnitude_eq_log {num den : Nat} (hnum : 0 < num) (hden : 0 < den) :
    binaryMagnitude num den = Int.log 2 ((num : ℚ) / den) := by
  have hdenPos : (0 : ℚ) < den := by exact_mod_cast hden
  have hpos : (0 : ℚ) < num / den := div_pos (by exact_mod_cast hnum) hdenPos
  have hle : ∀ k : Int, (2 : ℚ) ^ k ≤ num / den ↔ k ≤ Int.log 2 ((num : ℚ) / den) :=
    fun k => Int.zpow_le_iff_le_log one_lt_two hpos
  have hlower : (num.log2 : Int) - (den.log2 + 1 : Nat) ≤ Int.log 2 ((num : ℚ) / den) := by
    rw [← hle, zpow_sub₀ two_ne_zero, zpow_natCast, zpow_natCast]
    refine div_le_div₀ (Nat.cast_nonneg num) ?_ hdenPos ?_
    · exact_mod_cast Nat.log2_self_le hnum.ne'
    · exact_mod_cast Nat.lt_log2_self.le
  have hupper : Int.log 2 ((num : ℚ) / den) < (num.log2 + 1 : Nat) - (den.log2 : Int) := by
    rw [← not_le, ← hle, not_le, zpow_sub₀ two_ne_zero, zpow_natCast, zpow_natCast]
    refine div_lt_div₀ ?_ ?_ (by positivity) (by positivity)
    · exact_mod_cast Nat.lt_log2_self
    · exact_mod_cast Nat.log2_self_le hden.ne'
  unfold binaryMagnitude
  simp only [← two_zpow_le_div_iff num hden, hle]
  split <;> omega

/-! ## 2. A common factor -/

theorem roundHalfEven_mul_right (num den : Nat) {c : Nat} (hc : 0 < c) :
    roundHalfEven (num * c) (den * c) = roundHalfEven num den := by
  simp only [roundHalfEven, Nat.mul_div_mul_right _ _ hc, Nat.mul_mod_mul_right, ← Nat.mul_assoc,
    Nat.mul_lt_mul_right hc]

theorem roundHalfEven_one (n : Nat) : roundHalfEven n 1 = n := by
  simp [roundHalfEven, Nat.mod_one]

/-- A common factor of the numerator and the denominator does not
matter. -/
theorem nearest?_mul_right (negative : Bool) (num : Nat) {den c : Nat} (hden : 0 < den)
    (hc : 0 < c) : nearest? negative (num * c) (den * c) = nearest? negative num den := by
  rcases Nat.eq_zero_or_pos num with rfl | hnum
  · simp [nearest?]
  · have hratio : ((num * c : Nat) : ℚ) / (den * c : Nat) = num / den := by
      push_cast
      exact mul_div_mul_right _ _ (by exact_mod_cast hc.ne')
    have hmagnitude : binaryMagnitude (num * c) (den * c) = binaryMagnitude num den := by
      rw [binaryMagnitude_eq_log (Nat.mul_pos hnum hc) (Nat.mul_pos hden hc), hratio,
        binaryMagnitude_eq_log hnum hden]
    simp only [nearest?, hmagnitude, Nat.mul_right_comm _ c, roundHalfEven_mul_right _ _ hc,
      Nat.mul_eq_zero, hc.ne', or_false]

/-- Quotients of one value are rounded alike. -/
theorem nearest?_congr (negative : Bool) {num den num' den' : Nat} (hden : 0 < den)
    (hden' : 0 < den') (h : num * den' = num' * den) :
    nearest? negative num den = nearest? negative num' den' := by
  rw [← nearest?_mul_right negative num hden hden', h, Nat.mul_comm den den',
    nearest?_mul_right negative num' hden' hden]

/-! ## 3. Exact values -/

theorem ratio_fst_pos {x : Binary64} (hx : 0 < x.significand) : 0 < x.ratio.1 :=
  Nat.mul_pos hx (two_pow_pos _)

theorem ratio_snd_pos (x : Binary64) : 0 < x.ratio.2 := two_pow_pos _

/-- The magnitude of a number lies where its significand and its
exponent say. -/
theorem binaryMagnitude_ratio_lt_iff {x : Binary64} (hx : 0 < x.significand) (k : Nat) :
    binaryMagnitude x.ratio.1 x.ratio.2 < k + x.exponent ↔ x.significand < Nat.pow 2 k := by
  have hpow : (0 : ℚ) < 2 ^ x.exponent := zpow_pos two_pos _
  have hvalue : (x.ratio.1 : ℚ) / x.ratio.2 = x.significand * 2 ^ x.exponent := by
    rw [two_zpow_eq_div, mul_div_assoc', ratio, Nat.cast_mul]
  have hpos : (0 : ℚ) < x.significand * 2 ^ x.exponent :=
    mul_pos (by exact_mod_cast hx) hpow
  rw [binaryMagnitude_eq_log (ratio_fst_pos hx) x.ratio_snd_pos, hvalue,
    ← Int.lt_zpow_iff_log_lt one_lt_two hpos, Nat.cast_ofNat, zpow_add₀ two_ne_zero,
    mul_lt_mul_iff_left₀ hpow, zpow_natCast]
  exact_mod_cast Iff.rfl

/-- The exponent of a number is the one that its magnitude is rounded
with. -/
theorem max_binaryMagnitude_ratio {x : Binary64} (hx : 0 < x.significand) :
    max (binaryMagnitude x.ratio.1 x.ratio.2 - 52) (-1074) = x.exponent := by
  obtain ⟨hlt, hleast, -, hnormal⟩ := x.canonical
  have hupper := (binaryMagnitude_ratio_lt_iff hx 53).mpr hlt
  have hlower := binaryMagnitude_ratio_lt_iff hx 52
  omega

/-- A number is the nearest to its own value. -/
theorem nearest?_ratio {x : Binary64} (hx : 0 < x.significand) :
    nearest? x.negative x.ratio.1 x.ratio.2 = some x := by
  have hround : roundHalfEven (x.ratio.1 * Nat.pow 2 (-x.exponent).toNat)
      (x.ratio.2 * Nat.pow 2 x.exponent.toNat) = x.significand := by
    have hmul := roundHalfEven_mul_right x.significand 1
      (Nat.mul_pos (two_pow_pos x.exponent.toNat) (two_pow_pos (-x.exponent).toNat))
    rw [roundHalfEven_one, ← Nat.mul_assoc, Nat.one_mul, Nat.mul_comm (Nat.pow 2 _)] at hmul
    exact hmul
  simp only [nearest?, if_neg (ratio_fst_pos hx).ne', max_binaryMagnitude_ratio hx, hround,
    if_neg x.canonical.1.ne, dif_pos x.canonical]

/-! ## 4. Decimals -/

/-- A decimal that is neither too great nor too small is rounded as a
quotient. -/
theorem ofDecimal?_eq_nearest? (negative : Bool) {digits : Nat} {exponent : Int}
    (hdigits : 0 < digits) (hleast : -400 ≤ decimalLength digits + exponent)
    (hgreatest : decimalLength digits + exponent ≤ 310) :
    ofDecimal? negative digits exponent =
      nearest? negative (digits * Nat.pow 10 exponent.toNat) (Nat.pow 10 (-exponent).toNat) := by
  simp only [ofDecimal?, if_neg hdigits.ne', if_neg (not_lt.mpr hgreatest),
    if_neg (not_lt.mpr hleast)]

/-- A power of ten appends zeros to the digits. -/
theorem toDigits_mul_ten_pow {n : Nat} (hn : 0 < n) :
    ∀ k : Nat, Nat.toDigits 10 (n * 10 ^ k) = Nat.toDigits 10 n ++ List.replicate k '0'
  | 0 => by simp
  | k + 1 => by
    have happend : Nat.toDigits 10 (n * 10 ^ k) ++ Nat.toDigits 10 0 =
        Nat.toDigits 10 (10 * (n * 10 ^ k) + 0) :=
      Nat.toDigits_append_toDigits (by decide) (Nat.mul_pos hn (Nat.pow_pos (by decide)))
        (by decide)
    have hpow : n * 10 ^ (k + 1) = 10 * (n * 10 ^ k) + 0 := by
      rw [Nat.pow_succ, ← Nat.mul_assoc, Nat.mul_comm 10, Nat.add_zero]
    rw [hpow, ← happend, toDigits_mul_ten_pow hn k, Nat.toDigits_zero, List.append_assoc,
      ← List.replicate_succ']

/-- Zeros behind the digits make up for a smaller exponent. -/
theorem ofDecimal?_mul_ten_pow (negative : Bool) {digits : Nat} (hdigits : 0 < digits)
    (exponent : Int) (k : Nat) :
    ofDecimal? negative (digits * 10 ^ k) (exponent - k) = ofDecimal? negative digits exponent := by
  have hlength : decimalLength (digits * 10 ^ k) = decimalLength digits + k := by
    rw [decimalLength, toDigits_mul_ten_pow hdigits, List.length_append, List.length_replicate]
    rfl
  have hsize : (decimalLength (digits * 10 ^ k) : Int) + (exponent - k) =
      decimalLength digits + exponent := by omega
  have hpos : 0 < digits * 10 ^ k := Nat.mul_pos hdigits (Nat.pow_pos (by decide))
  have hnearest : nearest? negative (digits * 10 ^ k * Nat.pow 10 (exponent - k).toNat)
        (Nat.pow 10 (-(exponent - k)).toNat) =
      nearest? negative (digits * Nat.pow 10 exponent.toNat) (Nat.pow 10 (-exponent).toNat) := by
    refine nearest?_congr negative (Nat.pow_pos (by decide)) (Nat.pow_pos (by decide)) ?_
    simp only [Nat.pow_eq, Nat.mul_assoc, ← Nat.pow_add]
    congr 2
    omega
  simp only [ofDecimal?, if_neg hpos.ne', if_neg hdigits.ne', hsize, hnearest]

theorem decimalLength_le_iff {n k : Nat} (hk : 0 < k) : decimalLength n ≤ k ↔ n < 10 ^ k :=
  Nat.length_toDigits_le_iff (by decide) hk

theorem decimalLength_pos (n : Nat) : 0 < decimalLength n := Nat.length_toDigits_pos

/-- A whole number that is double-precision has at most 310 digits. -/
theorem decimalLength_whole_le {m k : Nat} (hm : m < 2 ^ 53) (hk : k ≤ 971) :
    decimalLength (m * 2 ^ k) ≤ 310 := by
  rw [decimalLength_le_iff (by decide)]
  calc m * 2 ^ k ≤ 2 ^ 53 * 2 ^ 971 := by
        gcongr
        exact one_le_two
    _ < 10 ^ 310 := by decide +kernel

/-- The digits of the exact decimal of a fraction begin in the
sixteenth place before the point at most. -/
theorem decimalLength_fraction_le {m : Nat} (k : Nat) (hm : m < 2 ^ 53) :
    decimalLength (m * 5 ^ k) ≤ 16 + k := by
  rw [decimalLength_le_iff (by omega), Nat.pow_add]
  calc m * 5 ^ k < 2 ^ 53 * 5 ^ k := Nat.mul_lt_mul_of_pos_right hm (Nat.pow_pos (by decide))
    _ ≤ 10 ^ 16 * 10 ^ k := Nat.mul_le_mul (by norm_num) (Nat.pow_le_pow_left (by decide) k)

/-- A power of ten that is at least the denominator bounds the place
behind the point where the exact decimal of a fraction begins. -/
theorem le_decimalLength_fraction {m k places : Nat} (hm : 0 < m) (hk : 2 ^ k ≤ 10 ^ places) :
    k ≤ places + decimalLength (m * 5 ^ k) := by
  have hlength : m * 5 ^ k < 10 ^ decimalLength (m * 5 ^ k) :=
    (decimalLength_le_iff (decimalLength_pos _)).mp le_rfl
  have hpow : 10 ^ k < 10 ^ (places + decimalLength (m * 5 ^ k)) := calc
    10 ^ k = 2 ^ k * 5 ^ k := Nat.mul_pow 2 5 k
    _ ≤ 10 ^ places * (m * 5 ^ k) := Nat.mul_le_mul hk (Nat.le_mul_of_pos_left _ hm)
    _ < 10 ^ places * 10 ^ decimalLength (m * 5 ^ k) :=
      Nat.mul_lt_mul_of_pos_left hlength (Nat.pow_pos (by decide))
    _ = 10 ^ (places + decimalLength (m * 5 ^ k)) := (Nat.pow_add 10 _ _).symm
  exact ((Nat.pow_lt_pow_iff_right (by decide)).mp hpow).le

/-- The exact decimal of a number is read back as the number. -/
theorem ofDecimal?_exactDecimal {x : Binary64} (hx : 0 < x.significand) :
    ofDecimal? x.negative x.exactDecimal.digits x.exactDecimal.exponent = some x := by
  obtain ⟨hlt, hleast, hgreatest, -⟩ := x.canonical
  have hnearest := nearest?_ratio hx
  rw [ratio] at hnearest
  rw [exactDecimal]
  split
  · next hexp =>
    have hden : (-x.exponent).toNat = 0 := by omega
    have hlength := decimalLength_whole_le hlt (show x.exponent.toNat ≤ 971 by omega)
    rw [ofDecimal?_eq_nearest? _ (Nat.mul_pos hx (two_pow_pos _)) ?_ ?_]
    · rw [hden] at hnearest
      simpa using hnearest
    · simp only [Nat.pow_eq]
      omega
    · simp only [Nat.pow_eq]
      omega
  · next hexp =>
    have hnum : x.exponent.toNat = 0 := by omega
    have hupper := decimalLength_fraction_le (-x.exponent).toNat hlt
    have hden : 2 ^ (-x.exponent).toNat ≤ 10 ^ 400 :=
      (Nat.pow_le_pow_right two_pos (show (-x.exponent).toNat ≤ 1074 by omega)).trans
        (by decide +kernel)
    have hlower := le_decimalLength_fraction hx hden
    have hfive : 0 < Nat.pow 5 (-x.exponent).toNat := Nat.pow_pos (by decide)
    have hten : Nat.pow 10 (-x.exponent).toNat =
        Nat.pow 2 (-x.exponent).toNat * Nat.pow 5 (-x.exponent).toNat := Nat.mul_pow 2 5 _
    rw [ofDecimal?_eq_nearest? _ (Nat.mul_pos hx hfive) ?_ ?_, hnum, hten]
    · rw [hnum] at hnearest
      rw [← hnearest, ← nearest?_mul_right _ _ (two_pow_pos _) hfive]
      simp
    · simp only [Nat.pow_eq]
      omega
    · simp only [Nat.pow_eq]
      omega

/-- The decimal that is chosen for a number is read back as the
number. -/
theorem ofDecimal?_shortest {x : Binary64} (hx : 0 < x.significand) :
    ofDecimal? x.negative x.shortest.digits x.shortest.exponent = some x := by
  unfold shortest
  simp only
  cases hfind : List.find? x.readsBack _ with
  | none => exact ofDecimal?_exactDecimal hx
  | some d =>
    have hback : x.readsBack d = true := List.find?_some hfind
    exact eq_of_beq hback

/-- Only zero is written with the digit zero alone. -/
theorem shortest_digits_pos {x : Binary64} (hx : 0 < x.significand) : 0 < x.shortest.digits := by
  have hread := ofDecimal?_shortest hx
  by_contra hzero
  rw [ofDecimal?, if_pos (Nat.eq_zero_of_not_pos hzero)] at hread
  rw [← Option.some.inj hread] at hx
  exact absurd hx (Nat.lt_irrefl 0)

/-- A number is one of the two zeros or has a significand. -/
theorem eq_zero_or_pos (x : Binary64) : x = zero x.negative ∨ 0 < x.significand := by
  rcases Nat.eq_zero_or_pos x.significand with hx | hx
  · obtain ⟨negative, m, e, hlt, hleast, hgreatest, hnormal⟩ := x
    obtain rfl : m = 0 := hx
    obtain rfl : e = -1074 := hnormal.resolve_left (by decide)
    exact .inl rfl
  · exact .inr hx

end TableMapper.Binary64
