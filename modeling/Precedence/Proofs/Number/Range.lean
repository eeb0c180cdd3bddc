import Mathlib.Algebra.Order.Field.Power
import Mathlib.Data.Nat.Log
import Mathlib.Tactic.FieldSimp
import Mathlib.Tactic.Linarith
import Mathlib.Tactic.NormNum
import Mathlib.Tactic.Ring
import Mathlib.Tactic.SplitIfs
import Precedence.Number.Decimal

/-!
# Magnitudes that are too large

No floating-point number is nearest to a quotient from `Binary64.overflow` on, where rounding leads
to the power of two behind the largest finite number (`Binary64.nearest?_eq_none_iff`). So a decimal
has no value exactly if its magnitude is at least that (`Decimal.toBinary64?_eq_none_iff`).
-/

namespace Precedence.Number

/-! ### Powers and quotients -/

theorem cast_twoTo (n : Nat) : ((twoTo n : Nat) : ℚ) = 2 ^ n :=
  Nat.cast_pow 2 n

theorem cast_tenTo (n : Nat) : ((tenTo n : Nat) : ℚ) = 10 ^ n :=
  Nat.cast_pow 10 n

/-- A power is a quotient of one with a natural exponent, and one of the two powers in it is 1. -/
theorem zpow_eq_div {b : ℚ} (hb : b ≠ 0) (k : ℤ) : b ^ k = b ^ k.toNat / b ^ (-k).toNat := by
  rw [← zpow_natCast, ← zpow_natCast, ← zpow_sub₀ hb]
  congr 1
  omega

theorem div_zpow (num den : Nat) (k : ℤ) :
    ((num * twoTo (-k).toNat : Nat) : ℚ) / (den * twoTo k.toNat : Nat) = num / den / 2 ^ k := by
  rw [zpow_eq_div two_ne_zero, Nat.cast_mul, Nat.cast_mul, cast_twoTo, cast_twoTo]
  field_simp

namespace Binary64

variable {num den : Nat}

theorem le_scaled_iff (hden : 0 < den) (k : ℤ) :
    den * twoTo k.toNat ≤ num * twoTo (-k).toNat ↔ (2 : ℚ) ^ k ≤ num / den := by
  have hpos : (0 : ℚ) < (den * twoTo k.toNat : Nat) := by
    exact_mod_cast Nat.mul_pos hden (twoTo_pos _)
  rw [← one_le_div₀ (zpow_pos two_pos k), ← div_zpow, one_le_div₀ hpos, Nat.cast_le]

/-- A natural is between the power of two with its logarithm and the next. -/
theorem cast_log2_bounds {n : Nat} (hn : 0 < n) :
    (2 : ℚ) ^ (n.log2 : ℤ) ≤ n ∧ (n : ℚ) < 2 ^ (n.log2 + 1 : ℤ) := by
  constructor
  · rw [zpow_natCast]
    exact_mod_cast Nat.log2_self_le hn.ne'
  · exact_mod_cast Nat.lt_log2_self (n := n)

/-- The quotient is between the power of two with that exponent and the next. -/
theorem binaryExponent_bounds (hnum : 0 < num) (hden : 0 < den) :
    (2 : ℚ) ^ binaryExponent num den ≤ num / den ∧
      (num / den : ℚ) < 2 ^ (binaryExponent num den + 1) := by
  obtain ⟨hnum, hnum'⟩ := cast_log2_bounds hnum
  obtain ⟨hden₁, hden₂⟩ := cast_log2_bounds hden
  have hpos : (0 : ℚ) < den := Nat.cast_pos.mpr hden
  have hlow : (2 : ℚ) ^ ((num.log2 : ℤ) - den.log2 - 1) ≤ num / den := by
    rw [sub_sub, zpow_sub₀ two_ne_zero]
    exact div_le_div₀ (Nat.cast_nonneg _) hnum hpos hden₂.le
  have hhigh : (num / den : ℚ) < 2 ^ ((num.log2 : ℤ) - den.log2 + 1) := by
    rw [sub_add_eq_add_sub, zpow_sub₀ two_ne_zero]
    exact div_lt_div₀ hnum' hden₁ (zpow_pos two_pos _).le (zpow_pos two_pos _)
  rw [binaryExponent]
  simp only [le_scaled_iff hden]
  split
  · next h => exact ⟨h, hhigh⟩
  · next h => exact ⟨hlow, by rw [sub_add_cancel]; exact lt_of_not_ge h⟩

/-- A quotient is rounded to an even number or above from half a unit below it on, as a tie goes up
to it. -/
theorem le_roundDiv_iff {k : Nat} (hk : 0 < k) (heven : k % 2 = 0) (hden : 0 < den) :
    k ≤ roundDiv num den ↔ (2 * k - 1) * den ≤ 2 * num := by
  have hnum : den * (num / den) + num % den = num := Nat.div_add_mod num den
  have hrest : num % den < den := Nat.mod_lt num hden
  have hpred : (2 * k - 1) * den + den = 2 * (den * k) := by
    rw [← Nat.succ_mul, Nat.succ_eq_add_one, Nat.sub_add_cancel (by omega)]
    ring
  rw [roundDiv]
  generalize num / den = quotient at hnum ⊢
  generalize num % den = rest at hnum hrest ⊢
  generalize (2 * k - 1) * den = half at hpred ⊢
  rcases Nat.lt_trichotomy (quotient + 1) k with hlt | rfl | hgt
  · have hmul : den * (quotient + 2) ≤ den * k := Nat.mul_le_mul_left den hlt
    rw [Nat.mul_add] at hmul
    split_ifs <;> omega
  · rw [Nat.mul_succ] at hpred
    split_ifs <;> omega
  · have hmul : den * k ≤ den * quotient := Nat.mul_le_mul_left den (by omega)
    split_ifs <;> omega

/-- Half of the way from the largest finite number to the next power of two. -/
def overflow : ℚ :=
  (2 ^ 54 - 1) * 2 ^ 970

theorem one_lt_overflow : 1 < overflow :=
  one_lt_mul_of_lt_of_le (by norm_num) (one_le_pow₀ one_le_two)

theorem overflow_le : overflow ≤ 10 ^ (310 : ℤ) := by
  have hstep : (2 : ℚ) ^ 93 ≤ 10 ^ 28 := by norm_num
  calc overflow
    _ ≤ 2 ^ 54 * 2 ^ 970 := mul_le_mul_of_nonneg_right (by norm_num) (pow_pos two_pos 970).le
    _ = 2 * (2 ^ 93) ^ 11 := by rw [← pow_add, ← pow_mul, ← pow_succ']
    _ ≤ 10 ^ 2 * (10 ^ 28) ^ 11 := mul_le_mul (by norm_num)
      (pow_le_pow_left₀ (by norm_num) hstep 11) (by positivity) (by norm_num)
    _ = 10 ^ (310 : ℤ) := by
      rw [← pow_mul, ← pow_add, show (310 : ℤ) = (2 + 28 * 11 : Nat) from rfl, zpow_natCast]

/-- In units of the gap a quotient has at most fifty-three bits, and no fewer unless the gap is the
smallest one. -/
theorem scaled_bounds (hnum : 0 < num) (hden : 0 < den) {gap : ℤ}
    (hgap : max (binaryExponent num den - 52) (-1074) = gap) :
    num * twoTo (-gap).toNat < 2 ^ 53 * (den * twoTo gap.toNat) ∧
      (gap = -1074 ∨ 2 ^ 52 * (den * twoTo gap.toNat) ≤ num * twoTo (-gap).toNat) := by
  obtain ⟨hlow, hhigh⟩ := binaryExponent_bounds hnum hden
  have hquotient := div_zpow num den gap
  have hpos : (0 : ℚ) < (den * twoTo gap.toNat : Nat) := by
    exact_mod_cast Nat.mul_pos hden (twoTo_pos _)
  have hunit : (0 : ℚ) < 2 ^ gap := zpow_pos two_pos gap
  constructor
  · have hlt : (num / den : ℚ) < 2 ^ 53 * 2 ^ gap := by
      refine hhigh.trans_le ?_
      rw [← zpow_natCast, ← zpow_add₀ two_ne_zero]
      exact zpow_le_zpow_right₀ one_le_two (by push_cast; omega)
    rw [← div_lt_iff₀ hunit, ← hquotient, div_lt_iff₀ hpos] at hlt
    exact_mod_cast hlt
  · refine or_iff_not_imp_left.mpr fun hne => ?_
    have hle : (2 ^ 52 : ℚ) * 2 ^ gap ≤ num / den := by
      refine le_trans ?_ hlow
      rw [← zpow_natCast, ← zpow_add₀ two_ne_zero]
      exact zpow_le_zpow_right₀ one_le_two (by push_cast; omega)
    rw [← le_div_iff₀ hunit, ← hquotient, le_div_iff₀ hpos] at hle
    exact_mod_cast hle

theorem nearest?_eq_none_iff_units (hnum : num ≠ 0) {gap : ℤ}
    (hgap : max (binaryExponent num den - 52) (-1074) = gap) :
    nearest? num den = none ↔
      2047 * 2 ^ 52 ≤ roundDiv (num * twoTo (-gap).toNat) (den * twoTo gap.toNat) +
        (gap + 1074).toNat * 2 ^ 52 := by
  subst hgap
  simp only [nearest?, if_neg hnum, show twoTo 52 = 2 ^ 52 from rfl]
  split_ifs <;> simp <;> omega

section Overflow

variable {x : ℚ} {gap : ℤ}

theorem mul_zpow_lt_overflow (hx : x < 2 ^ 53) (hgap : gap < 971) : x * 2 ^ gap < overflow := by
  have hpower : (2 ^ gap : ℚ) ≤ 2 ^ (970 : ℤ) := zpow_le_zpow_right₀ one_le_two (by omega)
  calc x * 2 ^ gap
    _ < 2 ^ 53 * 2 ^ gap := mul_lt_mul_of_pos_right hx (zpow_pos two_pos gap)
    _ ≤ 2 ^ 53 * 2 ^ (970 : ℤ) := mul_le_mul_of_nonneg_left hpower (by norm_num)
    _ ≤ overflow := by norm_num [overflow]

theorem overflow_le_mul_zpow (hx : 2 ^ 52 ≤ x) (hgap : 971 < gap) : overflow ≤ x * 2 ^ gap := by
  have hpower : (2 ^ (972 : ℤ) : ℚ) ≤ 2 ^ gap := zpow_le_zpow_right₀ one_le_two (by omega)
  calc overflow
    _ ≤ 2 ^ 54 * 2 ^ 970 := mul_le_mul_of_nonneg_right (by norm_num) (pow_pos two_pos 970).le
    _ = 2 ^ 52 * 2 ^ (972 : ℤ) := by
      rw [← pow_add, show (972 : ℤ) = (972 : Nat) from rfl, zpow_natCast, ← pow_add]
    _ ≤ 2 ^ 52 * 2 ^ gap := mul_le_mul_of_nonneg_left hpower (by norm_num)
    _ ≤ x * 2 ^ gap := mul_le_mul_of_nonneg_right hx (zpow_pos two_pos gap).le

/-- With the largest gap, a number is too large from half a unit below `2 ^ 53` units on. -/
theorem overflow_le_div_iff {scaled unit : Nat} (hunit : 0 < unit) :
    overflow ≤ scaled / unit * 2 ^ (971 : ℤ) ↔ (2 * 2 ^ 53 - 1) * unit ≤ 2 * scaled := by
  have hpower : (2 : ℚ) ^ (971 : ℤ) = 2 * 2 ^ 970 := by
    rw [show (971 : ℤ) = (970 + 1 : Nat) from rfl, zpow_natCast, pow_succ']
  rw [overflow, hpower, ← mul_assoc, mul_le_mul_iff_left₀ (pow_pos two_pos 970),
    div_mul_eq_mul_div, le_div_iff₀ (Nat.cast_pos.mpr hunit), Nat.mul_comm 2 scaled,
    ← @Nat.cast_le ℚ, Nat.cast_mul, Nat.cast_mul]
  norm_num

end Overflow

theorem nearest?_eq_none_iff (hden : 0 < den) :
    nearest? num den = none ↔ overflow ≤ num / den := by
  by_cases hnum : num = 0
  · simp [nearest?, hnum, one_lt_overflow.trans' one_pos]
  rw [nearest?_eq_none_iff_units hnum rfl]
  generalize hgap : max (binaryExponent num den - 52) (-1074) = gap
  obtain ⟨hless, hmore⟩ := scaled_bounds (Nat.pos_of_ne_zero hnum) hden hgap
  have hquotient := div_zpow num den gap
  have hpos : 0 < den * twoTo gap.toNat := Nat.mul_pos hden (twoTo_pos _)
  generalize num * twoTo (-gap).toNat = scaled at hless hmore hquotient ⊢
  generalize den * twoTo gap.toNat = unit at hless hmore hquotient hpos ⊢
  have hunit : (0 : ℚ) < unit := Nat.cast_pos.mpr hpos
  rw [← div_mul_cancel₀ (num / den : ℚ) (zpow_ne_zero gap two_ne_zero), ← hquotient]
  -- with all gaps but one it does not depend on the units
  rcases lt_trichotomy gap 971 with hlt | rfl | hgt
  · have hunits : ¬ 3 * 2 ^ 52 ≤ roundDiv scaled unit := by
      rw [le_roundDiv_iff (by decide) (by decide) hpos]
      omega
    have hscaled : (scaled / unit : ℚ) < 2 ^ 53 := by
      rw [div_lt_iff₀ hunit]
      exact_mod_cast hless
    exact iff_of_false (by omega) (not_le_of_gt (mul_zpow_lt_overflow hscaled hlt))
  · have hunits : 2047 * 2 ^ 52 ≤ roundDiv scaled unit + ((971 : ℤ) + 1074).toNat * 2 ^ 52 ↔
        2 ^ 53 ≤ roundDiv scaled unit := by
      rw [show ((971 : ℤ) + 1074).toNat = 2045 from rfl]
      omega
    rw [hunits, le_roundDiv_iff (by decide) (by decide) hpos, overflow_le_div_iff hpos]
  · have hmore : 2 ^ 52 * unit ≤ scaled := hmore.resolve_left (by omega)
    have hunits : 2 ^ 52 ≤ roundDiv scaled unit := by
      rw [le_roundDiv_iff (by decide) (by decide) hpos]
      omega
    have hscaled : (2 ^ 52 : ℚ) ≤ scaled / unit := by
      rw [le_div_iff₀ hunit]
      exact_mod_cast hmore
    exact iff_of_true (by omega) (overflow_le_mul_zpow hscaled hgt)

end Binary64

namespace Decimal

/-- The magnitude that the digits and the exponent give. -/
def magnitude (d : Decimal) : ℚ :=
  d.digits * 10 ^ d.exponent

variable {d : Decimal}

theorem digitCount_pos (n : Nat) : 0 < digitCount n :=
  Nat.length_toDigits_pos

/-- A positive natural is between two powers of ten, which the number of its digits tells. -/
theorem digitCount_bounds {n : Nat} (hn : 0 < n) :
    (10 : ℚ) ^ (digitCount n - 1 : ℤ) ≤ n ∧ (n : ℚ) < 10 ^ (digitCount n : ℤ) := by
  have hcount := digitCount_pos n
  have hdigits : ∀ k, 0 < k → (digitCount n ≤ k ↔ n < 10 ^ k) := fun k hk =>
    Nat.length_toDigits_le_iff (by decide) hk
  constructor
  · rw [show (digitCount n - 1 : ℤ) = (digitCount n - 1 : Nat) by omega, zpow_natCast]
    rcases Nat.eq_zero_or_pos (digitCount n - 1) with hzero | hpos
    · rw [hzero, pow_zero]
      exact_mod_cast hn
    · have hle : 10 ^ (digitCount n - 1) ≤ n :=
        Nat.le_of_not_lt fun hlt => absurd ((hdigits _ hpos).mpr hlt) (by omega)
      exact_mod_cast hle
  · rw [zpow_natCast]
    exact_mod_cast (hdigits _ hcount).mp (Nat.le_refl _)

theorem magnitude_bounds (hd : 0 < d.digits) :
    (10 : ℚ) ^ ((digitCount d.digits : ℤ) + d.exponent - 1) ≤ d.magnitude ∧
      d.magnitude < 10 ^ ((digitCount d.digits : ℤ) + d.exponent) := by
  obtain ⟨hlow, hhigh⟩ := digitCount_bounds hd
  have hpower : (0 : ℚ) < 10 ^ d.exponent := zpow_pos (by norm_num) _
  constructor
  · rw [add_sub_right_comm, zpow_add₀ (by norm_num)]
    exact mul_le_mul_of_nonneg_right hlow hpower.le
  · rw [zpow_add₀ (by norm_num)]
    exact mul_lt_mul_of_pos_right hhigh hpower

/-- The magnitudes that are not rounded, so that powers stay small, are too large or too small for
it to matter. -/
theorem magnitude?_eq_none_iff : d.magnitude? = none ↔ Binary64.overflow ≤ d.magnitude := by
  have hoverflow := Binary64.one_lt_overflow
  by_cases hzero : d.digits = 0
  · rw [magnitude?, magnitude, hzero]
    simp [hoverflow.trans' one_pos]
  obtain ⟨hlow, hhigh⟩ := magnitude_bounds (Nat.pos_of_ne_zero hzero)
  simp only [magnitude?, if_neg hzero]
  generalize (digitCount d.digits : ℤ) + d.exponent = size at hlow hhigh ⊢
  split_ifs with hlarge hsmall
  · have hpower : (10 : ℚ) ^ (310 : ℤ) ≤ 10 ^ (size - 1) :=
      zpow_le_zpow_right₀ (by norm_num) (by omega)
    exact iff_of_true rfl (Binary64.overflow_le.trans (hpower.trans hlow))
  · have hpower : (10 : ℚ) ^ size ≤ 1 := zpow_le_one_of_nonpos₀ (by norm_num) (by omega)
    exact iff_of_false not_false
      (not_le_of_gt ((hhigh.trans_le hpower).trans hoverflow))
  · rw [Binary64.nearest?_eq_none_iff (tenTo_pos _), magnitude, zpow_eq_div (by norm_num),
      Nat.cast_mul, cast_tenTo, cast_tenTo, mul_div_assoc]

/-- No finite number is nearest to a decimal exactly if its magnitude is too large. -/
theorem toBinary64?_eq_none_iff : d.toBinary64? = none ↔ Binary64.overflow ≤ d.magnitude := by
  rw [toBinary64?, Option.map_eq_none_iff, magnitude?_eq_none_iff]

end Decimal

end Precedence.Number
