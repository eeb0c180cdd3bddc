import Precedence.Number.Decimal

/-!
# Numerals are finite

A numeral that has a value at all has a finite one (`Numeral.isFinite_of_value?`): rounding has no
answer where the exponent would be that of an infinity, and the sign does not touch the exponent.
-/

namespace Precedence.Number

namespace Binary64

theorem isFinite_zero : zero.isFinite = true := rfl

theorem isFinite_of_nearest? {num den : Nat} {x : Binary64} (h : nearest? num den = some x) :
    x.isFinite = true := by
  unfold nearest? at h
  by_cases hnum : num = 0
  · rw [if_pos hnum] at h
    exact Option.some.inj h ▸ isFinite_zero
  · simp only [if_neg hnum] at h
    generalize roundDiv _ _ + _ * twoTo 52 = bits at h
    by_cases hbits : bits < 2047 * twoTo 52
    · rw [if_pos hbits] at h
      obtain rfl := Option.some.inj h
      have hexponent : bits / twoTo 52 < 2047 := Nat.div_lt_of_lt_mul (by rwa [Nat.mul_comm])
      have htoNat : (UInt64.ofNat bits).toNat = bits := by
        rw [UInt64.toNat_ofNat']
        exact Nat.mod_eq_of_lt (Nat.lt_trans hbits (by decide))
      simp only [isFinite, exponentBits, htoNat, bne_iff_ne, ne_eq]
      exact Nat.ne_of_lt (Nat.lt_of_le_of_lt (Nat.mod_le _ _) hexponent)
    · rw [if_neg hbits] at h
      simp at h

theorem exponentBits_negate (x : Binary64) : x.negate.exponentBits = x.exponentBits := by
  have hsign : (0x8000000000000000 : UInt64).toNat / 2 ^ 52 % 2 ^ 11 = 0 := rfl
  show (x.bits ^^^ 0x8000000000000000).toNat / 2 ^ 52 % 2 ^ 11 = x.bits.toNat / 2 ^ 52 % 2 ^ 11
  rw [UInt64.toNat_xor, Nat.xor_div_two_pow, Nat.xor_mod_two_pow, hsign, Nat.xor_zero]

end Binary64

theorem Decimal.isFinite_of_toBinary64? {d : Decimal} {x : Binary64}
    (h : d.toBinary64? = some x) : x.isFinite = true := by
  obtain ⟨m, hm, rfl⟩ := Option.map_eq_some_iff.mp h
  have hfinite : m.isFinite = true := by
    unfold magnitude? at hm
    simp only at hm
    split at hm
    · exact Option.some.inj hm ▸ Binary64.isFinite_zero
    split at hm
    · simp at hm
    split at hm
    · exact Option.some.inj hm ▸ Binary64.isFinite_zero
    · exact Binary64.isFinite_of_nearest? hm
  by_cases hneg : d.negative
  · rw [if_pos hneg, Binary64.isFinite, Binary64.exponentBits_negate]
    exact hfinite
  · rwa [if_neg hneg]

theorem Numeral.isFinite_of_hexValue? {digits : List Char} {x : Binary64}
    (h : hexValue? digits = some x) : x.isFinite = true := by
  obtain ⟨value, -, hvalue⟩ := Option.bind_eq_some_iff.mp h
  exact Binary64.isFinite_of_nearest? hvalue

theorem Numeral.isFinite_of_value? {text : List Char} {x : Binary64}
    (h : value? text = some x) : x.isFinite = true := by
  unfold value? at h
  split at h
  · split at h
    · simp at h
    · exact isFinite_of_hexValue? h
  · split at h
    · simp at h
    · exact isFinite_of_hexValue? h
  · obtain ⟨d, -, hd⟩ := Option.bind_eq_some_iff.mp h
    exact Decimal.isFinite_of_toBinary64? hd

end Precedence.Number
