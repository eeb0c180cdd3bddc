/-!
# Rounding a quotient to the nearest integer

`roundDiv` rounds a quotient of naturals to the nearest natural and sends a tie to the even one.
It is within half a unit of the quotient (`roundDiv_lower`, `roundDiv_upper`).
-/

namespace Precedence.Number

/-- `num / den` rounded to the nearest natural, a tie to the even one. -/
def roundDiv (num den : Nat) : Nat :=
  let quotient := num / den
  let twice := 2 * (num % den)
  if twice < den then quotient
  else if den < twice then quotient + 1
  else quotient + quotient % 2

theorem roundDiv_lower (num : Nat) {den : Nat} (h : 0 < den) :
    2 * num ≤ 2 * (roundDiv num den * den) + den := by
  have hd := Nat.div_add_mod num den
  have hm := Nat.mod_lt num h
  have e : num / den * den + num % den = num := by rw [Nat.mul_comm]; exact hd
  unfold roundDiv
  simp only
  split
  · omega
  · split
    · rw [Nat.add_mul]; omega
    · rw [Nat.add_mul]
      have := Nat.zero_le (num / den % 2 * den)
      omega

theorem roundDiv_upper (num : Nat) {den : Nat} (h : 0 < den) :
    2 * (roundDiv num den * den) ≤ 2 * num + den := by
  have hd := Nat.div_add_mod num den
  have hm := Nat.mod_lt num h
  have e : num / den * den + num % den = num := by rw [Nat.mul_comm]; exact hd
  unfold roundDiv
  simp only
  split
  · omega
  · split
    · rw [Nat.add_mul]; omega
    · rw [Nat.add_mul]
      have h2 : num / den % 2 ≤ 1 := by omega
      have h3 : num / den % 2 * den ≤ 1 * den := Nat.mul_le_mul_right den h2
      omega

end Precedence.Number
