/-!
# Powers of two and of ten

What a digit at a place is worth, in binary and in decimal notation. Places add where powers
multiply (`twoTo_add`, `tenTo_add`), and no power is zero (`twoTo_pos`, `tenTo_pos`).
-/

namespace Precedence.Number

def twoTo (place : Nat) : Nat :=
  Nat.pow 2 place

def tenTo (place : Nat) : Nat :=
  Nat.pow 10 place

theorem twoTo_add (m n : Nat) : twoTo (m + n) = twoTo m * twoTo n :=
  Nat.pow_add 2 m n

theorem tenTo_add (m n : Nat) : tenTo (m + n) = tenTo m * tenTo n :=
  Nat.pow_add 10 m n

theorem twoTo_pos (n : Nat) : 0 < twoTo n :=
  Nat.pow_pos (by decide)

theorem tenTo_pos (n : Nat) : 0 < tenTo n :=
  Nat.pow_pos (by decide)

end Precedence.Number
