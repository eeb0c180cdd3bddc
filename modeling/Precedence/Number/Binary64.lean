import Precedence.Number.Power
import Precedence.Number.Rounding

/-!
# Floating-point numbers of 64 bits

A number is given by its bits: a sign, eleven bits of exponent and fifty-two of fraction.
`nearest?` rounds a quotient of naturals to the nearest finite number, a tie to the even one, and
has no answer where the quotient is too large for one.
-/

namespace Precedence.Number

/-- A floating-point number, finite or not, as the bits that make it up. -/
structure Binary64 where
  bits : UInt64
  deriving DecidableEq, Inhabited

namespace Binary64

def zero : Binary64 := ⟨0⟩

def infinity : Binary64 := ⟨0x7ff0000000000000⟩

def nan : Binary64 := ⟨0x7ff8000000000000⟩

def isNegative (x : Binary64) : Bool :=
  x.bits ≥ 0x8000000000000000

def negate (x : Binary64) : Binary64 :=
  ⟨x.bits ^^^ 0x8000000000000000⟩

/-- The bits of the exponent, from 0 to 2047. -/
def exponentBits (x : Binary64) : Nat :=
  x.bits.toNat / twoTo 52 % twoTo 11

/-- The bits of the fraction. -/
def fractionBits (x : Binary64) : Nat :=
  x.bits.toNat % twoTo 52

/-- The largest exponent marks infinities and what is not a number. -/
def isFinite (x : Binary64) : Bool :=
  x.exponentBits != 2047

/-- The integer factor of the magnitude `significand * 2 ^ scale` of a finite number. -/
def significand (x : Binary64) : Nat :=
  if x.exponentBits = 0 then x.fractionBits else twoTo 52 + x.fractionBits

/-- The binary exponent of the magnitude `significand * 2 ^ scale` of a finite number. -/
def scale (x : Binary64) : Int :=
  (max x.exponentBits 1 : Nat) - 1075

/-- The exponent of the largest power of two that is at most `num / den`, both positive. -/
def binaryExponent (num den : Nat) : Int :=
  let guess : Int := (num.log2 : Int) - (den.log2 : Int)
  if den * twoTo guess.toNat ≤ num * twoTo (-guess).toNat then guess else guess - 1

/-- The nonnegative number nearest to `num / den`, a tie to the even one, or none if the quotient
rounds to more than the largest finite number. The gap between neighbours is `2 ^ gap`. -/
def nearest? (num den : Nat) : Option Binary64 :=
  if num = 0 then some zero
  else
    let gap : Int := max (binaryExponent num den - 52) (-1074)
    let units := roundDiv (num * twoTo (-gap).toNat) (den * twoTo gap.toNat)
    let bits := units + (gap + 1074).toNat * twoTo 52
    if bits < 2047 * twoTo 52 then some ⟨UInt64.ofNat bits⟩ else none

/-- The sixteen hexadecimal digits of the bits, highest first. -/
def hexDigits (x : Binary64) : List Char :=
  (List.range 16).map fun i => Nat.digitChar (x.bits.toNat / twoTo (4 * (15 - i)) % 16)

end Binary64

end Precedence.Number
