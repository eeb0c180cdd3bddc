import Precedence.Number.Binary64

/-!
# The shortest decimal that reads back

`shortest` gives the decimal digits of a finite positive number: as few as possible so that the
number is the nearest one to them, and of the decimals with so few digits the nearest to the number.
-/

namespace Precedence.Number

/-- The decimal `digits * 10 ^ exponent`. -/
structure DecimalDigits where
  digits : Nat
  exponent : Int
  deriving DecidableEq

/-- Quarters of the gap above a number: the number itself, and the ends of the interval of reals
that round to it, all in units of `2 ^ scale`. The ends belong to the interval if `closed`. -/
structure RoundingInterval where
  low : Nat
  value : Nat
  high : Nat
  scale : Int
  closed : Bool

namespace RoundingInterval

/-- The interval of a finite number. Below a power of two the gap is half as wide. -/
def ofBinary64 (x : Binary64) : RoundingInterval :=
  let m := x.significand
  let narrow := x.fractionBits = 0 && 1 < x.exponentBits
  ⟨4 * m - (if narrow then 1 else 2), 4 * m, 4 * m + 2, x.scale - 2, m % 2 = 0⟩

/-- The factor of a grid point and the factor of the interval that make them comparable. -/
def factors (interval : RoundingInterval) (exponent : Int) : Nat × Nat :=
  (tenTo exponent.toNat * twoTo (-interval.scale).toNat,
    twoTo interval.scale.toNat * tenTo (-exponent).toNat)

/-- Whether `digits * 10 ^ exponent` lies in the interval. -/
def contains (interval : RoundingInterval) (digits : Nat) (exponent : Int) : Bool :=
  let (gridFactor, factor) := interval.factors exponent
  let point := digits * gridFactor
  if interval.closed then interval.low * factor ≤ point && point ≤ interval.high * factor
  else interval.low * factor < point && point < interval.high * factor

/-- The point of the grid `10 ^ exponent` to write for the number: of its two neighbours on the
grid one in the interval, the nearer if both are, the even one of two equally near. -/
def onGrid? (interval : RoundingInterval) (exponent : Int) : Option DecimalDigits :=
  let (gridFactor, factor) := interval.factors exponent
  let value := interval.value * factor
  let below := value / gridFactor
  let rest := value - below * gridFactor
  let nearer :=
    if 2 * rest < gridFactor || (2 * rest = gridFactor && below % 2 = 0) then below else below + 1
  let farther := if nearer = below then below + 1 else below
  if interval.contains nearer exponent then some ⟨nearer, exponent⟩
  else if interval.contains farther exponent then some ⟨farther, exponent⟩
  else none

/-- The exponent of the largest power of ten that is at most the number. -/
def decade (interval : RoundingInterval) : Int :=
  let num := interval.value * twoTo interval.scale.toNat
  let den := twoTo (-interval.scale).toNat
  let guess : Int := (Nat.toDigits 10 num).length - (Nat.toDigits 10 den).length
  if den * tenTo guess.toNat ≤ num * tenTo (-guess).toNat then guess else guess - 1

end RoundingInterval

/-- The shortest digits of a finite positive number: the first grid with a hit, from one digit to
seventeen, which always suffice. -/
def shortest (x : Binary64) : DecimalDigits :=
  let interval := RoundingInterval.ofBinary64 x
  let decade := interval.decade
  ((List.range 17).findSome? fun (more : Nat) => interval.onGrid? (decade - more)).getD ⟨0, 0⟩

end Precedence.Number
