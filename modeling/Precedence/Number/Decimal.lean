import Precedence.Number.Binary64

/-!
# Decimal and hexadecimal numerals

A decimal numeral has digits, optionally a point among or around them, and optionally an exponent.
`Decimal.read` reads one, `Decimal.toBinary64?` gives the nearest floating-point number. A
hexadecimal numeral is `0x` and digits. `Numeral.value?` reads either of them.
-/

namespace Precedence.Number

def isDigit (c : Char) : Bool :=
  '0' ≤ c && c ≤ '9'

/-- The value of a decimal digit. -/
def digitValue (c : Char) : Nat :=
  c.toNat - '0'.toNat

/-- The value of a row of decimal digits. -/
def digitsValue (digits : List Char) : Nat :=
  digits.foldl (fun value c => 10 * value + digitValue c) 0

def hexDigitValue? (c : Char) : Option Nat :=
  if isDigit c then some (digitValue c)
  else if 'a' ≤ c && c ≤ 'f' then some (c.toNat - 'a'.toNat + 10)
  else if 'A' ≤ c && c ≤ 'F' then some (c.toNat - 'A'.toNat + 10)
  else none

/-- The value of a row of hexadecimal digits, none if one of them is not a digit. -/
def hexDigitsValue? (digits : List Char) : Option Nat :=
  digits.foldlM (fun value c => (hexDigitValue? c).map (16 * value + ·)) 0

/-- The number `± digits * 10 ^ exponent`. -/
structure Decimal where
  negative : Bool
  digits : Nat
  exponent : Int
  deriving DecidableEq

namespace Decimal

/-- An optional sign: whether it is a minus, and what follows. -/
def readSign : List Char → Bool × List Char
  | '-' :: rest => (true, rest)
  | '+' :: rest => (false, rest)
  | rest => (false, rest)

/-- The exponent that the rest of a numeral states: none at all is 0, otherwise `e` or `E`, an
optional sign and at least one digit, up to the end. -/
def readExponent : List Char → Option Int
  | [] => some 0
  | c :: rest =>
    if c = 'e' || c = 'E' then
      let (negative, digits) := readSign rest
      if digits.isEmpty || !digits.all isDigit then none
      else
        let value : Int := digitsValue digits
        some (if negative then -value else value)
    else none

/-- Reads a whole text as a decimal numeral: an optional sign, digits with at most one point, of
which there is at least one digit, and an optional exponent. -/
def read (text : List Char) : Option Decimal :=
  let (negative, rest) := readSign text
  let whole := rest.takeWhile isDigit
  let rest := rest.dropWhile isDigit
  let (fraction, rest) := match rest with
    | '.' :: rest => (rest.takeWhile isDigit, rest.dropWhile isDigit)
    | rest => ([], rest)
  if whole.isEmpty && fraction.isEmpty then none
  else (readExponent rest).map fun exponent =>
    ⟨negative, digitsValue (whole ++ fraction), exponent - fraction.length⟩

/-- The number of decimal digits of a natural. -/
def digitCount (n : Nat) : Nat :=
  (Nat.toDigits 10 n).length

/-- The magnitude as a floating-point number. A magnitude of at least `10 ^ 310` has none, and one
below `10 ^ (-330)` rounds to zero, so that powers stay small. -/
def magnitude? (d : Decimal) : Option Binary64 :=
  let size : Int := digitCount d.digits + d.exponent
  if d.digits = 0 then some .zero
  else if 311 ≤ size then none
  else if size ≤ -330 then some .zero
  else Binary64.nearest? (d.digits * tenTo d.exponent.toNat) (tenTo (-d.exponent).toNat)

/-- The nearest floating-point number, none if that is not finite. -/
def toBinary64? (d : Decimal) : Option Binary64 :=
  d.magnitude?.map fun x => if d.negative then x.negate else x

end Decimal

/-- A natural rounded to fifty-three significant bits. -/
def roundToSignificand (n : Nat) : Nat :=
  let excess := twoTo (n.log2 - 52)
  roundDiv n excess * excess

namespace Numeral

/-- The value of a row of hexadecimal digits, rounded after each digit. -/
def hexValue? (digits : List Char) : Option Binary64 := do
  let value ← digits.foldlM
    (fun value c => (hexDigitValue? c).map fun d => roundToSignificand (16 * value + d)) 0
  Binary64.nearest? value 1

/-- The finite number that a text is a numeral of: `0x` or `0X` and at least one hexadecimal digit,
or a decimal numeral. -/
def value? : List Char → Option Binary64
  | '0' :: 'x' :: digits => if digits.isEmpty then none else hexValue? digits
  | '0' :: 'X' :: digits => if digits.isEmpty then none else hexValue? digits
  | text => (Decimal.read text).bind Decimal.toBinary64?

end Numeral

end Precedence.Number
