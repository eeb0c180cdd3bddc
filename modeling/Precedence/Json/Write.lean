import Precedence.Json.Basic
import Precedence.Json.Quoted
import Precedence.Number.Shortest

/-!
# Writing JSON

`Json.pretty` writes a value over several lines, indented by two blanks a level. A number has the
fewest digits that read back; it is written with a point from `10 ^ (-5)` up to, but without,
`10 ^ 16`, and with an exponent elsewhere. What is not a finite number is written as `null`.
-/

namespace Precedence.Json

open Number

/-- How numbers are written: the least and the greatest place of the point in front of the digits
that need no exponent. -/
structure NumberFormat where
  leastPlace : Int
  greatestPlace : Int

/-- The format of JSON numbers. -/
def numberFormat : NumberFormat :=
  ⟨-4, 16⟩

/-- The number `0.d₁d₂… * 10 ^ place` for the digits `d₁`, `d₂`, …. -/
def NumberFormat.text (format : NumberFormat) (digits : List Char) (place : Int) : List Char :=
  let count : Int := digits.length
  if format.leastPlace ≤ place && place ≤ 0 then
    '0' :: '.' :: List.replicate (-place).toNat '0' ++ digits
  else if 0 < place && place ≤ format.greatestPlace then
    if place < count then digits.take place.toNat ++ '.' :: digits.drop place.toNat
    else digits ++ List.replicate (place - count).toNat '0' ++ ['.', '0']
  else
    let exponent := place - 1
    let sign := if exponent < 0 then '-' else '+'
    digits.take 1 ++ (if 1 < count then '.' :: digits.drop 1 else []) ++
      'e' :: sign :: Nat.toDigits 10 exponent.natAbs

/-- A magnitude that is finite. -/
def magnitudeText (x : Binary64) : List Char :=
  if x.significand = 0 then ['0', '.', '0']
  else
    let d := shortest x
    let digits := Nat.toDigits 10 d.digits
    numberFormat.text (digits.reverse.dropWhile (· == '0')).reverse (digits.length + d.exponent)

def numberText (x : Binary64) : List Char :=
  if !x.isFinite then "null".toList
  else if x.isNegative then '-' :: magnitudeText x.negate
  else magnitudeText x

def quoted (s : String) : String :=
  String.ofList (Quoted.write s.toList)

/-- A new line at a level. -/
def newLine (level : Nat) : String :=
  "\n" ++ String.ofList (List.replicate (2 * level) ' ')

mutual

def prettyAt (level : Nat) : Json → String
  | null => "null"
  | bool true => "true"
  | bool false => "false"
  | natural n => toString n
  | number x => String.ofList (numberText x)
  | string s => quoted s
  | array [] => "[]"
  | array (item :: items) =>
    "[" ++ newLine (level + 1) ++ prettyAt (level + 1) item ++ prettyItems level items ++
      newLine level ++ "]"
  | object [] => "\x7b\x7d"
  | object ((name, value) :: fields) =>
    "\x7b" ++ newLine (level + 1) ++ quoted name ++ ": " ++ prettyAt (level + 1) value ++
      prettyFields level fields ++ newLine level ++ "\x7d"

/-- The items after the first. -/
def prettyItems (level : Nat) : List Json → String
  | [] => ""
  | item :: items =>
    "," ++ newLine (level + 1) ++ prettyAt (level + 1) item ++ prettyItems level items

/-- The fields after the first. -/
def prettyFields (level : Nat) : List (String × Json) → String
  | [] => ""
  | (name, value) :: fields =>
    "," ++ newLine (level + 1) ++ quoted name ++ ": " ++ prettyAt (level + 1) value ++
      prettyFields level fields

end

def pretty (value : Json) : String :=
  prettyAt 0 value

end Precedence.Json
