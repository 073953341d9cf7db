/-
  LayeredConfig.Number.Numeral

  The numerals of JSON: an optional minus, digits without needless zeros in
  front, a point with digits behind it, and an exponent.

  A numeral without point and exponent stands for an integer, if 64 bits hold
  it with or without a sign.  All others stand for floating-point numbers.
-/
import LayeredConfig.Number.Decimal

namespace LayeredConfig

/-- A numeral, taken apart. -/
structure Numeral where
  negative : Bool
  /-- The digits in front of the point. -/
  whole : List Char
  /-- The digits behind the point. -/
  fraction : List Char
  exponent : Int
  /-- Whether there is neither a point nor an exponent. -/
  isWhole : Bool
  deriving DecidableEq

namespace Numeral

/-- Takes a point and the digits behind it off, of which there has to be one. -/
def takeFraction? : List Char → Option (List Char × List Char)
  | '.' :: s =>
    let digits := s.takeWhile Char.isDigit
    if digits.isEmpty then none else some (digits, s.dropWhile Char.isDigit)
  | s => some ([], s)

/-- Takes a numeral apart.  Two digits or more do not begin with zero. -/
def ofChars? (s : List Char) : Option Numeral := do
  let (negative, s) := match s with
    | '-' :: s => (true, s)
    | s => (false, s)
  let rest := s.dropWhile Char.isDigit
  match s.takeWhile Char.isDigit with
  | [] | '0' :: _ :: _ => none
  | whole =>
    let (fraction, behind) ← takeFraction? rest
    let exponent ← readExponent behind
    return { negative, whole, fraction, exponent, isWhole := rest.isEmpty }

/-- The integer that a numeral stands for.  A negative zero is none, since no
    integer tells it from zero. -/
def integer? (n : Numeral) : Option Int :=
  let magnitude := digitsValue n.whole
  let value : Int := if n.negative then -(magnitude : Int) else magnitude
  -- the upper bound is 2^64
  if n.isWhole && int64Min ≤ value && value < 18446744073709551616
      && !(n.negative && magnitude == 0) then
    some value
  else none

/-- The floating-point number nearest to a numeral. -/
def nearest (n : Numeral) : ExtendedDouble :=
  (Decimal.ofParts n.negative n.whole n.fraction n.exponent).toDouble

end Numeral

end LayeredConfig
