/-
  LayeredConfig.Number.Significand

  Reading numerals through one machine word.

  The digits of a numeral are gathered in a word of 64 bits for as long as it
  holds them, the word is rounded to a floating-point number, and that is
  multiplied or divided by one power of ten.  Each of the three steps rounds,
  so the result may miss the nearest number by a few places of its last bit;
  it is exact about the integers up to 2^53.
-/
import LayeredConfig.Number.Arithmetic
import LayeredConfig.Number.Numeral

namespace LayeredConfig

/-- The number `word · 10^exponent`. -/
structure Significand where
  word : Nat
  exponent : Int
  deriving DecidableEq

namespace Significand

/-! ## Gathering digits -/

/-- The number of words: the first integer that 64 bits do not hold.  It is not
    unfolded on its own, since a proof never needs to count that far. -/
@[irreducible] def wordCount : Nat := Nat.pow 2 64

/-- A word with one more digit behind the others, if 64 bits hold it. -/
def extend? (word : Nat) (digit : Char) : Option Nat :=
  let next := 10 * word + digitValue digit
  if next < wordCount then some next else none

/-- Gathers the digits in front of the point.  From the first one on that the
    word does not hold, they only count. -/
def gatherWhole (word : Nat) : List Char → Significand
  | [] => ⟨word, 0⟩
  | digit :: digits =>
    match extend? word digit with
    | some next => gatherWhole next digits
    | none => ⟨word, digits.length + 1⟩

/-- Gathers the digits behind the point, up to the first one that the word does
    not hold. -/
def gatherFraction (s : Significand) : List Char → Significand
  | [] => s
  | digit :: digits =>
    match extend? s.word digit with
    | some next => gatherFraction ⟨next, s.exponent - 1⟩ digits
    | none => s

/-- The significand of a numeral, without its sign. -/
def ofNumeral (n : Numeral) : Significand :=
  let s := (gatherWhole 0 n.whole).gatherFraction n.fraction
  { s with exponent := s.exponent + n.exponent }

/-! ## Scaling -/

/-- The floating-point number nearest to a power of ten. -/
def powerOfTen (n : Nat) : ExtendedDouble :=
  .ofRatio false (Nat.pow 10 n) 1

/-- The greatest power of ten among the finite numbers. -/
def greatestPower : Nat := 308

/-- The number that a significand stands for.  An exponent beyond the powers of
    ten is past every finite number; one below their inverses takes two
    divisions, of which the second ends at zero. -/
def scaled (s : Significand) : ExtendedDouble :=
  let x := ExtendedDouble.ofInt s.word
  match s.exponent with
  | .ofNat e =>
    if e ≤ greatestPower then x.mul (powerOfTen e)
    else if s.word = 0 then x
    else .infinite false
  | .negSucc e =>
    if e < greatestPower then x.div (powerOfTen (e + 1))
    else
      let rest := min (e + 1 - greatestPower) greatestPower
      (x.div (powerOfTen greatestPower)).div (powerOfTen rest)

end Significand

/-- The floating-point number that a numeral stands for when it is read through
    one word. -/
def Numeral.approximate (n : Numeral) : ExtendedDouble :=
  let x := (Significand.ofNumeral n).scaled
  if n.negative then x.negate else x

end LayeredConfig
