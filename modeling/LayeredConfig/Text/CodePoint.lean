/-
  LayeredConfig.Text.CodePoint

  Characters by number: digits to base sixteen, code points, and the pairs of
  sixteen-bit units that stand for one character.
-/

namespace LayeredConfig.Text

/-- The value of a digit to base sixteen, small or capital. -/
def hexValue? (c : Char) : Option Nat :=
  let n := c.toNat
  if c.isDigit then some (n - '0'.toNat)
  else if 'a'.toNat ≤ n ∧ n ≤ 'f'.toNat then some (n - 'a'.toNat + 10)
  else if 'A'.toNat ≤ n ∧ n ≤ 'F'.toNat then some (n - 'A'.toNat + 10)
  else none

/-- The number that four digits to base sixteen denote. -/
def hexQuad? (a b c d : Char) : Option Nat := do
  return ((((← hexValue? a) * 16 + (← hexValue? b)) * 16 + (← hexValue? c)) * 16 + (← hexValue? d))

/-- The character at a code point; there is none at the units of pairs. -/
def ofCodePoint? (n : Nat) : Option Char :=
  if n.isValidChar then some (Char.ofNat n) else none

/-- The character that a pair of units stands for. -/
def ofPair? (high low : Nat) : Option Char :=
  if 0xD800 ≤ high ∧ high < 0xDC00 ∧ 0xDC00 ≤ low ∧ low < 0xE000 then
    ofCodePoint? (0x10000 + (high - 0xD800) * 0x400 + (low - 0xDC00))
  else none

end LayeredConfig.Text
