/-
  LayeredConfig.Number.Double

  The finite binary floating-point numbers of 64 bits, as exact numbers.

  The magnitudes of these numbers, in order, are counted by a *rank*: rank 0
  is zero, rank 1 the least positive number 2^-1074, and so on up to the
  greatest finite number.  A binade holds 2^52 ranks, so rank and value are
  converted into one another by integer arithmetic; the rank is also the bit
  pattern without its sign.  A number is a rank with a sign, and zero has two.

  Rounding is a function of exact fractions (`Double.ofRatio`): to the nearest
  rank, a half to the even rank.  No machine floating point is involved.
-/

namespace LayeredConfig

/-- The number of ranks: the first one past the greatest finite number. -/
abbrev Double.rankCount : Nat := 2047 * Nat.pow 2 52

/-- A finite 64-bit floating-point number: the sign, and the place of the
    magnitude among the non-negative ones in increasing order. -/
structure Double where
  negative : Bool
  rank : Fin Double.rankCount
  deriving DecidableEq

namespace Double

/-! ## Values

Every finite number is a whole number of units of 2^-1074. -/

/-- The magnitude at a rank, in units of 2^-1074.  Ranks past the last one
    continue the pattern of the binades. -/
def unitsAt (rank : Nat) : Nat :=
  match rank / Nat.pow 2 52 with
  | 0 => rank
  | binade + 1 => (Nat.pow 2 52 + rank % Nat.pow 2 52) * Nat.pow 2 binade

/-- The magnitude of `x` in units of 2^-1074. -/
def units (x : Double) : Nat := unitsAt x.rank

/-- The unit, as a divisor: 1 is `unitsPerOne` units. -/
def unitsPerOne : Nat := Nat.pow 2 1074

/-- The integer part of `x`: what remains when the digits behind the point are
    dropped. -/
def truncate (x : Double) : Int :=
  let whole : Nat := x.units / unitsPerOne
  if x.negative then -(whole : Int) else whole

/-- Zero with a sign. -/
def zero (negative : Bool) : Double :=
  ⟨negative, 0⟩

/-- Whether `x` is one of the two zeros. -/
def isZero (x : Double) : Bool := x.rank == 0

/-! ## Rounding -/

/-- The integer nearest to `num / den`; a half goes to the even neighbour. -/
def roundHalfEven (num den : Nat) : Nat :=
  let quotient := num / den
  let rest := num % den
  if 2 * rest < den then quotient
  else if den < 2 * rest then quotient + 1
  else quotient + quotient % 2

/-- The rank nearest to the fraction `num / den`, which may lie past the last
    finite one.  In the binade `[2^(52+s), 2^(53+s))` units, ranks are `2^s`
    units apart, and rounding up to the end of a binade gives the first rank
    of the next. -/
def nearestRank (num den : Nat) : Nat :=
  let scaled := num * unitsPerOne
  let spacing := (scaled / den).log2 - 52
  spacing * Nat.pow 2 52 + roundHalfEven scaled (den * Nat.pow 2 spacing)

/-- The number nearest to `num / den` with the given sign, or nothing if that
    rounds past the greatest finite number. -/
def ofRatio (negative : Bool) (num den : Nat) : Option Double :=
  let rank := nearestRank num den
  if h : rank < rankCount then some ⟨negative, rank, h⟩ else none

/-- The number nearest to an integer. -/
def ofInt (n : Int) : Option Double :=
  ofRatio (n < 0) n.natAbs 1

end Double

/-- The result of floating-point arithmetic: a finite number, an infinity, or
    no number at all. -/
inductive ExtendedDouble where
  | finite (value : Double)
  | infinite (negative : Bool)
  | nan
  deriving DecidableEq

/-- The number nearest to `num / den` with the given sign; too large a number
    becomes an infinity. -/
def ExtendedDouble.ofRatio (negative : Bool) (num den : Nat) : ExtendedDouble :=
  -- no match, which would have proofs compare with the number of ranks
  (Double.ofRatio negative num den).elim (.infinite negative) .finite

end LayeredConfig
