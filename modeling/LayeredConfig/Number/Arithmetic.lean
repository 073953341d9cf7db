/-
  LayeredConfig.Number.Arithmetic

  Arithmetic on 64-bit floating-point numbers.  Each operation computes the
  exact result as a fraction and rounds it once; infinities, zeros with a sign
  and the absence of a number follow the usual rules of binary floating point.
-/
import LayeredConfig.Number.Double

namespace LayeredConfig

namespace Double

/-- The value of `x` in units of 2^-1074, with its sign. -/
def signedUnits (x : Double) : Int :=
  if x.negative then -(x.units : Int) else x.units

/-- `x` with the other sign. -/
def negate (x : Double) : Double :=
  { x with negative := !x.negative }

/-- The greatest integer that is not greater than `x`. -/
def floor (x : Double) : Int :=
  Int.fdiv x.signedUnits unitsPerOne

/-- The greatest integer whose square is not greater than `n`. -/
def floorRoot (n : Nat) : Nat :=
  if n = 0 then 0
  else
    let root := 2 * floorRoot (n / 4)
    if (root + 1) * (root + 1) ≤ n then root + 1 else root
termination_by n
decreasing_by omega

end Double

namespace ExtendedDouble

open Double (unitsPerOne)

/-- `x` with the other sign. -/
def negate : ExtendedDouble → ExtendedDouble
  | .finite x => .finite x.negate
  | .infinite negative => .infinite (!negative)
  | .nan => .nan

/-- The sum.  A sum of zero is positive unless both numbers are negative. -/
def add : ExtendedDouble → ExtendedDouble → ExtendedDouble
  | .nan, _ | _, .nan => .nan
  | .infinite s, .infinite t => if s = t then .infinite s else .nan
  | .infinite s, .finite _ | .finite _, .infinite s => .infinite s
  | .finite x, .finite y =>
    let sum := x.signedUnits + y.signedUnits
    if sum = 0 then .finite (.zero (x.negative && y.negative))
    else .ofRatio (sum < 0) sum.natAbs unitsPerOne

/-- The difference. -/
def sub (x y : ExtendedDouble) : ExtendedDouble :=
  x.add y.negate

/-- The product. -/
def mul : ExtendedDouble → ExtendedDouble → ExtendedDouble
  | .nan, _ | _, .nan => .nan
  | .infinite s, .infinite t => .infinite (s != t)
  | .infinite s, .finite x | .finite x, .infinite s =>
    if x.isZero then .nan else .infinite (s != x.negative)
  | .finite x, .finite y =>
    .ofRatio (x.negative != y.negative) (x.units * y.units) (unitsPerOne * unitsPerOne)

/-- The quotient. -/
def div : ExtendedDouble → ExtendedDouble → ExtendedDouble
  | .nan, _ | _, .nan => .nan
  | .infinite _, .infinite _ => .nan
  | .infinite s, .finite x => .infinite (s != x.negative)
  | .finite x, .infinite s => .finite (.zero (x.negative != s))
  | .finite x, .finite y =>
    let negative := x.negative != y.negative
    if y.isZero then if x.isZero then .nan else .infinite negative
    else .ofRatio negative x.units y.units

/-- The remainder of division towards zero; it has the sign of the dividend. -/
def rem : ExtendedDouble → ExtendedDouble → ExtendedDouble
  | .nan, _ | _, .nan | .infinite _, _ => .nan
  | .finite x, .infinite _ => .finite x
  | .finite x, .finite y =>
    if y.isZero then .nan else .ofRatio x.negative (x.units % y.units) unitsPerOne

/-- The square root.  The digit behind the computed ones tells whether the
    root lies above them, which is all that rounding needs to know. -/
def sqrt : ExtendedDouble → ExtendedDouble
  | .nan => .nan
  | .infinite negative => if negative then .nan else .infinite false
  | .finite x =>
    if x.isZero then .finite x
    else if x.negative then .nan
    else
      let square := x.units * unitsPerOne * Nat.pow 4 64
      let root := Double.floorRoot square
      let above := if root * root < square then 1 else 0
      .ofRatio false (2 * root + above) (2 * unitsPerOne * Nat.pow 2 64)

/-- The order of numbers.  The two zeros are equal, and what is no number comes
    before everything, itself included. -/
def compare : ExtendedDouble → ExtendedDouble → Ordering
  | .nan, _ => .lt
  | _, .nan => .gt
  | .infinite s, .infinite t => if s = t then .eq else if s then .lt else .gt
  | .infinite s, .finite _ => if s then .lt else .gt
  | .finite _, .infinite s => if s then .gt else .lt
  | .finite x, .finite y => Ord.compare x.signedUnits y.signedUnits

/-- The number nearest to an integer. -/
def ofInt (n : Int) : ExtendedDouble :=
  .ofRatio (n < 0) n.natAbs 1

end ExtendedDouble

end LayeredConfig
