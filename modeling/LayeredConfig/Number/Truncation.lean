/-
  LayeredConfig.Number.Truncation

  From floating-point numbers to integers of 64 bits.

  The digits behind the point are dropped, and what is left is compared with the
  bounds of the integers as a floating-point number.  The upper bound is no such
  number: it is rounded up to 2^63, below which a number has to stay.
-/
import LayeredConfig.Number.Arithmetic
import LayeredConfig.Number.Decimal

namespace LayeredConfig.ExtendedDouble

/-- The number without the digits behind its point.  The sign stays, also that
    of a number that becomes zero. -/
def whole : ExtendedDouble → ExtendedDouble
  | .finite x => .ofRatio x.negative (x.units / Double.unitsPerOne) 1
  | x => x

/-- Whether `x` is neither an infinity nor no number. -/
def isFinite : ExtendedDouble → Bool
  | .finite _ => true
  | _ => false

/-- The integer of 64 bits nearest to the integer part of `x`: numbers out of
    range become the bound on their side, and no number becomes zero. -/
def saturate : ExtendedDouble → Int
  | .finite x => max int64Min (min int64Max x.truncate)
  | .infinite negative => if negative then int64Min else int64Max
  | .nan => 0

/-- What is out of range is cut off at the bounds. -/
theorem isInt64_saturate (x : ExtendedDouble) : isInt64 x.saturate = true := by
  cases x with
  | finite x =>
    rw [saturate, isInt64_iff, int64Min, int64Max]
    omega
  | infinite negative => cases negative <;> rfl
  | nan => rfl

/-- The integer part of `x`, if it is an integer of 64 bits.  It is not unfolded
    on its own, since a proof never needs to compute the bounds. -/
@[irreducible] def toInt64? (x : ExtendedDouble) : Option Int :=
  if x.whole.isFinite && compare x.whole (ofInt int64Min) != .lt
      && compare x.whole (ofInt int64Max) == .lt then
    some x.whole.saturate
  else none

theorem isInt64_of_toInt64? {x : ExtendedDouble} {n : Int} (h : x.toInt64? = some n) :
    isInt64 n = true := by
  rw [toInt64?, Option.ite_none_right_eq_some, Option.some.injEq] at h
  exact h.2 ▸ isInt64_saturate _

end LayeredConfig.ExtendedDouble
