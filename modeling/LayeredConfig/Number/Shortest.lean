/-
  LayeredConfig.Number.Shortest

  The fewest decimal digits that read back.

  The real numbers that round to a given finite number form an interval around
  it, bounded by the midpoints to its two neighbours; the bounds belong to it
  when the rank is even.  The shortest decimal is a multiple of the greatest
  power of ten that has a multiple in the interval, and of such multiples the
  one nearest to the number.  All comparisons are of whole numbers.
-/
import LayeredConfig.Number.Decimal

namespace LayeredConfig.Double

/-- Which of two decimals at the same distance is taken. -/
inductive Tie where
  | toEven
  | up
  deriving DecidableEq

/-- The reals that round to a number, and the number itself, in units of
    2^-1075. -/
structure Interval where
  low : Nat
  high : Nat
  middle : Nat
  closed : Bool

/-- The interval around the magnitude at a rank. -/
def intervalAt (rank : Nat) : Interval where
  low := unitsAt (rank - 1) + unitsAt rank
  high := unitsAt rank + unitsAt (rank + 1)
  middle := 2 * unitsAt rank
  closed := rank % 2 == 0

/-- Whether `x / scale` units lie in the interval. -/
def Interval.holds (i : Interval) (scale x : Nat) : Bool :=
  if i.closed then i.low * scale ≤ x && x ≤ i.high * scale
  else i.low * scale < x && x < i.high * scale

/-- The multiple of `10^power` nearest to the middle among those in the
    interval, as a count of that power.  Only the two neighbours of the middle
    need to be looked at. -/
def Interval.multiple? (i : Interval) (tie : Tie) (power : Int) : Option Nat :=
  let scale := Nat.pow 10 (-power).toNat
  let unit := Nat.pow 10 power.toNat * Nat.pow 2 1075
  let count := i.middle * scale / unit
  let below := count * unit
  let above := below + unit
  match i.holds scale below, i.holds scale above with
  | false, false => none
  | true, false => some count
  | false, true => some (count + 1)
  -- both neighbours read back: the nearer one is taken
  | true, true =>
    let down := i.middle * scale - below
    let up := above - i.middle * scale
    if down < up then some count
    else if up < down then some (count + 1)
    else match tie with
      | .up => some (count + 1)
      | .toEven => some (count + count % 2)

/-- Looks for the greatest power of ten with a multiple in the interval, from
    `power` downwards through `steps` powers. -/
def Interval.search (i : Interval) (tie : Tie) : (steps : Nat) → (power : Int) → Nat × Int
  | 0, power =>
    (i.middle * Nat.pow 10 (-power).toNat / (Nat.pow 10 power.toNat * Nat.pow 2 1075), power)
  | steps + 1, power =>
    match i.multiple? tie power with
    | some count => (count, power)
    | none => i.search tie steps (power - 1)

/-- A power of ten above the magnitude at a rank, less than two powers too
    large: log10 2 lies below 0.30103. -/
def powerAbove (rank : Nat) : Int :=
  ((unitsAt rank).log2 - 1073 : Int) * 30103 / 100000 + 1

/-- The shortest decimal that reads back as `x`.  Seventeen digits always do. -/
def shortest (tie : Tie) (x : Double) : Decimal :=
  if x.isZero then ⟨x.negative, 0, 0⟩
  else
    -- some power at most twenty below the first one has a multiple inside
    let (digits, power) := (intervalAt x.rank).search tie 20 (powerAbove x.rank)
    ⟨x.negative, digits, power⟩

/-! ## Layouts -/

/-- How a format lays out the digits of a number.  Numbers whose leading digit
    stands at an exponent from `plainFrom` to `plainTo` are written with a
    point and at least one digit on both sides of it; all others with one
    digit before the point and an exponent.  A missing bound never ends the
    plain form. -/
structure Layout where
  plainFrom : Option Int
  plainTo : Option Int
  /-- Whether a positive exponent has a sign. -/
  plusSign : Bool
  tie : Tie

/-- Digits with the point behind the first `before` of them, filled up with
    zeros on either side. -/
def plainDigits (digits : List Char) (before : Int) : List Char :=
  if before ≤ 0 then ['0', '.'] ++ List.replicate (-before).toNat '0' ++ digits
  else
    let n := before.toNat
    if digits.length ≤ n then digits ++ List.replicate (n - digits.length) '0' ++ ['.', '0']
    else digits.take n ++ ['.'] ++ digits.drop n

/-- One digit, the others behind a point if there are others, and the exponent. -/
def scientificDigits (plusSign : Bool) (digits : List Char) (exponent : Int) : List Char :=
  let mantissa := match digits with
    | [] => []
    | [d] => [d]
    | d :: rest => d :: '.' :: rest
  let sign := if exponent < 0 then ['-'] else if plusSign then ['+'] else []
  mantissa ++ ['e'] ++ sign ++ Nat.toDigits 10 exponent.natAbs

/-- The text of `x` in a layout. -/
def render (layout : Layout) (x : Double) : List Char :=
  let d := x.shortest layout.tie
  let digits := Nat.toDigits 10 d.digits
  let lead := d.exponent + digits.length - 1
  let plain := layout.plainFrom.all (· ≤ lead) && layout.plainTo.all (lead ≤ ·)
  let body :=
    if plain then plainDigits digits (lead + 1)
    else scientificDigits layout.plusSign digits lead
  (if x.negative then ['-'] else []) ++ body

end LayeredConfig.Double
