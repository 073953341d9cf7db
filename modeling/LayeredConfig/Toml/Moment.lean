/-
  LayeredConfig.Toml.Moment

  Dates and times.

  A moment is a date, a time of day, or both, and only with both an offset.  It
  is kept as its one canonical text: a `T` between date and time, a capital
  `Z`, at most nine digits of a second without zeros at their end, and no
  negative zero offset.
-/
import LayeredConfig.Number.Decimal
import LayeredConfig.Toml.Scan

namespace LayeredConfig.Toml

/-! ## Parts -/

/-- Reads exactly `n` digits. -/
def readDigits (n : Nat) : Reader Nat := fun s =>
  let digits := s.take n
  if digits.length = n ∧ digits.all Char.isDigit then some (digitsValue digits, s.drop n) else none

/-- Reads one given character. -/
def readChar (c : Char) : Reader Unit
  | d :: s => if d = c then some ((), s) else none
  | [] => none

/-- The decimal digits of `n`, filled up with zeros to a width. -/
def paddedDigits (width n : Nat) : List Char :=
  let digits := Nat.toDigits 10 n
  List.replicate (width - digits.length) '0' ++ digits

/-! ## Dates -/

/-- A day of the Gregorian calendar. -/
structure Date where
  year : Nat
  month : Nat
  day : Nat

/-- The number of days in a month. -/
def daysInMonth (year month : Nat) : Nat :=
  if month = 2 then
    if year % 4 = 0 ∧ (year % 100 ≠ 0 ∨ year % 400 = 0) then 29 else 28
  else if month = 4 ∨ month = 6 ∨ month = 9 ∨ month = 11 then 30
  else 31

/-- Reads a date. -/
def readDate : Reader Date := fun s => do
  let (year, s) ← readDigits 4 s
  let (_, s) ← readChar '-' s
  let (month, s) ← readDigits 2 s
  let (_, s) ← readChar '-' s
  let (day, s) ← readDigits 2 s
  if 1 ≤ month ∧ month ≤ 12 ∧ 1 ≤ day ∧ day ≤ daysInMonth year month then
    return (⟨year, month, day⟩, s)
  else none

/-- The text of a date. -/
def Date.chars (date : Date) : List Char :=
  paddedDigits 4 date.year ++ '-' :: paddedDigits 2 date.month ++ '-' :: paddedDigits 2 date.day

/-! ## Times of day -/

/-- A time of day.  The parts of a second are digits of which the last one is
    not zero. -/
structure Time where
  hour : Nat
  minute : Nat
  second : Nat
  fraction : List Char

/-- Reads the digits behind the point of a second, if there is a point. -/
def readFraction : Reader (List Char)
  | '.' :: s =>
    let digits := s.takeWhile Char.isDigit
    if digits.isEmpty then none
    -- nothing finer than a nanosecond is kept
    else some (Text.dropWhileEnd (· == '0') (digits.take 9), s.dropWhile Char.isDigit)
  | s => some ([], s)

/-- Reads two numbers of two digits with a colon between them. -/
def readHourMinute : Reader (Nat × Nat) := fun s => do
  let (hour, s) ← readDigits 2 s
  let (_, s) ← readChar ':' s
  let (minute, s) ← readDigits 2 s
  return ((hour, minute), s)

/-- Reads a time of day.  Second 60 is a leap second. -/
def readTime : Reader Time := fun s => do
  let ((hour, minute), s) ← readHourMinute s
  let (_, s) ← readChar ':' s
  let (second, s) ← readDigits 2 s
  let (fraction, s) ← readFraction s
  if hour ≤ 23 ∧ minute ≤ 59 ∧ second ≤ 60 then
    return (⟨hour, minute, second, fraction⟩, s)
  else none

/-- The text of a time of day. -/
def Time.chars (time : Time) : List Char :=
  paddedDigits 2 time.hour ++ ':' :: paddedDigits 2 time.minute ++ ':' :: paddedDigits 2 time.second
    ++ (if time.fraction.isEmpty then [] else '.' :: time.fraction)

/-! ## Offsets and moments -/

/-- Reads the offset at the end of a moment, as its text. -/
def readOffset : List Char → Option (List Char)
  | [] => some []
  | ['Z'] => some ['Z']
  | ['z'] => some ['Z']
  | sign :: s => do
    let ((hour, minute), rest) ← readHourMinute s
    if rest.isEmpty ∧ (sign = '+' ∨ sign = '-') ∧ hour ≤ 23 ∧ minute ≤ 59 then
      -- an offset of zero has one spelling
      let sign := if hour = 0 ∧ minute = 0 then '+' else sign
      return sign :: paddedDigits 2 hour ++ ':' :: paddedDigits 2 minute
    else none

/-- Whether a character may stand between date and time. -/
def isTimeDelimiter (c : Char) : Bool :=
  c == 'T' || c == 't' || c == ' '

/-- The canonical text of the moment that a whole text denotes. -/
def momentChars (s : List Char) : Option (List Char) :=
  match readDate s with
  | some (date, []) => some date.chars
  | some (date, c :: s) => do
    if isTimeDelimiter c then
      let (time, s) ← readTime s
      let offset ← readOffset s
      return date.chars ++ 'T' :: time.chars ++ offset
    else none
  | none =>
    match readTime s with
    | some (time, []) => some time.chars
    | _ => none

end LayeredConfig.Toml
