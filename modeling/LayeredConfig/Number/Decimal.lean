/-
  LayeredConfig.Number.Decimal

  Reading numbers from decimal text: integers of 64 bits with a sign, and
  floating-point numbers.  Only the ASCII digits are digits.
-/
import LayeredConfig.Number.Double

namespace LayeredConfig

/-! ## Digits -/

/-- The value of an ASCII digit. -/
def digitValue (c : Char) : Nat := c.toNat - '0'.toNat

/-- The number that a run of digits denotes. -/
def digitsValue (digits : List Char) : Nat :=
  digits.foldl (fun n c => 10 * n + digitValue c) 0

/-- A sign at the start of a text, and what follows it: `true` for minus. -/
def takeSign : List Char → Bool × List Char
  | '+' :: s => (false, s)
  | '-' :: s => (true, s)
  | s => (false, s)

/-! ## Integers -/

/-- The least integer of 64 bits with a sign, -2^63. -/
def int64Min : Int := -9223372036854775808

/-- The greatest integer of 64 bits with a sign, 2^63 - 1. -/
def int64Max : Int := 9223372036854775807

/-- Whether `n` is an integer of 64 bits with a sign. -/
def isInt64 (n : Int) : Bool := int64Min ≤ n && n ≤ int64Max

theorem isInt64_iff {n : Int} : isInt64 n = true ↔ int64Min ≤ n ∧ n ≤ int64Max := by
  simp [isInt64]

/-- Why a text is no integer of 64 bits. -/
inductive IntegerFault where
  | empty
  | invalidDigit
  | tooLarge
  | tooSmall
  deriving DecidableEq

/-- Extends the integer `n` by digits from left to right.  Whichever comes
    first decides the fault: a character that is no digit, or the digit with
    which the bounds are left. -/
def extendInteger (negative : Bool) (n : Int) : List Char → Except IntegerFault Int
  | [] => .ok n
  | c :: digits =>
    if c.isDigit then
      -- digits of a negative number are taken off, since the least integer has no positive one
      let next := if negative then 10 * n - digitValue c else 10 * n + digitValue c
      if isInt64 next then extendInteger negative next digits
      else .error (if negative then .tooSmall else .tooLarge)
    else .error .invalidDigit

/-- Reads an integer: an optional sign and at least one digit. -/
def readInteger (s : List Char) : Except IntegerFault Int :=
  match s with
  | [] => .error .empty
  | _ :: _ =>
    let (negative, digits) := takeSign s
    if digits.isEmpty then .error .invalidDigit else extendInteger negative 0 digits

/-! ## Floating-point numbers -/

/-- A decimal number: `digits · 10^exponent` with a sign. -/
structure Decimal where
  negative : Bool
  digits : Nat
  exponent : Int
  deriving DecidableEq

/-- The floating-point number nearest to a decimal.  A decimal at or above
    10^400 is past every finite number and one below 10^-400 rounds to zero, so
    that powers of ten beyond these bounds are never computed. -/
def Decimal.toDouble (d : Decimal) : ExtendedDouble :=
  let places : Int := (Nat.toDigits 10 d.digits).length
  -- the value lies below 10^(exponent + places)
  if d.digits = 0 then .finite (.zero d.negative)
  else if 400 < d.exponent + places then .infinite d.negative
  else if d.exponent + places < -400 then .finite (.zero d.negative)
  else match d.exponent with
    | .ofNat e => .ofRatio d.negative (d.digits * Nat.pow 10 e) 1
    | .negSucc e => .ofRatio d.negative d.digits (Nat.pow 10 (e + 1))

/-- The decimal with the given digits before and after the point, and the
    exponent written behind them. -/
def Decimal.ofParts (negative : Bool) (whole fraction : List Char) (exponent : Int) : Decimal :=
  ⟨negative, digitsValue (whole ++ fraction), exponent - fraction.length⟩

/-- Why a text is no floating-point number. -/
inductive FloatFault where
  | empty
  | invalid
  deriving DecidableEq

/-- Reads an exponent part: the letter, an optional sign and digits, up to the
    end of the text.  No exponent part stands for exponent 0. -/
def readExponent : List Char → Option Int
  | [] => some 0
  | c :: s =>
    if c == 'e' || c == 'E' then
      let (negative, digits) := takeSign s
      if !digits.isEmpty && digits.all Char.isDigit then
        some (if negative then -(digitsValue digits : Int) else digitsValue digits)
      else none
    else none

/-- Reads a decimal without its sign: digits with at most one point among or
    around them, and an optional exponent. -/
def readDecimal (negative : Bool) (s : List Char) : Option Decimal :=
  let whole := s.takeWhile Char.isDigit
  let rest := s.dropWhile Char.isDigit
  let (fraction, rest) := match rest with
    | '.' :: rest => (rest.takeWhile Char.isDigit, rest.dropWhile Char.isDigit)
    | rest => ([], rest)
  if whole.isEmpty && fraction.isEmpty then none
  else (readExponent rest).map (Decimal.ofParts negative whole fraction)

/-- Reads a floating-point number: an optional sign, and then a decimal or, in
    any mixture of capital and small letters, one of the words `inf`,
    `infinity` and `nan`. -/
def readFloat (s : List Char) : Except FloatFault ExtendedDouble :=
  match s with
  | [] => .error .empty
  | _ :: _ =>
    let (negative, body) := takeSign s
    let word := body.map Char.toLower
    if word = "inf".toList ∨ word = "infinity".toList then .ok (.infinite negative)
    else if word = "nan".toList then .ok .nan
    else match readDecimal negative body with
      | some d => .ok d.toDouble
      | none => .error .invalid

end LayeredConfig
