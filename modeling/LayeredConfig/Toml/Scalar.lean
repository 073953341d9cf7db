/-
  LayeredConfig.Toml.Scalar

  Truth values, numbers, dates and times.

  Each of them is a word without white space inside, except that one space may
  stand between a date and a time.  Numbers that no floating-point number can
  hold and moments become their texts.
-/
import LayeredConfig.Toml.Moment
import LayeredConfig.Value

namespace LayeredConfig.Toml

/-! ## Digits -/

/-- Takes the underscores out of a run of digits.  Each of them has to stand
    between two digits. -/
def ungroup (isDigit : Char → Bool) : List Char → Option (List Char)
  | [] => none
  | [c] => if isDigit c then some [c] else none
  | c :: '_' :: s => if isDigit c then (ungroup isDigit s).map (c :: ·) else none
  | c :: s => if isDigit c then (ungroup isDigit s).map (c :: ·) else none

/-- The digits of a whole number: no zero leads others. -/
def wholeDigits? (s : List Char) : Option (List Char) :=
  match ungroup Char.isDigit s with
  | some ('0' :: _ :: _) => none
  | digits => digits

/-! ## Integers -/

/-- The value of a digit to base two, eight, ten or sixteen. -/
def radixDigit (c : Char) : Nat :=
  if c.isDigit then c.toNat - '0'.toNat
  else if c.isLower then c.toNat - 'a'.toNat + 10
  else c.toNat - 'A'.toNat + 10

/-- Whether a character is a digit to a base. -/
def isRadixDigit (radix : Nat) (c : Char) : Bool :=
  c.isAlphanum && radixDigit c < radix

/-- Reads the digits of a number to a base. -/
def radixInteger? (radix : Nat) (s : List Char) : Option Int := do
  let digits ← ungroup (isRadixDigit radix) s
  let n : Int := (digits.foldl (fun n c => radix * n + radixDigit c) 0 : Nat)
  if isInt64 n then some n else none

/-- Reads an integer of 64 bits. -/
def integer? : List Char → Option Int
  | '0' :: 'x' :: s => radixInteger? 16 s
  | '0' :: 'o' :: s => radixInteger? 8 s
  | '0' :: 'b' :: s => radixInteger? 2 s
  | s => do
    let (negative, body) := takeSign s
    let digits ← wholeDigits? body
    match extendInteger negative 0 digits with
    | .ok n => some n
    | .error _ => none

/-! ## Floating-point numbers -/

/-- Reads an exponent part, which may be absent. -/
def exponent? : List Char → Option Int
  | [] => some 0
  | c :: s =>
    if c == 'e' || c == 'E' then do
      let (negative, body) := takeSign s
      let digits ← ungroup Char.isDigit body
      return if negative then -(digitsValue digits : Int) else digitsValue digits
    else none

/-- Whether a character belongs to a run of grouped digits. -/
def isGroupedDigit (c : Char) : Bool :=
  c.isDigit || c == '_'

/-- Reads a decimal with a point, an exponent, or both. -/
def decimal? (s : List Char) : Option Decimal := do
  let (negative, body) := takeSign s
  let whole ← wholeDigits? (body.takeWhile isGroupedDigit)
  match body.dropWhile isGroupedDigit with
  | [] => none
  -- the point has digits on both sides
  | '.' :: rest =>
    let fraction ← ungroup Char.isDigit (rest.takeWhile isGroupedDigit)
    let exponent ← exponent? (rest.dropWhile isGroupedDigit)
    return .ofParts negative whole fraction exponent
  | rest =>
    let exponent ← exponent? rest
    return .ofParts negative whole [] exponent

/-- A number without a value among the numbers is its name.  A decimal past the
    greatest number is refused, while one below the least is `-inf`. -/
def float? (s : List Char) : Option Value :=
  let (negative, word) := takeSign s
  if word = "inf".toList then some (.string (if negative then "-inf" else "inf"))
  else if word = "nan".toList then some (.string "NaN")
  else match (decimal? s).map Decimal.toDouble with
    | some (.finite x) => some (.float x)
    | some (.infinite true) => some (.string "-inf")
    | _ => none

/-! ## Words -/

/-- The characters of words. -/
def isWordChar (c : Char) : Bool :=
  c.isAlphanum || c == '+' || c == '-' || c == '_' || c == '.' || c == ':'

/-- The value of a whole word. -/
def wordValue? (word : List Char) : Option Value :=
  if word = "true".toList then some (.bool true)
  else if word = "false".toList then some (.bool false)
  else match integer? word with
    | some n => some (.int n)
    | none =>
      match float? word with
      | some v => some v
      | none => (momentChars word).map fun text => .string (String.ofList text)

/-- Whether a text goes on with a space and a digit, as between a date and a
    time. -/
def continuesAfterSpace : List Char → Bool
  | ' ' :: c :: _ => c.isDigit
  | _ => false

/-- Reads a truth value, a number, a date or a time. -/
def readScalar : Reader Value := fun s =>
  let word := s.takeWhile isWordChar
  let rest := s.dropWhile isWordChar
  -- the space may join a date and a time, so the word goes on behind it
  if continuesAfterSpace rest then
    let next := rest.drop 1
    (wordValue? (word ++ ' ' :: next.takeWhile isWordChar)).map
      fun v => (v, next.dropWhile isWordChar)
  else (wordValue? word).map fun v => (v, rest)

end LayeredConfig.Toml
