/-
  LayeredConfig.Value.Text

  The compact JSON text of values, as messages and listings show them: no
  spaces, table entries in their order, and floating-point numbers that can be
  told from integers.
-/
import LayeredConfig.Value
import LayeredConfig.Number.Shortest
import LayeredConfig.Text.Quoted

namespace LayeredConfig

/-- Numbers from 10^-5 to below 10^16 are written with a point and the others
    with an exponent, whose sign is always there. -/
def Value.floatLayout : Double.Layout where
  plainFrom := some (-5)
  plainTo := some 15
  plusSign := true
  tie := .toEven

/-- The decimal text of an integer. -/
def Number.intChars (n : Int) : List Char :=
  if n < 0 then '-' :: Nat.toDigits 10 n.natAbs else Nat.toDigits 10 n.natAbs

/-- The text of a number. -/
def Number.chars : Number → List Char
  | .int n => intChars n
  | .float x => x.render Value.floatLayout

namespace Value

/-- Four digits to base sixteen for a control character. -/
def controlDigits (n : Nat) : List Char :=
  let digits := Text.hexDigits n
  List.replicate (4 - digits.length) '0' ++ digits

/-- One character inside a JSON string. -/
def escapedChar (c : Char) : List Char :=
  if c == '"' then ['\\', '"']
  else if c == '\\' then ['\\', '\\']
  else if c == '\x08' then ['\\', 'b']
  else if c == '\x0c' then ['\\', 'f']
  else if c == '\n' then ['\\', 'n']
  else if c == '\r' then ['\\', 'r']
  else if c == '\t' then ['\\', 't']
  else if c.toNat < 0x20 then ['\\', 'u'] ++ controlDigits c.toNat
  else [c]

/-- A JSON string. -/
def stringChars (s : String) : List Char :=
  '"' :: s.toList.flatMap escapedChar ++ ['"']

mutual

/-- The compact JSON text of a value, as characters. -/
def chars : Value → List Char
  | .null => "null".toList
  | .bool true => "true".toList
  | .bool false => "false".toList
  | .number n => n.chars
  | .string s => stringChars s
  | .array items => '[' :: itemsChars items ++ [']']
  | .table entries => '\x7b' :: entriesChars entries ++ ['\x7d']

/-- The items of an array between commas. -/
def itemsChars : List Value → List Char
  | [] => []
  | [item] => item.chars
  | item :: items => item.chars ++ ',' :: itemsChars items

/-- The entries of a table between commas. -/
def entriesChars : List (String × Value) → List Char
  | [] => []
  | [(key, value)] => stringChars key ++ ':' :: value.chars
  | (key, value) :: entries =>
    stringChars key ++ ':' :: value.chars ++ ',' :: entriesChars entries

end

/-- The compact JSON text of a value. -/
def text (v : Value) : String :=
  String.ofList v.chars

/-- The text of a value as it is shown to people and as the type `String` takes
    it: strings as they are, no value as `None`, and all else as JSON. -/
def display : Value → String
  | .string s => s
  | .null => "None"
  | v => v.text

end Value

end LayeredConfig
