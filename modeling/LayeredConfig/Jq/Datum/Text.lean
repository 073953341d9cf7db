/-
  LayeredConfig.Jq.Datum.Text

  The JSON text of values inside programs, and reading it.

  Numerals are written as they stand, and a numeral that is read stays one
  unless 64 bits with a sign hold it as an integer.
-/
import LayeredConfig.Jq.Datum
import LayeredConfig.Json.Reader
import LayeredConfig.Number.Numeral
import LayeredConfig.Value.Text

namespace LayeredConfig.Jq.Datum

/-! ## Writing -/

/-- Numbers from 10^-4 to below 10^16 are written with a point and the others
    with an exponent that has a sign only if it is negative. -/
def floatLayout : Double.Layout where
  plainFrom := some (-4)
  plainTo := some 15
  plusSign := false
  tie := .up

/-- One character inside a string.  Unlike in the text of configuration values,
    a backspace and a form feed are written by their numbers. -/
def escapedChar (c : Char) : List Char :=
  if c == '\x08' || c == '\x0c' then ['\\', 'u'] ++ Value.controlDigits c.toNat
  else Value.escapedChar c

/-- A string between quotes. -/
def stringChars (s : String) : List Char :=
  '"' :: s.toList.flatMap escapedChar ++ ['"']

mutual

/-- The JSON text of a value, as characters.  JSON has no infinities, so they
    are written like no value. -/
def chars : Datum → List Char
  | .null => "null".toList
  | .bool true => "true".toList
  | .bool false => "false".toList
  | .int n => Number.intChars n
  | .float (.finite x) => x.render floatLayout
  | .float _ => "null".toList
  | .numeral text => text.toList
  | .string s => stringChars s
  | .array _ items => '[' :: itemsChars items ++ [']']
  | .object _ entries => '\x7b' :: fieldsChars entries ++ ['\x7d']

/-- The items of an array between commas. -/
def itemsChars : List Datum → List Char
  | [] => []
  | [item] => item.chars
  | item :: items => item.chars ++ ',' :: itemsChars items

/-- The entries of an object between commas. -/
def fieldsChars : List (String × Datum) → List Char
  | [] => []
  | [(key, value)] => stringChars key ++ ':' :: value.chars
  | (key, value) :: entries =>
    stringChars key ++ ':' :: value.chars ++ ',' :: fieldsChars entries

end

/-- A string as it is, and any other value as JSON. -/
def toText : Datum → String
  | .string s => s
  | v => String.ofList v.chars

/-! ## Reading -/

/-- Values from JSON.  A key that is written again takes its new value in its
    old place. -/
def jsonForm : Json.Form Datum where
  null := .null
  bool := .bool
  number? s := (Numeral.ofChars? s).map fun _ => ofNumeral (String.ofList s)
  string := .string
  array := newArray
  object entries := newObject (mergeFields [] entries)

/-- The value of a JSON text, however deeply it is nested. -/
def ofText? (text : String) : Option Datum :=
  Json.read? jsonForm text.length text

end LayeredConfig.Jq.Datum
