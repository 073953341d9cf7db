/-
  LayeredConfig.Value.Reader

  Reading configuration values from JSON text.

  Numerals without point and exponent are integers as long as 64 bits can hold
  them, with or without a sign; all others become the nearest floating-point
  number, and one past the greatest of these cannot be read.  Arrays and tables
  nest less than 128 deep.
-/
import LayeredConfig.Json.Reader
import LayeredConfig.Number.Numeral
import LayeredConfig.Value

namespace LayeredConfig.Value

/-- The value of a numeral. -/
def number? (s : List Char) : Option Value := do
  let n ← Numeral.ofChars? s
  match n.integer? with
  | some i => return .int i
  | none =>
    match n.nearest with
    | .finite x => return .float x
    | _ => none

/-- Configuration values from JSON.  A key that is written again takes its new
    value in its old place. -/
def jsonForm : Json.Form Value where
  null := .null
  bool := .bool
  number? := number?
  string := .string
  array := .array
  object entries :=
    .table (entries.foldl (fun doc (key, value) => Document.insert key value doc) [])

/-- The value of a JSON text. -/
def ofText? (text : String) : Option Value :=
  Json.read? jsonForm 127 text

end LayeredConfig.Value
