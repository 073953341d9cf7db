/-
  LayeredConfig.Jq.Datum.Result

  Between the values of configurations and those of programs.

  A result becomes a configuration value by way of its text: its numbers are
  read from their numerals through one machine word, and what has no text in
  JSON becomes no value.
-/
import LayeredConfig.Jq.Datum.Text
import LayeredConfig.Number.Significand

namespace LayeredConfig.Jq.Datum

/-! ## From configuration values -/

mutual

/-- A configuration value inside a program. -/
def ofValue : Value → Datum
  | .null => .null
  | .bool b => .bool b
  | .number (.int n) => if isInt64 n then .int n else .numeral (String.ofList (Number.intChars n))
  | .number (.float x) => .numeral (String.ofList (x.render Value.floatLayout))
  | .string s => .string s
  | .array items => newArray (ofItems items)
  | .table entries => newObject (ofEntries entries)

/-- The items of an array. -/
def ofItems : List Value → List Datum
  | [] => []
  | item :: items => ofValue item :: ofItems items

/-- The entries of a table. -/
def ofEntries : List (String × Value) → List (String × Datum)
  | [] => []
  | (key, value) :: entries => (key, ofValue value) :: ofEntries entries

end

/-! ## To configuration values -/

/-- The nesting of arrays and objects that a result may have. -/
def depthLimit : Nat := 127

/-- The number that a numeral of a result stands for: an integer of 64 bits with
    or without sign, or else a floating-point number, which has to be finite. -/
def numberOfNumeral? (s : List Char) : Option Number := do
  let n ← Numeral.ofChars? s
  match n.integer? with
  | some i => return .int i
  | none =>
    match n.approximate with
    | .finite x => return .float x
    | _ => none

mutual

/-- The configuration value of a result; an infinity, or what is no number,
    becomes no value.  Nothing, if the result is nested too deeply or holds what
    is no numeral of JSON or one beyond every finite number. -/
def toValue? (depth : Nat) : Datum → Option Value
  | .null => some .null
  | .bool b => some (.bool b)
  | .int n => some (.int n)
  | .float (.finite x) => (numberOfNumeral? (x.render floatLayout)).map .number
  | .float _ => some .null
  | .numeral text => (numberOfNumeral? text.toList).map .number
  | .string s => some (.string s)
  | .array _ items => if depth < depthLimit then (toItems? (depth + 1) items).map .array else none
  | .object _ entries =>
    if depth < depthLimit then (toEntries? (depth + 1) entries).map .table else none

/-- The items of an array that lies at `depth`. -/
def toItems? (depth : Nat) : List Datum → Option (List Value)
  | [] => some []
  | item :: items => do
    let v ← toValue? depth item
    let vs ← toItems? depth items
    some (v :: vs)

/-- The entries of an object that lies at `depth`. -/
def toEntries? (depth : Nat) : List (String × Datum) → Option (List (String × Value))
  | [] => some []
  | (key, value) :: entries => do
    let v ← toValue? depth value
    let vs ← toEntries? depth entries
    some ((key, v) :: vs)

end

end LayeredConfig.Jq.Datum
