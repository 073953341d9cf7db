/-
  LayeredConfig.Toml.Literal

  Writing values as TOML.

  Strings are written in the first of their forms that needs no escapes, and
  with escapes only when there is none.  Nothing stands for the absence of a
  value or for an integer of more than 64 bits, so what contains one of these
  has no literal.
-/
import LayeredConfig.Toml.Scan
import LayeredConfig.Value.Text

namespace LayeredConfig.Toml

/-! ## What a text contains -/

/-- Whether a character needs an escape wherever it stands: a control character
    other than tab and line feed. -/
def isControl (c : Char) : Bool :=
  c != '\t' && c != '\n' && (c.toNat < 0x20 || c.toNat == 0x7F)

/-- Whether `word` occurs in a text. -/
def occursIn (word : List Char) : List Char → Bool
  | [] => word.isEmpty
  | c :: s => word.isPrefixOf (c :: s) || occursIn word s

/-! ## Escapes -/

/-- Four digits to base sixteen, with capital letters. -/
def upperHexDigits (n : Nat) : List Char :=
  let digits := (Nat.toDigits 16 n).map Char.toUpper
  List.replicate (4 - digits.length) '0' ++ digits

/-- One character that is not a quote, between double quotes. -/
def escapedChar (multiline : Bool) (c : Char) : List Char :=
  if c == '\x08' then ['\\', 'b']
  else if c == '\t' then ['\\', 't']
  else if c == '\n' then if multiline then [c] else ['\\', 'n']
  else if c == '\x0c' then ['\\', 'f']
  else if c == '\r' then ['\\', 'r']
  else if c == '\\' then ['\\', '\\']
  else if isControl c then '\\' :: 'u' :: upperHexDigits c.toNat
  else [c]

/-- A text between double quotes.  Of quotes in a row `allowed` stand as they
    are before one is escaped; `run` of them came just before. -/
def escapedChars (multiline : Bool) (allowed : Nat) : (run : Nat) → List Char → List Char
  | _, [] => []
  | run, c :: s =>
    if c == '"' then
      -- one quote more would end the string
      if allowed ≤ run then '\\' :: '"' :: escapedChars multiline allowed 0 s
      else '"' :: escapedChars multiline allowed (run + 1) s
    else escapedChar multiline c ++ escapedChars multiline allowed 0 s

/-! ## Strings -/

/-- A string in double quotes on one line. -/
def lineLiteral (s : List Char) : List Char :=
  '"' :: escapedChars false 0 0 s ++ ['"']

/-- A string in single quotes on one line. -/
def rawLineLiteral (s : List Char) : List Char :=
  '\'' :: s ++ ['\'']

/-- A text over lines begins on a line of its own. -/
def openingNewline (s : List Char) : List Char :=
  if s.contains '\n' then ['\n'] else []

/-- A string between three double quotes. -/
def blockLiteral (s : List Char) : List Char :=
  "\"\"\"".toList ++ openingNewline s ++ escapedChars true 2 0 s ++ "\"\"\"".toList

/-- A string between three single quotes. -/
def rawBlockLiteral (s : List Char) : List Char :=
  "\'\'\'".toList ++ openingNewline s ++ s ++ "\'\'\'".toList

/-- A string in the first form that suits it. -/
def stringLiteral (text : String) : List Char :=
  let s := text.toList
  let control := s.any isControl
  let newline := s.contains '\n'
  let backslash := s.contains '\\'
  if !control && !newline && !backslash && !s.contains '"' then lineLiteral s
  else if !control && !newline && !s.contains '\'' then rawLineLiteral s
  else if !control && !backslash && !occursIn "\"\"\"".toList s then blockLiteral s
  else if !control && !occursIn "\'\'\'".toList s then rawBlockLiteral s
  else if newline then blockLiteral s
  else lineLiteral s

/-- A key: bare if it can be, and else in the first form on one line that suits
    it. -/
def keyLiteral (key : String) : List Char :=
  let s := key.toList
  let control := s.any isControl || s.contains '\n'
  if !s.isEmpty && s.all isBareKeyChar then s
  else if !control && !s.contains '\\' && !s.contains '"' then lineLiteral s
  else if !control && !s.contains '\'' then rawLineLiteral s
  else lineLiteral s

/-! ## Values -/

/-- Numbers are written with a point and never with an exponent. -/
def floatLayout : Double.Layout where
  plainFrom := none
  plainTo := none
  plusSign := false
  tie := .up

/-- Parts with a comma and a space between them. -/
def commaSeparated (parts : List (List Char)) : List Char :=
  [',', ' '].intercalate parts

mutual

/-- The literal of a value, if it has one.  The entries of a table keep their order,
    whether they are tables themselves or not. -/
def literal : Value → Option (List Char)
  | .null => none
  | .bool true => some "true".toList
  | .bool false => some "false".toList
  | .number (.int n) => if isInt64 n then some (Number.intChars n) else none
  | .number (.float x) => some (x.render floatLayout)
  | .string s => some (stringLiteral s)
  | .array items => do
    let parts ← itemLiterals items
    return '[' :: commaSeparated parts ++ [']']
  | .table entries => do
    let parts ← entryLiterals entries
    -- an empty table has no blanks inside
    if parts.isEmpty then return ['\x7b', '\x7d']
    else return ['\x7b', ' '] ++ commaSeparated parts ++ [' ', '\x7d']

/-- The literals of the items of an array. -/
def itemLiterals : List Value → Option (List (List Char))
  | [] => some []
  | item :: items => do
    let part ← literal item
    let parts ← itemLiterals items
    return part :: parts

/-- The literals of the entries of a table. -/
def entryLiterals : List (String × Value) → Option (List (List Char))
  | [] => some []
  | (key, v) :: entries => do
    let part ← literal v
    let parts ← entryLiterals entries
    return (keyLiteral key ++ [' ', '=', ' '] ++ part) :: parts

end

/-- The literal of a default in a template.  No value is written as the string
    that stands for it, and a value without a literal as its quoted JSON
    text. -/
def defaultLiteral : Value → String
  | .null => "\"None\""
  | v =>
    match literal v with
    | some chars => String.ofList chars
    | none => Text.quoted v.text

end LayeredConfig.Toml
