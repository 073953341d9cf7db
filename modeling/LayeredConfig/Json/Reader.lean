/-
  LayeredConfig.Json.Reader

  Reading JSON text.

  A reader takes something off the start of a text and returns it with the text
  behind it.  What the parts of a text become is left to a `Form`: the values
  of configurations and those of expressions are both read from JSON, and keep
  their numbers in different ways.
-/
import LayeredConfig.Text.CodePoint

namespace LayeredConfig.Json

/-- Reads something at the start of a text. -/
abbrev Reader (α : Type) := List Char → Option (α × List Char)

/-- What the parts of a text become. -/
structure Form (α : Type) where
  null : α
  bool : Bool → α
  /-- The value of a run of the characters of numbers, if it is a numeral. -/
  number? : List Char → Option α
  string : String → α
  array : List α → α
  /-- The value of entries in the order in which they are written. -/
  object : List (String × α) → α

/-- White space between the parts of a text. -/
def isSpace (c : Char) : Bool :=
  c == ' ' || c == '\t' || c == '\n' || c == '\r'

/-! ## Strings -/

/-- What a sign stands for after a backslash. -/
def unescape? (c : Char) : Option Char :=
  if c == 'b' then some '\x08'
  else if c == 'f' then some '\x0c'
  else if c == 'n' then some '\n'
  else if c == 'r' then some '\r'
  else if c == 't' then some '\t'
  else if c == '"' || c == '\\' || c == '/' then some c
  else none

/-- Reads a string after its opening quote. -/
def readStringBody : Reader (List Char)
  | [] => none
  | '"' :: s => some ([], s)
  | '\\' :: 'u' :: a :: b :: c :: d :: s => do
    let unit ← Text.hexQuad? a b c d
    match Text.ofCodePoint? unit, s with
    | some ch, s =>
      let (chars, s) ← readStringBody s
      return (ch :: chars, s)
    -- the first unit of a pair needs the second one right behind it
    | none, '\\' :: 'u' :: e :: f :: g :: h :: s =>
      let low ← Text.hexQuad? e f g h
      let ch ← Text.ofPair? unit low
      let (chars, s) ← readStringBody s
      return (ch :: chars, s)
    | none, _ => none
  | '\\' :: c :: s => do
    let ch ← unescape? c
    let (chars, s) ← readStringBody s
    return (ch :: chars, s)
  | c :: s => do
    if c.toNat < 0x20 then none
    else
      let (chars, s) ← readStringBody s
      return (c :: chars, s)

/-! ## Values -/

/-- The characters of numbers. -/
def isNumberChar (c : Char) : Bool :=
  c.isDigit || c == '+' || c == '-' || c == '.' || c == 'e' || c == 'E'

section Values

variable {α : Type}

/-- Reads the items of an array and its closing bracket.  Every item takes at
    least one character, so `fuel` may be the length of the text. -/
def readItems (read : Reader α) : (fuel : Nat) → Reader (List α)
  | 0, _ => none
  | fuel + 1, s => do
    let (v, s) ← read s
    match s.dropWhile isSpace with
    | ',' :: s =>
      let (vs, s) ← readItems read fuel s
      return (v :: vs, s)
    | ']' :: s => return ([v], s)
    | _ => none

/-- Reads the entries of an object and its closing brace. -/
def readEntries (read : Reader α) : (fuel : Nat) → Reader (List (String × α))
  | 0, _ => none
  | fuel + 1, s => do
    match s.dropWhile isSpace with
    | '"' :: s =>
      let (key, s) ← readStringBody s
      match s.dropWhile isSpace with
      | ':' :: s =>
        let (v, s) ← read s
        let entry := (String.ofList key, v)
        match s.dropWhile isSpace with
        | ',' :: s =>
          let (entries, s) ← readEntries read fuel s
          return (entry :: entries, s)
        | '\x7d' :: s => return ([entry], s)
        | _ => none
      | _ => none
    | _ => none

/-- Reads a value inside of which arrays and objects nest at most `depth` deep.
    `fuel` is at least the length of the text. -/
def readValue (form : Form α) (fuel : Nat) : (depth : Nat) → Reader α
  | depth, s =>
    match s.dropWhile isSpace, depth with
    | 'n' :: 'u' :: 'l' :: 'l' :: s, _ => some (form.null, s)
    | 't' :: 'r' :: 'u' :: 'e' :: s, _ => some (form.bool true, s)
    | 'f' :: 'a' :: 'l' :: 's' :: 'e' :: s, _ => some (form.bool false, s)
    | '"' :: s, _ => (readStringBody s).map fun (t, s) => (form.string (String.ofList t), s)
    | '[' :: s, depth + 1 =>
      match s.dropWhile isSpace with
      | ']' :: s => some (form.array [], s)
      | s => (readItems (readValue form fuel depth) fuel s).map fun (vs, s) => (form.array vs, s)
    | '\x7b' :: s, depth + 1 =>
      match s.dropWhile isSpace with
      | '\x7d' :: s => some (form.object [], s)
      | s =>
        (readEntries (readValue form fuel depth) fuel s).map fun (vs, s) => (form.object vs, s)
    | s, _ =>
      (form.number? (s.takeWhile isNumberChar)).map fun v => (v, s.dropWhile isNumberChar)

/-- The value of a text that is one value with nothing but white space around
    it. -/
def read? (form : Form α) (depth : Nat) (text : String) : Option α :=
  match readValue form text.length depth text.toList with
  | some (v, rest) => if rest.all isSpace then some v else none
  | none => none

end Values

end LayeredConfig.Json
