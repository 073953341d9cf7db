/-
  LayeredConfig.Toml.Scan

  The smallest parts of TOML text: blanks, line ends, comments and the gaps
  between the items of an array.

  A reader takes what it reads off the start of the text and returns the rest;
  it has no result on text that does not begin with what it reads.
-/
import LayeredConfig.Text.Blank

namespace LayeredConfig.Toml

/-- Reads something at the start of a text. -/
abbrev Reader (α : Type) := List Char → Option (α × List Char)

/-! ## Character classes -/

/-- White space inside a line. -/
def isSpace (c : Char) : Bool := c == ' ' || c == '\t'

/-- The characters that may stand in comments and strings as they are: all but
    the control characters of ASCII, of which the tab is allowed. -/
def isPlain (c : Char) : Bool :=
  c == '\t' || (0x20 ≤ c.toNat && c.toNat != 0x7F)

/-- The characters of keys without quotes. -/
def isBareKeyChar (c : Char) : Bool :=
  c.isAlphanum || c == '_' || c == '-'

/-! ## Lines -/

/-- The text without the white space at its start. -/
def skipSpaces (s : List Char) : List Char :=
  s.dropWhile isSpace

/-- What follows a line end: a line feed, or a carriage return and a line
    feed. -/
def newline? : List Char → Option (List Char)
  | '\n' :: s => some s
  | '\r' :: '\n' :: s => some s
  | _ => none

/-- The text without the comment at its start, if there is one. -/
def skipComment : List Char → List Char
  | '#' :: s => s.dropWhile isPlain
  | s => s

/-- What follows the end of a line, before which only white space and a comment
    may stand.  The end of the text ends a line too. -/
def endLine? (s : List Char) : Option (List Char) :=
  match skipComment (skipSpaces s) with
  | [] => some []
  | rest => newline? rest

/-! ## Gaps in arrays -/

/-- The text without the white space, line ends and comments at its start.
    `inComment` holds inside a comment, which a line end has to close. -/
def skipGap : (inComment : Bool) → List Char → Option (List Char)
  | inComment, [] => if inComment then none else some []
  | _, '\n' :: s => skipGap false s
  | _, '\r' :: '\n' :: s => skipGap false s
  | true, c :: s => if isPlain c then skipGap true s else none
  | false, c :: s =>
    if c = '#' then skipGap true s
    else if isSpace c then skipGap false s
    else some (c :: s)

end LayeredConfig.Toml
