/-
  LayeredConfig.Jq.Token

  The words of programs.

  A text with inserted filters is several tokens: its first part, the tokens of
  the first filter, the next part, and so on.  So the scanner keeps a stack with
  one entry for each insertion that it is inside of: the number of parentheses
  that are open in it.
-/
import LayeredConfig.Text.Blank
import LayeredConfig.Text.CodePoint

namespace LayeredConfig.Jq

/-- A word of a program. -/
inductive Token where
  /-- A name of a filter, or a word of the language. -/
  | word (name : String)
  /-- A name behind a dollar sign. -/
  | variable (name : String)
  /-- A name right behind a point. -/
  | field (name : String)
  | numeral (text : String)
  /-- An operator or a bracket. -/
  | symbol (text : String)
  /-- A text without insertions. -/
  | text (part : String)
  /-- The part of a text before its first insertion. -/
  | textStart (part : String)
  /-- The part of a text between two insertions. -/
  | textMiddle (part : String)
  /-- The part of a text behind its last insertion. -/
  | textEnd (part : String)
  deriving DecidableEq

namespace Token

/-! ## Characters -/

/-- Whether a name can begin with `c`. -/
def startsName (c : Char) : Bool := c.isAlpha || c == '_'

/-- Whether a name can go on with `c`. -/
def continuesName (c : Char) : Bool := c.isAlphanum || c == '_'

/-- What stands behind a comment, which goes to the end of the line.  It goes on
    in the next line if the line ends in an odd number of backslashes (`odd`
    tells whether as many were just read). -/
def skipComment (odd : Bool) : List Char → List Char
  | [] => []
  | '\n' :: s | '\r' :: '\n' :: s => if odd then skipComment false s else s
  | c :: s => skipComment (c == '\\' && !odd) s

theorem length_skipComment_le (odd : Bool) (s : List Char) :
    (skipComment odd s).length ≤ s.length := by
  fun_induction skipComment odd s <;> simp_all <;> omega

/-- Takes off white space and comments, which begin with a number sign. -/
def skipSpace (s : List Char) : List Char :=
  match s with
  | [] => []
  | c :: rest =>
    if Text.isBlank c then skipSpace rest
    else if c == '#' then
      have := length_skipComment_le false rest
      skipSpace (skipComment false rest)
    else c :: rest
termination_by s.length

/-- Takes a name off. -/
def takeName (s : List Char) : List Char × List Char :=
  (s.takeWhile continuesName, s.dropWhile continuesName)

/-- The character that a letter behind a backslash stands for. -/
def escape? (c : Char) : Option Char :=
  if c == '"' || c == '\\' || c == '/' then some c
  else if c == 'b' then some '\x08'
  else if c == 'f' then some '\x0c'
  else if c == 'n' then some '\n'
  else if c == 'r' then some '\r'
  else if c == 't' then some '\t'
  else none

/-- Reads a part of a text up to its end or to an insertion (`true`).  `before`
    holds what was read in reverse.  A character written by its number needs four
    digits, so those past U+FFFF cannot be written in this way. -/
def scanText (before : List Char) : List Char → Option (String × Bool × List Char)
  | [] => none
  | '\\' :: 'u' :: a :: b :: c :: d :: s => do
    let n ← Text.hexQuad? a b c d
    match Text.ofCodePoint? n with
    | some c => scanText (c :: before) s
    | none => none
  | '\\' :: c :: s =>
    if c == '(' then some (String.ofList before.reverse, true, s)
    else match escape? c with
      | some e => scanText (e :: before) s
      | none => none
  | c :: s =>
    if c == '\\' then none
    else if c == '"' then some (String.ofList before.reverse, false, s)
    else scanText (c :: before) s

/-- Takes digits off, of which there has to be one. -/
def takeDigits? (s : List Char) : Option (List Char × List Char) :=
  let digits := s.takeWhile Char.isDigit
  if digits.isEmpty then none else some (digits, s.dropWhile Char.isDigit)

/-- Takes a point with digits off, if there is a point. -/
def takeFraction? : List Char → Option (List Char × List Char)
  | '.' :: s => (takeDigits? s).map fun (digits, s) => ('.' :: digits, s)
  | s => some ([], s)

/-- Takes an exponent off, if there is the letter that begins one: a sign, which
    may be left out, and digits. -/
def takeExponent? : List Char → Option (List Char × List Char)
  | [] => some ([], [])
  | letter :: s =>
    if letter == 'e' || letter == 'E' then
      let sign := s.takeWhile fun c => c == '+' || c == '-'
      if sign.length ≤ 1 then
        (takeDigits? (s.drop sign.length)).map fun (digits, s) => (letter :: (sign ++ digits), s)
      else none
    else some ([], letter :: s)

/-- Reads a numeral as it is written: digits, a point with digits, an exponent. -/
def scanNumeral (s : List Char) : Option (String × List Char) := do
  let (whole, s) ← takeDigits? s
  let (fraction, s) ← takeFraction? s
  let (exponent, s) ← takeExponent? s
  return (String.ofList (whole ++ fraction ++ exponent), s)

/-- The characters that operators can begin with. -/
def startsOperator (c : Char) : Bool :=
  c == '|' || c == '=' || c == '!' || c == '<' || c == '>' || c == '+' || c == '-' || c == '*'
    || c == '/' || c == '%'

/-- The characters that operators can go on with.  All that stand next to one
    another are one operator, whether there is such a one or not, but a minus
    begins an operator of its own. -/
def continuesOperator (c : Char) : Bool :=
  startsOperator c && c != '-'

/-- Takes the rest of an operator off. -/
def takeOperator (s : List Char) : List Char × List Char :=
  (s.takeWhile continuesOperator, s.dropWhile continuesOperator)

/-- The signs that are always alone, apart from the brackets that are counted. -/
def isSingleSign (c : Char) : Bool :=
  c == '.' || c == ',' || c == ':' || c == ';' || c == '?' || c == '[' || c == ']'
    || c == '\x7b' || c == '\x7d'

/-! ## The scanner -/

/-- The insertions that a place is inside of, innermost first: how many
    parentheses are open in each. -/
abbrev Insertions := List Nat

/-- Reads a variable, the step to a name, or a sign that is alone. -/
def scanSign (around : Insertions) (c : Char) (s : List Char) :
    Option (Token × Insertions × List Char) :=
  match c, s with
  | '$', d :: _ =>
    if startsName d then
      let (name, s) := takeName s
      some (.variable (String.ofList name), around, s)
    else none
  | '.', '.' :: s => some (.symbol "..", around, s)
  | '.', d :: _ =>
    if startsName d then
      let (name, s) := takeName s
      some (.field (String.ofList name), around, s)
    else some (.symbol ".", around, s)
  | c, s => if isSingleSign c then some (.symbol (String.singleton c), around, s) else none

/-- Reads the token at the start of a text that begins with no white space. -/
def scan (around : Insertions) : List Char → Option (Token × Insertions × List Char)
  | [] => none
  | c :: s =>
    if c == '"' then
      (scanText [] s).map fun (part, inserted, s) =>
        if inserted then (.textStart part, 0 :: around, s) else (.text part, around, s)
    else if c == '(' then
      match around with
      | [] => some (.symbol "(", [], s)
      | n :: outer => some (.symbol "(", (n + 1) :: outer, s)
    else if c == ')' then
      match around with
      | [] => some (.symbol ")", [], s)
      -- this parenthesis ends the insertion, and the text goes on
      | 0 :: outer =>
        (scanText [] s).map fun (part, inserted, s) =>
          if inserted then (.textMiddle part, 0 :: outer, s) else (.textEnd part, outer, s)
      | (n + 1) :: outer => some (.symbol ")", n :: outer, s)
    else if c.isDigit then
      (scanNumeral (c :: s)).map fun (digits, s) => (.numeral digits, around, s)
    else if startsName c then
      let (name, s) := takeName (c :: s)
      some (.word (String.ofList name), around, s)
    else if startsOperator c then
      let (sign, s) := takeOperator s
      some (.symbol (String.ofList (c :: sign)), around, s)
    else scanSign around c s

/-- Reads all tokens of a text that is inside the given insertions. -/
def scanAll (around : Insertions) (s : List Char) : Option (List Token) :=
  match skipSpace s with
  | [] => if around.isEmpty then some [] else none
  | c :: rest =>
    match scan around (c :: rest) with
    | none => none
    | some (token, inner, after) =>
      if after.length < s.length then (scanAll inner after).map (token :: ·) else none
termination_by s.length

/-- The tokens of a program, or nothing if some part of it is no token. -/
def ofSource (source : List Char) : Option (List Token) :=
  scanAll [] source

end Token

end LayeredConfig.Jq
