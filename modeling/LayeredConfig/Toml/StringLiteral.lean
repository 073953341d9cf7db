/-
  LayeredConfig.Toml.StringLiteral

  Reading strings.

  The four forms of strings are one automaton in four settings: which quote
  delimits, whether a backslash begins an escape, and whether the string may go
  over lines.  In a string over lines up to two quotes are content unless they
  stand right before the closing three, where they are content too; a line end
  is a line feed however it was written; and a backslash at the end of a line
  takes all white space and line ends after it away.
-/
import LayeredConfig.Text.CodePoint
import LayeredConfig.Toml.Scan

namespace LayeredConfig.Toml

/-- One of the four forms of strings. -/
structure StringForm where
  quote : Char
  escapes : Bool
  multiline : Bool

namespace StringForm

/-! ## Escapes -/

/-- What a letter or sign stands for after a backslash. -/
def escapedChar? (c : Char) : Option Char :=
  if c == 'b' then some '\x08'
  else if c == 'f' then some '\x0c'
  else if c == 'n' then some '\n'
  else if c == 'r' then some '\r'
  else if c == 't' then some '\t'
  else if c == '\\' then some '\\'
  else if c == '"' then some '"'
  else none

/-! ## The automaton -/

/-- Where the automaton stands in a string. -/
inductive State where
  /-- Among plain content. -/
  | content
  /-- After a carriage return in content. -/
  | afterReturn
  /-- After one or two quotes in a string over lines. -/
  | afterQuotes (two : Bool)
  /-- After a backslash. -/
  | escape
  /-- Inside an escape by code point: the digits that are still to come, less
      one, and the value of the digits so far. -/
  | codePoint (left value : Nat)
  /-- After a backslash and white space, in a line that has to end. -/
  | foldStart
  /-- After the carriage return that ends such a line. -/
  | foldReturn
  /-- In the white space and line ends that a backslash takes away. -/
  | fold
  /-- After a carriage return among them. -/
  | foldedReturn
  /-- After the closing quotes; `extra` more quotes belong to the content. -/
  | closed (extra : Nat)

/-- What a character does to the automaton. -/
inductive Step where
  /-- The character is read, `output` is content, and the automaton goes on. -/
  | next (output : List Char) (state : State)
  /-- The string ended before this character, after `output`. -/
  | stop (output : List Char)
  /-- The character cannot stand here. -/
  | reject

/-- The step among plain content; `before` is content that was held back. -/
def contentStep (form : StringForm) (before : List Char) (c : Char) : Step :=
  if c == form.quote then .next before (if form.multiline then .afterQuotes false else .closed 2)
  else if form.escapes && c == '\\' then .next before .escape
  else if isPlain c then .next (before ++ [c]) .content
  else if form.multiline && c == '\n' then .next (before ++ [c]) .content
  else if form.multiline && c == '\r' then .next before .afterReturn
  else .reject

/-- The step of the automaton on a character. -/
def step (form : StringForm) (c : Char) : State → Step
  | .content => form.contentStep [] c
  | .afterReturn => if c == '\n' then .next ['\n'] .content else .reject
  -- one quote was held back: it is content unless two more follow
  | .afterQuotes false =>
    if c == form.quote then .next [] (.afterQuotes true)
    else form.contentStep [form.quote] c
  | .afterQuotes true =>
    if c == form.quote then .next [] (.closed 0)
    else form.contentStep [form.quote, form.quote] c
  | .escape =>
    match escapedChar? c with
    | some d => .next [d] .content
    | none =>
      if c == 'u' then .next [] (.codePoint 3 0)
      else if c == 'U' then .next [] (.codePoint 7 0)
      -- a backslash before the end of a line, which white space may hide
      else if form.multiline && isSpace c then .next [] .foldStart
      else if form.multiline && c == '\n' then .next [] .fold
      else if form.multiline && c == '\r' then .next [] .foldReturn
      else .reject
  | .codePoint left value =>
    match Text.hexValue? c, left with
    | none, _ => .reject
    | some d, left + 1 => .next [] (.codePoint left (16 * value + d))
    | some d, 0 =>
      match Text.ofCodePoint? (16 * value + d) with
      | some c => .next [c] .content
      -- surrogates are no characters
      | none => .reject
  | .foldStart =>
    if isSpace c then .next [] .foldStart
    else if c == '\n' then .next [] .fold
    else if c == '\r' then .next [] .foldReturn
    else .reject
  | .foldReturn => if c == '\n' then .next [] .fold else .reject
  | .fold =>
    if isSpace c || c == '\n' then .next [] .fold
    else if c == '\r' then .next [] .foldedReturn
    else form.contentStep [] c
  | .foldedReturn => if c == '\n' then .next [] .fold else .reject
  | .closed extra =>
    -- up to two more quotes are content, so that five quotes can end a string
    if form.multiline && c == form.quote && extra < 2 then .next [] (.closed (extra + 1))
    else .stop (if form.multiline then List.replicate extra form.quote else [])

/-- Runs the automaton up to the end of the string. -/
def run (form : StringForm) : State → Reader (List Char)
  | .closed extra, [] =>
    some (if form.multiline then List.replicate extra form.quote else [], [])
  | _, [] => none
  | state, c :: s =>
    match form.step c state with
    | .next output state =>
      (form.run state s).map fun (content, rest) => (output ++ content, rest)
    | .stop output => some (output, c :: s)
    | .reject => none

end StringForm

/-! ## Strings -/

/-- The form of strings that only escapes and double quotes interrupt. -/
def StringForm.basic (multiline : Bool) : StringForm := ⟨'"', true, multiline⟩

/-- The form of strings that only single quotes interrupt. -/
def StringForm.literal (multiline : Bool) : StringForm := ⟨'\'', false, multiline⟩

/-- A line end right after the opening of a string over lines does not count. -/
def skipNewline (s : List Char) : List Char :=
  (newline? s).getD s

/-- Reads a string that does not go over lines. -/
def readLineString : Reader String
  | '"' :: s => ((StringForm.basic false).run .content s).map fun (t, s) => (String.ofList t, s)
  | '\'' :: s => ((StringForm.literal false).run .content s).map fun (t, s) => (String.ofList t, s)
  | _ => none

/-- Reads a string of any form. -/
def readString : Reader String
  | '"' :: '"' :: '"' :: s =>
    ((StringForm.basic true).run .content (skipNewline s)).map fun (t, s) => (String.ofList t, s)
  | '\'' :: '\'' :: '\'' :: s =>
    ((StringForm.literal true).run .content (skipNewline s)).map fun (t, s) => (String.ofList t, s)
  | s => readLineString s

end LayeredConfig.Toml
