/-
  LayeredConfig.Jq.Grammar

  From tokens to filters.

  Binding from loose to tight: the pipe and the binding of a variable, the
  comma, `//`, `or`, `and`, the equalities, the other comparisons, sums,
  products, remainders, and steps into a value.  The pipe and `//` group to the
  right, everything else to the left.

  Each function reads the longest filter of its kind at the start of the tokens
  and returns the tokens behind it.  Every call goes with one unit of fuel; the
  calls between two tokens are bounded, so a multiple of the number of tokens is
  enough (`Filter.ofTokens`).
-/
import LayeredConfig.Jq.Filter
import LayeredConfig.Jq.Token

namespace LayeredConfig.Jq.Grammar

/-! ## Operators -/

/-- The words that cannot call a filter, since they begin terms of their own.
    All other words may be defined as filters. -/
def reserved : List String :=
  ["break", "def", "foreach", "if", "label", "reduce", "try"]

/-- The number of levels of operators between the pipe and the steps. -/
def tightest : Nat := 9

/-- The operator of a level that a token is, as the filter that it builds. -/
def operator? (commas : Bool) (level : Nat) (token : Token) :
    Option (Filter → Filter → Filter) :=
  match level, token with
  | 0, .symbol "," => if commas then some .comma else none
  | 1, .symbol "//" => some .alternative
  | 2, .word "or" => some (.logic false)
  | 3, .word "and" => some (.logic true)
  | 4, .symbol "==" => some (.comparison .eq)
  | 4, .symbol "!=" => some (.comparison .ne)
  | 5, .symbol "<" => some (.comparison .lt)
  | 5, .symbol "<=" => some (.comparison .le)
  | 5, .symbol ">" => some (.comparison .gt)
  | 5, .symbol ">=" => some (.comparison .ge)
  | 6, .symbol "+" => some (.arithmetic .add)
  | 6, .symbol "-" => some (.arithmetic .sub)
  | 7, .symbol "*" => some (.arithmetic .mul)
  | 7, .symbol "/" => some (.arithmetic .div)
  | 8, .symbol "%" => some (.arithmetic .rem)
  | _, _ => none

/-- Whether the operators of a level group to the right. -/
def groupsRight (level : Nat) : Bool := level == 1

/-! ## Small parts -/

/-- A text as a filter. -/
def constant (s : String) : Filter := .text s []

/-- Takes a given symbol off. -/
def expect? (symbol : String) : List Token → Option (List Token)
  | .symbol s :: ts => if s = symbol then some ts else none
  | _ => none

/-- Takes question marks off; `true` stands for one or more. -/
def takeLenient : List Token → Bool × List Token
  | .symbol "?" :: ts => (true, (takeLenient ts).2)
  | ts => (false, ts)

/-- The step to a name or a text, as far as it is followed by question marks. -/
def namedStep (key : Filter) (ts : List Token) : (Step Filter × Bool) × List Token :=
  let (lenient, ts) := takeLenient ts
  ((.index key, lenient), ts)

/-- Reads the parameters of a definition up to the closing parenthesis. -/
def parameters? : List Token → Option (List Parameter × List Token)
  | .word name :: .symbol ")" :: ts => some ([.filter name], ts)
  | .variable name :: .symbol ")" :: ts => some ([.variable name], ts)
  | .word name :: .symbol ";" :: ts =>
    (parameters? ts).map fun (ps, ts) => (.filter name :: ps, ts)
  | .variable name :: .symbol ";" :: ts =>
    (parameters? ts).map fun (ps, ts) => (.variable name :: ps, ts)
  | _ => none

/-! ## Filters -/

mutual

/-- A whole filter; `commas` tells whether it may go on behind a comma. -/
def pipe? (fuel : Nat) (commas : Bool) (ts : List Token) : Option (Filter × List Token) :=
  match fuel with
  | 0 => none
  | fuel + 1 => do
    let (f, ts) ← level? fuel commas 0 ts
    match ts with
    | .symbol "|" :: ts =>
      let (g, ts) ← pipe? fuel commas ts
      some (.pipe f g, ts)
    -- everything behind the pipe sees the variable
    | .word "as" :: .variable name :: .symbol "|" :: ts =>
      let (g, ts) ← pipe? fuel commas ts
      some (.bind f name g, ts)
    | ts => some (f, ts)

/-- A filter of operators from a level on. -/
def level? (fuel : Nat) (commas : Bool) (level : Nat) (ts : List Token) :
    Option (Filter × List Token) :=
  match fuel with
  | 0 => none
  | fuel + 1 =>
    if level = tightest then term? fuel ts
    else do
      let (f, ts) ← level? fuel commas (level + 1) ts
      operands? fuel commas level f ts

/-- The operators of a level and their operands behind the first operand. -/
def operands? (fuel : Nat) (commas : Bool) (level : Nat) (f : Filter) (ts : List Token) :
    Option (Filter × List Token) :=
  match fuel with
  | 0 => none
  | fuel + 1 =>
    match ts with
    | [] => some (f, [])
    | t :: rest =>
      match operator? commas level t with
      | none => some (f, t :: rest)
      | some op => do
        let (g, rest) ← level? fuel commas (if groupsRight level then level else level + 1) rest
        operands? fuel commas level (op f g) rest

/-- A term with steps into it.  Question marks right behind the term itself end
    it at its first error. -/
def term? (fuel : Nat) (ts : List Token) : Option (Filter × List Token) :=
  match fuel with
  | 0 => none
  | fuel + 1 => do
    let (f, ts) ← atom? fuel ts
    let (lenient, ts) := takeLenient ts
    let f := if lenient then .attempt f none else f
    let (steps, ts) ← steps? fuel ts
    some (if steps.isEmpty then f else .path f steps, ts)

/-- The steps behind a term. -/
def steps? (fuel : Nat) (ts : List Token) :
    Option (List (Step Filter × Bool) × List Token) :=
  match fuel with
  | 0 => none
  | fuel + 1 =>
    match ts with
    | .field name :: ts => do
      let (step, ts) := namedStep (constant name) ts
      let (steps, ts) ← steps? fuel ts
      some (step :: steps, ts)
    | .symbol "." :: .text part :: ts => do
      let (step, ts) := namedStep (constant part) ts
      let (steps, ts) ← steps? fuel ts
      some (step :: steps, ts)
    | .symbol "." :: .textStart part :: ts => do
      let (inserts, ts) ← inserts? fuel ts
      let (step, ts) := namedStep (.text part inserts) ts
      let (steps, ts) ← steps? fuel ts
      some (step :: steps, ts)
    | .symbol "[" :: ts => do
      let (step, ts) ← bracket? fuel ts
      let (lenient, ts) := takeLenient ts
      let (steps, ts) ← steps? fuel ts
      some ((step, lenient) :: steps, ts)
    | ts => some ([], ts)

/-- A step in brackets, behind the opening one. -/
def bracket? (fuel : Nat) (ts : List Token) : Option (Step Filter × List Token) :=
  match fuel with
  | 0 => none
  | fuel + 1 =>
    match ts with
    | .symbol "]" :: ts => some (.iterate, ts)
    | .symbol ":" :: ts => do
      let (high, ts) ← pipe? fuel true ts
      let ts ← expect? "]" ts
      some (.slice none (some high), ts)
    | ts => do
      let (key, ts) ← pipe? fuel true ts
      match ts with
      | .symbol "]" :: ts => some (.index key, ts)
      | .symbol ":" :: .symbol "]" :: ts => some (.slice (some key) none, ts)
      | .symbol ":" :: ts =>
        let (high, ts) ← pipe? fuel true ts
        let ts ← expect? "]" ts
        some (.slice (some key) (some high), ts)
      | _ => none

/-- A term without steps. -/
def atom? (fuel : Nat) (ts : List Token) : Option (Filter × List Token) :=
  match fuel with
  | 0 => none
  | fuel + 1 =>
    match ts with
    | .numeral digits :: ts => some (.numeral digits, ts)
    | .text part :: ts => some (constant part, ts)
    | .textStart part :: ts => do
      let (inserts, ts) ← inserts? fuel ts
      some (.text part inserts, ts)
    | .variable name :: ts => some (.variable name, ts)
    | .symbol ".." :: ts => some (.recurse, ts)
    -- a path that begins with a name is one into the input
    | .field name :: ts => some (.identity, .field name :: ts)
    | .symbol "." :: .text part :: ts => some (.identity, .symbol "." :: .text part :: ts)
    | .symbol "." :: .textStart part :: ts =>
      some (.identity, .symbol "." :: .textStart part :: ts)
    | .symbol "." :: ts => some (.identity, ts)
    | .symbol "-" :: ts => do
      let (f, ts) ← term? fuel ts
      some (.negate f, ts)
    | .symbol "(" :: ts => do
      let (f, ts) ← pipe? fuel true ts
      let ts ← expect? ")" ts
      some (f, ts)
    | .symbol "[" :: ts => array? fuel ts
    | .symbol "\x7b" :: ts => object? fuel ts
    | .word "if" :: ts => condition? fuel ts
    | .word "try" :: ts => attempt? fuel ts
    | .word "reduce" :: ts => reduce? fuel ts
    | .word "foreach" :: ts => foreach? fuel ts
    | .word "def" :: .word name :: .symbol "(" :: ts => do
      let (parameters, ts) ← parameters? ts
      define? fuel name parameters ts
    | .word "def" :: .word name :: ts => define? fuel name [] ts
    | .word name :: ts => if reserved.contains name then none else call? fuel name ts
    | _ => none

/-- An array behind the opening bracket. -/
def array? (fuel : Nat) (ts : List Token) : Option (Filter × List Token) :=
  match fuel with
  | 0 => none
  | fuel + 1 =>
    match ts with
    | .symbol "]" :: ts => some (.emptyArray, ts)
    | ts => do
      let (f, ts) ← pipe? fuel true ts
      let ts ← expect? "]" ts
      some (.array f, ts)

/-- An object behind the opening brace. -/
def object? (fuel : Nat) (ts : List Token) : Option (Filter × List Token) :=
  match fuel with
  | 0 => none
  | fuel + 1 =>
    match ts with
    | .symbol "\x7d" :: ts => some (.object [], ts)
    | ts => do
      let (entries, ts) ← entries? fuel ts
      some (.object entries, ts)

/-- A term whose errors are handled, behind the word that begins it. -/
def attempt? (fuel : Nat) (ts : List Token) : Option (Filter × List Token) :=
  match fuel with
  | 0 => none
  | fuel + 1 => do
    let (f, ts) ← term? fuel ts
    match ts with
    | .word "catch" :: ts =>
      let (handler, ts) ← term? fuel ts
      some (.attempt f (some handler), ts)
    | ts => some (.attempt f none, ts)

/-- A reduction behind the word that begins it. -/
def reduce? (fuel : Nat) (ts : List Token) : Option (Filter × List Token) :=
  match fuel with
  | 0 => none
  | fuel + 1 => do
    let (source, ts) ← term? fuel ts
    match ts with
    | .word "as" :: .variable name :: .symbol "(" :: ts =>
      let (start, ts) ← pipe? fuel true ts
      let ts ← expect? ";" ts
      let (update, ts) ← pipe? fuel true ts
      let ts ← expect? ")" ts
      some (.reduce source name start update, ts)
    | _ => none

/-- A reduction with outputs on the way, behind the word that begins it. -/
def foreach? (fuel : Nat) (ts : List Token) : Option (Filter × List Token) :=
  match fuel with
  | 0 => none
  | fuel + 1 => do
    let (source, ts) ← term? fuel ts
    match ts with
    | .word "as" :: .variable name :: .symbol "(" :: ts =>
      let (start, ts) ← pipe? fuel true ts
      let ts ← expect? ";" ts
      let (update, ts) ← pipe? fuel true ts
      match ts with
      | .symbol ")" :: ts => some (.foreach source name start update none, ts)
      | .symbol ";" :: ts =>
        let (project, ts) ← pipe? fuel true ts
        let ts ← expect? ")" ts
        some (.foreach source name start update (some project), ts)
      | _ => none
    | _ => none

/-- A definition behind its parameters, and the filter that it is for. -/
def define? (fuel : Nat) (name : String) (parameters : List Parameter) (ts : List Token) :
    Option (Filter × List Token) :=
  match fuel with
  | 0 => none
  | fuel + 1 => do
    let ts ← expect? ":" ts
    let (body, ts) ← pipe? fuel true ts
    let ts ← expect? ";" ts
    -- even where a comma would begin something else, the scope takes all of it
    let (rest, ts) ← pipe? fuel true ts
    some (.define name parameters body rest, ts)

/-- A call behind its name. -/
def call? (fuel : Nat) (name : String) (ts : List Token) : Option (Filter × List Token) :=
  match fuel with
  | 0 => none
  | fuel + 1 =>
    match ts with
    | .symbol "(" :: ts => do
      let (arguments, ts) ← arguments? fuel ts
      some (.call name arguments, ts)
    | ts => some (.call name [], ts)

/-- The insertions of a text and the parts behind them, up to its end. -/
def inserts? (fuel : Nat) (ts : List Token) : Option (List (Filter × String) × List Token) :=
  match fuel with
  | 0 => none
  | fuel + 1 => do
    let (f, ts) ← pipe? fuel true ts
    match ts with
    | .textEnd part :: ts => some ([(f, part)], ts)
    | .textMiddle part :: ts =>
      let (inserts, ts) ← inserts? fuel ts
      some ((f, part) :: inserts, ts)
    | _ => none

/-- The arguments of a call up to the closing parenthesis. -/
def arguments? (fuel : Nat) (ts : List Token) : Option (List Filter × List Token) :=
  match fuel with
  | 0 => none
  | fuel + 1 => do
    let (f, ts) ← pipe? fuel true ts
    match ts with
    | .symbol ")" :: ts => some ([f], ts)
    | .symbol ";" :: ts =>
      let (arguments, ts) ← arguments? fuel ts
      some (f :: arguments, ts)
    | _ => none

/-- A condition behind the word that begins it.  A missing last branch is the
    input itself. -/
def condition? (fuel : Nat) (ts : List Token) : Option (Filter × List Token) :=
  match fuel with
  | 0 => none
  | fuel + 1 => do
    let (test, ts) ← pipe? fuel true ts
    match ts with
    | .word "then" :: ts =>
      let (whenTrue, ts) ← pipe? fuel true ts
      match ts with
      | .word "end" :: ts => some (.condition test whenTrue .identity, ts)
      | .word "else" :: ts =>
        let (whenFalse, ts) ← pipe? fuel true ts
        match ts with
        | .word "end" :: ts => some (.condition test whenTrue whenFalse, ts)
        | _ => none
      | .word "elif" :: ts =>
        let (whenFalse, ts) ← condition? fuel ts
        some (.condition test whenTrue whenFalse, ts)
      | _ => none
    | _ => none

/-- The entries of an object up to the closing brace; a comma may stand in front
    of that. -/
def entries? (fuel : Nat) (ts : List Token) : Option (List (Filter × Filter) × List Token) :=
  match fuel with
  | 0 => none
  | fuel + 1 => do
    let (entry, ts) ← entry? fuel ts
    match ts with
    | .symbol "\x7d" :: ts => some ([entry], ts)
    | .symbol "," :: .symbol "\x7d" :: ts => some ([entry], ts)
    | .symbol "," :: ts =>
      let (entries, ts) ← entries? fuel ts
      some (entry :: entries, ts)
    | _ => none

/-- One entry of an object.  A name or a variable may stand without a value:
    its value is then what the input or the variable holds.  The key of a
    variable without a value is its name, else it is what the variable holds. -/
def entry? (fuel : Nat) (ts : List Token) : Option ((Filter × Filter) × List Token) :=
  match fuel with
  | 0 => none
  | fuel + 1 =>
    match ts with
    | .word name :: ts => entryValue? fuel (constant name) ts
    | .text part :: ts => entryValue? fuel (constant part) ts
    | .textStart part :: ts => do
      let (inserts, ts) ← inserts? fuel ts
      entryValue? fuel (.text part inserts) ts
    | .variable name :: .symbol ":" :: ts =>
      entryValue? fuel (.variable name) (.symbol ":" :: ts)
    | .variable name :: ts => some ((constant name, .variable name), ts)
    | .symbol "(" :: ts => do
      let (key, ts) ← pipe? fuel true ts
      match ← expect? ")" ts with
      | .symbol ":" :: ts => entryValue? fuel key (.symbol ":" :: ts)
      | _ => none
    | _ => none

/-- An entry behind its key.  Without a value it is what the input holds at the
    key. -/
def entryValue? (fuel : Nat) (key : Filter) (ts : List Token) :
    Option ((Filter × Filter) × List Token) :=
  match fuel with
  | 0 => none
  | fuel + 1 =>
    match ts with
    | .symbol ":" :: ts => do
      -- a comma would begin the next entry
      let (f, ts) ← pipe? fuel false ts
      some ((key, f), ts)
    | ts => some ((key, .path .identity [(.index key, false)]), ts)

end

end LayeredConfig.Jq.Grammar

namespace LayeredConfig.Jq

/-- The filter that a list of tokens denotes. -/
def Filter.ofTokens (ts : List Token) : Option Filter :=
  match Grammar.pipe? (32 * (ts.length + 1)) true ts with
  | some (f, []) => some f
  | _ => none

end LayeredConfig.Jq
