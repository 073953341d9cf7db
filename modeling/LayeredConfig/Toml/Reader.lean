/-
  LayeredConfig.Toml.Reader

  Reading TOML documents.

  A document is a sequence of lines that are blank, hold a key and its value,
  or open a table; only arrays and long strings go over lines.  Arrays and
  inline tables nest fewer than eighty deep, and a dotted key has fewer than
  eighty parts.
-/
import LayeredConfig.Toml.Scalar
import LayeredConfig.Toml.StringLiteral
import LayeredConfig.Toml.Tree

namespace LayeredConfig.Toml

/-- How deeply arrays and inline tables nest at most, and how many parts a
    dotted key has at most. -/
def nestingLimit : Nat := 79

/-! ## Keys -/

/-- Reads one part of a dotted key. -/
def readKeyPart : Reader String := fun s =>
  match s with
  | '"' :: _ => readLineString s
  | '\'' :: _ => readLineString s
  | s =>
    -- a bare key; digits and dashes may begin it
    let name := s.takeWhile isBareKeyChar
    if name.isEmpty then none else some (String.ofList name, s.dropWhile isBareKeyChar)

/-- Reads a dotted key of at most `limit` parts, as the parts before the last
    and the last. -/
def readKeyUpTo : (limit : Nat) → Reader (List String × String)
  | 0, _ => none
  | limit + 1, s => do
    let (part, s) ← readKeyPart (skipSpaces s)
    match skipSpaces s with
    | '.' :: s =>
      let ((path, key), s) ← readKeyUpTo limit s
      return ((part :: path, key), s)
    | s => return (([], part), s)

/-- Reads a dotted key. -/
def readKey : Reader (List String × String) :=
  readKeyUpTo nestingLimit

/-- Reads a key, the sign after it and its value. -/
def readBinding (readNode : Reader Node) : Reader ((List String × String) × Node) := fun s => do
  let (key, s) ← readKey s
  let (_, s) ← readChar '=' s
  let (node, s) ← readNode (skipSpaces s)
  return ((key, node), s)

/-! ## Arrays and inline tables -/

/-- Reads the items of an array and its closing bracket.  Every item takes at
    least one character, so `fuel` may be the length of the text. -/
def readItems (readNode : Reader Node) : (fuel : Nat) → Reader (List Node)
  | 0, _ => none
  | fuel + 1, s => do
    -- here the array may end: before its first item or behind a comma
    match ← skipGap false s with
    | ']' :: s => return ([], s)
    | s =>
      let (node, s) ← readNode s
      match ← skipGap false s with
      | ',' :: s =>
        let (nodes, s) ← readItems readNode fuel s
        return (node :: nodes, s)
      | ']' :: s => return ([node], s)
      | _ => none

/-- Reads the bindings of an inline table and its closing brace, and adds them
    to the entries read so far. -/
def readBindings (readNode : Reader Node) : (fuel : Nat) → Entries → Reader Entries
  | 0, _, _ => none
  | fuel + 1, entries, s => do
    let (((path, key), node), s) ← readBinding readNode s
    let entries ← Entries.bindDotted path key node .header entries
    match skipSpaces s with
    | ',' :: s => readBindings readNode fuel entries s
    -- no comma may stand before the closing brace
    | '\x7d' :: s => return (entries, s)
    | _ => none

/-- Reads the rest of an inline table. -/
def readInlineTable (readNode : Reader Node) : Reader Node := fun s =>
  match skipSpaces s with
  | '\x7d' :: s => some (.table .inline [], s)
  | s => do
    let (entries, s) ← readBindings readNode s.length [] s
    return (.table .inline entries, s)

/-- Reads a value inside of which arrays and inline tables nest at most `depth`
    deep. -/
def readNode : (depth : Nat) → Reader Node
  | depth, s =>
    match s with
    | '"' :: _ => (readString s).map fun (t, s) => (.string t, s)
    | '\'' :: _ => (readString s).map fun (t, s) => (.string t, s)
    | '[' :: s =>
      match depth with
      | 0 => none
      | depth + 1 => (readItems (readNode depth) s.length s).map fun (vs, s) => (.array vs, s)
    | '\x7b' :: s =>
      match depth with
      | 0 => none
      | depth + 1 => readInlineTable (readNode depth) s
    | s => (readScalar s).map fun (v, s) => (.scalar v, s)

/-! ## Documents -/

/-- What was read of a document: its tables, and the key of the last header, to
    whose table the next lines belong. -/
structure Progress where
  root : Entries
  header : List String

/-- One line that is not blank. -/
inductive Line where
  | binding (path : List String) (key : String) (node : Node)
  | tableHeader (path : List String) (key : String)
  | arrayHeader (path : List String) (key : String)

/-- What a line does to a document. -/
def Progress.apply (progress : Progress) : Line → Option Progress
  | .binding path key node => do
    -- the key is read in the table of the last header
    let root ← Entries.changeAt false (Entries.bindDotted path key node) progress.header .header
      progress.root
    return { progress with root }
  -- header paths start at the root, whatever table is open
  | .tableHeader path key => do
    let root ← Entries.changeAt false (Entries.defineTable key) path .header progress.root
    return ⟨root, path ++ [key]⟩
  | .arrayHeader path key => do
    let root ← Entries.changeAt false (Entries.appendTable key) path .header progress.root
    return ⟨root, path ++ [key]⟩

/-- Reads a line that is not blank, without its end. -/
def readLine : Reader Line
  | '[' :: '[' :: s => do
    let ((path, key), s) ← readKey s
    let (_, s) ← readChar ']' s
    let (_, s) ← readChar ']' s
    return (.arrayHeader path key, s)
  | '[' :: s => do
    let ((path, key), s) ← readKey s
    let (_, s) ← readChar ']' s
    return (.tableHeader path key, s)
  | s => do
    let (((path, key), node), s) ← readBinding (readNode nestingLimit) s
    return (.binding path key node, s)

/-- Whether a line is blank but for a comment. -/
def isBlankLine : List Char → Bool
  | [] => true
  | c :: _ => c == '#' || c == '\n' || c == '\r'

/-- Reads lines up to the end of the text.  Every line takes at least one
    character, so `fuel` may be the length of the text. -/
def readLines : (fuel : Nat) → Progress → List Char → Option Progress
  | _, progress, [] => some progress
  | 0, _, _ :: _ => none
  | fuel + 1, progress, s => do
    let s := skipSpaces s
    if isBlankLine s then readLines fuel progress (← endLine? s)
    else
      -- what stands on a line is followed by its end, or by a comment and its end
      let (line, s) ← readLine s
      let progress ← progress.apply line
      readLines fuel progress (← endLine? s)

/-- A mark of the byte order at the start of a text does not count. -/
def skipByteOrderMark : List Char → List Char
  | '\ufeff' :: s => s
  | s => s

/-- The document that a TOML text denotes.  The document itself is never taken
    for a moment. -/
def read (s : List Char) : Option Document := do
  let s := skipByteOrderMark s
  let progress ← readLines s.length ⟨[], []⟩ s
  Entries.toDocument? progress.root

/-- The document that a string denotes. -/
def ofString (text : String) : Option Document :=
  read text.toList

end LayeredConfig.Toml
