/-
  LayeredConfig.Toml.Tree

  The tables of a document while it is read.

  A table can be mentioned many times but defined only once: by a header of its
  own, or by dotted keys.  So every table remembers how it came to be, and the
  rules below say what may still be added to it.  Entries stand in the order in
  which they were made; a table that was on the way to others is made once more
  by a header of its own, and so comes last.
-/
import LayeredConfig.Toml.Moment
import LayeredConfig.Value

namespace LayeredConfig.Toml

/-- How a table came to be. -/
inductive Origin where
  /-- It has a header of its own, or it is the whole document. -/
  | header
  /-- It lies on the way to the table of a header. -/
  | path
  /-- It was made by a dotted key. -/
  | dotted
  /-- It was written between braces, and nothing can be added to it. -/
  | inline
  deriving DecidableEq

/-- What a key of a table under construction is bound to. -/
inductive Node where
  /-- A string, which is told from other scalars that become texts. -/
  | string (s : String)
  /-- A truth value, a number or a moment. -/
  | scalar (v : Value)
  | array (items : List Node)
  /-- A table. -/
  | table (origin : Origin) (entries : List (String × Node))
  /-- An array of tables, to the last of which headers can still add. -/
  | tables (items : List (List (String × Node)))

/-- The entries of a table under construction. -/
abbrev Entries := List (String × Node)

namespace Entries

/-! ## Entries -/

/-- The node bound to `key`. -/
def find? (key : String) : Entries → Option Node
  | [] => none
  | (k, node) :: rest => if k = key then some node else find? key rest

/-- Binds `key` to a node.  A key that is already bound keeps its place; a new
    one comes last. -/
def insert (key : String) (node : Node) : Entries → Entries
  | [] => [(key, node)]
  | (k, n) :: rest => if k = key then (key, node) :: rest else (k, n) :: insert key node rest

/-- Takes `key` out. -/
def erase (key : String) (entries : Entries) : Entries :=
  entries.filter fun entry => entry.1 != key

/-- A change of the entries of a table of the given origin, if it is allowed. -/
abbrev Change := Origin → Entries → Option Entries

/-- Makes a change in the table at `path` below a table.  Tables on the way
    that do not exist are made; an array of tables stands for its last table.
    A dotted key does not enter a table that has a header of its own. -/
def changeAt (isDotted : Bool) (change : Change) : (path : List String) → Change
  | [], origin, entries => change origin entries
  | key :: path, _, entries =>
    match find? key entries with
    -- nothing is here yet: the table is made by being mentioned
    | none => do
      let origin := if isDotted then Origin.dotted else .path
      let children ← changeAt isDotted change path origin []
      return insert key (.table origin children) entries
    | some (.string _) | some (.scalar _) | some (.array _) => none
    | some (.table origin children) =>
      -- a finished table takes no dotted keys from outside
      if origin == .inline || (isDotted && origin == .header) then none
      else do
        let children ← changeAt isDotted change path origin children
        return insert key (.table origin children) entries
    | some (.tables items) => do
      -- of an array the table that was opened last is meant
      let children ← changeAt isDotted change path .header (items.getLast?.getD [])
      return insert key (.tables (items.dropLast ++ [children])) entries

/-! ## The three statements -/

/-- Binds `key` to a value in a table.  A table that a dotted key leads to has
    to be one that dotted keys made. -/
def bindKey (isDotted : Bool) (key : String) (node : Node) : Change := fun origin entries =>
  if isDotted && origin != .dotted then none
  else if (find? key entries).isSome then none
  else some (entries ++ [(key, node)])

/-- Binds a dotted key to a value.  The path leads to the table that holds the
    last key. -/
def bindDotted (path : List String) (key : String) (node : Node) : Change :=
  changeAt (!path.isEmpty) (bindKey (!path.isEmpty) key node) path

/-- Defines the table `key` by a header.  It may have been on the way to others;
    it then leaves its place for the last one. -/
def defineTable (key : String) : Change := fun _ entries =>
  match find? key entries with
  | none => some (entries ++ [(key, .table .header [])])
  | some (.table .path children) =>
    some (erase key entries ++ [(key, .table .header children)])
  | some _ => none

/-- Adds one more table to the array `key`. -/
def appendTable (key : String) : Change := fun _ entries =>
  match find? key entries with
  | none => some (entries ++ [(key, .tables [[]])])
  | some (.tables items) => some (insert key (.tables (items ++ [[]])) entries)
  | some _ => none

/-! ## The finished document -/

/-- The key that marks a table as a moment. -/
def momentKey : String := "$__toml_private_datetime"

/-- The moment that a node is the text of.  Nothing but a string is one. -/
def moment? : Node → Option Value
  | .string s => (momentChars s.toList).map fun text => .string (String.ofList text)
  | _ => none

mutual

/-- The value of a finished node. -/
def nodeValue? : Node → Option Value
  | .string s => some (.string s)
  | .scalar v => some v
  | .array items => (nodesValues? items).map .array
  | .table _ entries => tableValue? entries
  | .tables items => (tablesValues? items).map .array

/-- The values of the items of an array. -/
def nodesValues? : List Node → Option (List Value)
  | [] => some []
  | node :: nodes => do
    let v ← nodeValue? node
    return v :: (← nodesValues? nodes)

/-- The values of the tables of an array. -/
def tablesValues? : List (List (String × Node)) → Option (List Value)
  | [] => some []
  | entries :: items => do
    let v ← tableValue? entries
    return v :: (← tablesValues? items)

/-- The value of a table inside a document.  If the first key is the mark of a
    moment, the table stands for that, and its other entries do not count. -/
def tableValue? : List (String × Node) → Option Value
  | [] => some (.table [])
  | (key, node) :: rest =>
    if key = momentKey then moment? node
    else do
      let v ← nodeValue? node
      return .table ((key, v) :: (← toDocument? rest))

/-- The document of finished entries. -/
def toDocument? : List (String × Node) → Option Document
  | [] => some []
  | (key, node) :: rest => do
    let v ← nodeValue? node
    return (key, v) :: (← toDocument? rest)

end

end Entries

end LayeredConfig.Toml
