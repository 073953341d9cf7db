/-
  LayeredConfig.Layer.Variables

  The layer of environment variables.

  With the prefix `APP`, the variable `APP__KEY` sets the key `key` of the
  global section and `APP__SECTION__KEY` the key `key` of the section
  `section`.  Names with more parts or with empty parts do not count.  Values
  stay strings; the types of the settings coerce them.
-/
import LayeredConfig.Environment
import LayeredConfig.Text.LowerCase
import LayeredConfig.Text.Split
import LayeredConfig.Value

namespace LayeredConfig

/-- The place of a setting: its section, if that is a named one, and its
    key. -/
structure Address where
  sectionName : Option String
  key : String
  deriving DecidableEq

namespace Address

/-- What separates the parts of a variable name. -/
def partSeparator : List Char := "__".toList

/-- The place that a variable sets, if its name counts. -/
def ofVariable? (start : String) (name : String) : Option Address := do
  let rest ← Text.stripStart? (start.toList ++ partSeparator) name.toList
  match (Text.splitOn partSeparator rest).map Text.lower with
  | [key] => if key.isEmpty then none else some ⟨none, String.ofList key⟩
  -- the parts are made small letters before they are judged
  | [sectionName, key] =>
    if sectionName.isEmpty || key.isEmpty then none
    else some ⟨some (String.ofList sectionName), String.ofList key⟩
  | _ => none

end Address

namespace Document

/-- Sets a place to what a variable holds.  A key of the global section that is
    no table hides the section of its name. -/
def setVariable (doc : Document) (address : Address) (text : String) : Document :=
  match address.sectionName with
  | none => doc.insert address.key (.string text)
  | some name =>
    match doc.find? name with
    | none => doc.insert name (.table [(address.key, .string text)])
    | some (.table entries) => doc.insert name (.table (insert address.key (.string text) entries))
    -- the global key came first and keeps the name
    | some _ => doc

/-- The layer of environment variables whose names begin with `start`. -/
def ofVariables (start : String) (listed : Variables) : Document :=
  listed.foldl (fun doc (name, text) =>
    match Address.ofVariable? start name with
    | some address => doc.setVariable address text
    | none => doc) []

end Document

end LayeredConfig
