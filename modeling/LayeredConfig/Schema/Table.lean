/-
  LayeredConfig.Schema.Table

  Schemas with an index: the settings in a row, and for every name the place in the
  row where its setting stands.

  A table is searched by name without going through the row.  Nothing in its type
  makes the two parts belong together; that they do, and that a table answers like
  the list of its settings, is a theorem about the tables that additions lead to.
-/
import LayeredConfig.Schema

namespace LayeredConfig

/-- Settings in a row, and the places of names in it. -/
structure SettingTable where
  row : Array Setting
  places : NameMap Nat

namespace SettingTable

/-- The table without settings. -/
def empty : SettingTable := ⟨#[], .empty⟩

/-- Declares one more setting, whose name has to be new.  The table afterwards comes
    with the answer; where the answer is an error it is the one from before. -/
def add (table : SettingTable) (setting : Setting) : Except ConfigError Unit × SettingTable :=
  match table.places.find? setting.name with
  | some _ => (.error (.invalidSchema setting.name .declaredTwice), table)
  | none =>
    -- the place is the end of the row as it was
    (.ok (), ⟨table.row.push setting, table.places.insert setting.name table.row.size⟩)

/-- Whether a name has a place. -/
def declares (table : SettingTable) (name : String) : Bool :=
  (table.places.find? name).isSome

/-- What stands in the row at the place of a name, if it has one.  There is nothing
    at a place behind the end. -/
def find? (table : SettingTable) (name : String) : Option (Option Setting) :=
  (table.places.find? name).map fun place => table.row[place]?

/-- The settings in the order of their declaration. -/
def settings (table : SettingTable) : List Setting := table.row.toList

/-- The number of settings. -/
def size (table : SettingTable) : Nat := table.row.size

/-- Declares settings one after another.  One that is rejected is passed over. -/
def addAll (table : SettingTable) : List Setting → SettingTable
  | [] => table
  | setting :: rest => (table.add setting).2.addAll rest

/-- Those of the settings that are not rejected when they are declared one after
    another. -/
def accepted (table : SettingTable) : List Setting → List Setting
  | [] => []
  | setting :: rest =>
    match table.add setting with
    | (.ok (), added) => setting :: added.accepted rest
    | (.error _, same) => same.accepted rest

end SettingTable

end LayeredConfig
