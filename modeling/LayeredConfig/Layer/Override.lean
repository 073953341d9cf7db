/-
  LayeredConfig.Layer.Override

  The layer of overrides.

  The override `key` sets a key of the global section and `section.key` a key
  of a named one, whose name is everything before the last dot.  Of two
  overrides for one place the later counts.
-/
import LayeredConfig.Layer.Variables

namespace LayeredConfig

/-- The place that a dotted key names. -/
def Address.ofDotted (dotted : String) : Address :=
  match Text.splitLast? '.' dotted.toList with
  | some (sectionName, key) => ⟨some (String.ofList sectionName), String.ofList key⟩
  | none => ⟨none, dotted⟩

namespace Document

/-- The entries of the table that a key is bound to; none if it is not bound to
    a table. -/
def tableAt (doc : Document) (key : String) : Document :=
  match doc.find? key with
  | some (.table entries) => entries
  | _ => []

/-- Sets a place to a value.  What is no table gives way to the section of its
    name. -/
def setOverride (doc : Document) (address : Address) (v : Value) : Document :=
  match address.sectionName with
  | none => doc.insert address.key v
  | some name => doc.insert name (.table (insert address.key v (doc.tableAt name)))

/-- The layer of overrides, each a dotted key and a value. -/
def ofOverrides (overrides : List (String × Value)) : Document :=
  overrides.foldl (fun doc (dotted, v) => doc.setOverride (.ofDotted dotted) v) []

end Document

end LayeredConfig
