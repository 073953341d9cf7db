/-
  LayeredConfig.Engine

  What runs expressions.

  Expressions are programs in the jq language.  The engine that runs them is no
  part of the library: it is what a process brings along, and everything that is
  said about configurations holds for any of them.  As an engine is a function,
  programs that do not end, or that depend on the time, are left out.  The engine of
  the programs that are built from the library is a fragment of the language
  (`Jq.engine`).
-/
import LayeredConfig.Value

namespace LayeredConfig

/-- The variables of a process and their values, in the order in which the system
    lists them. -/
abbrev Variables := List (String × String)

/-- An engine for programs in the jq language, whose variables may be bound from
    outside. -/
structure Engine where
  /-- Reads a program in which variables of the given names are bound, and all
      filters that it names; the reason if it cannot be run. -/
  compile : (bound : List String) → (program : String) → Except String Unit
  /-- Runs a program that can be run, in a process with variables of its own, up to
      its first output.  That is printed as JSON and read again.  The reason if it
      is an error or cannot be read, and nothing if there is no output. -/
  first : (listed : Variables) → (bound : List (String × Value)) → (program : String) →
    (input : Value) → Except String (Option Value)

end LayeredConfig
