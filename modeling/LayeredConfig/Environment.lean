/-
  LayeredConfig.Environment

  The environment of a process: what expressions find around them.
-/
import LayeredConfig.Jq

namespace LayeredConfig

/-- The variables of a process, and the engine that runs expressions in it. -/
structure Environment where
  processVariables : Variables
  engine : Engine

namespace Environment

/-- The environment of a program that runs expressions with the engine of the
    library. -/
def ofVariables (listed : Variables) : Environment :=
  ⟨listed, Jq.engine⟩

/-- The environment without variables. -/
def empty : Environment := ofVariables []

/-- Where variables stand for an environment, the engine is that of the library. -/
instance : Coe Variables Environment := ⟨ofVariables⟩

/-- The variables as an object.  Of a name that is listed twice the last value
    counts. -/
def object (environment : Environment) : Value :=
  .table (environment.processVariables.foldl
    (fun entries (name, text) => Document.insert name (.string text) entries) [])

/-- The first output of a program on an input, if it has one.  The program may use
    the variables that are bound outside of it. -/
def firstOutput (environment : Environment) (bound : List (String × Value)) (program : String)
    (input : Value) : Except String (Option Value) := do
  environment.engine.compile (bound.map Prod.fst) program
  environment.engine.first environment.processVariables bound program input

end Environment

end LayeredConfig
