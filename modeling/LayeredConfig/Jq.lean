/-
  LayeredConfig.Jq

  An engine for a fragment of the jq language.

  Of the outputs of a program only the first is ever computed.  The fragment has
  literals and texts with insertions, arrays and objects, paths, pipes, commas,
  operators, conditions, bindings, `reduce`, `foreach`, `def`, `try` and the
  filters of `Builtin.table`.  A program is rejected that uses what the fragment
  leaves out: assignments such as `|=`, patterns that take values apart, labels
  and breaks, formats such as `@json`, directives of modules, and every filter
  that is not in the table, for example `tojson`, `with_entries`, `paths`, `del`,
  `group_by`, `test` or `now`.  The reasons that it gives are its own.
-/
import LayeredConfig.Engine
import LayeredConfig.Jq.Datum.Result
import LayeredConfig.Jq.Eval
import LayeredConfig.Jq.Grammar

namespace LayeredConfig.Jq

/-! ## Failures -/

/-- Why a program has no first output that is a configuration value. -/
inductive Failure where
  /-- The text is no program. -/
  | malformed
  /-- The program names a variable or a filter that does not exist. -/
  | undefined
  /-- The first output is an error. -/
  | raised (value : Datum)
  /-- The computation is nested too deeply. -/
  | exhausted
  /-- The first output is nested too deeply, or holds too large a number. -/
  | unrepresentable

/-- What is said about a failure. -/
def Failure.message : Failure → String
  | .malformed => "parse error"
  | .undefined => "undefined variable or filter"
  | .raised v => v.toText
  | .exhausted => "nested too deeply"
  | .unrepresentable => "result cannot be represented"

/-! ## Programs -/

/-- The filter that a program denotes. -/
def Filter.ofProgram (program : String) : Option Filter :=
  (Token.ofSource program.toList).bind Filter.ofTokens

/-- Reads a program, all of whose names have to exist.  `bound` are the names of
    variables that are bound outside of it. -/
def compile (bound : List String) (program : String) : Except Failure Filter :=
  match Filter.ofProgram program with
  | none => .error .malformed
  | some f => if f.closed bound Builtin.names then .ok f else .error .undefined

/-- The scope in which variables are bound outside of a program. -/
def Scope.ofBound : List (String × Value) → Scope
  | [] => .top
  | (name, v) :: rest => .variable name (.ofValue v) (ofBound rest)

/-- How deeply the filters that run may be nested. -/
def fuelLimit : Nat := Nat.pow 2 60

/-- How a program begins to run: with which fuel, and at which place. -/
structure Start where
  fuel : Nat
  place : Place

/-- The start of a program.  The binding of its input to a variable takes a unit of
    fuel and runs what is behind it in its first turn.  A program that begins with
    one begins that much further out, so that the rest of it begins as a program
    does that is bound from outside. -/
def Start.of (program : String) : Start :=
  if ". as $".toList.isPrefixOf program.toList then ⟨fuelLimit + 1, []⟩ else ⟨fuelLimit, [1]⟩

/-- The first output of a filter as a configuration value, if it has one. -/
def firstValue (listed : Variables) (start : Start) (scope : Scope) (f : Filter)
    (input : Datum) : Except Failure (Option Value) :=
  match ((eval listed start.fuel f scope input).outputs start.place).first? with
  | none => .ok none
  | some (.error (.raised v)) => .error (.raised v)
  | some (.error .exhausted) => .error .exhausted
  | some (.ok v) =>
    match v.toValue? 0 with
    | some value => .ok (some value)
    | none => .error .unrepresentable

/-- The first output of a program as a configuration value, if it has one. -/
def run (listed : Variables) (bound : List (String × Value)) (program : String)
    (input : Value) : Except Failure (Option Value) := do
  let f ← compile (bound.map Prod.fst) program
  firstValue listed (.of program) (.ofBound bound) f (.ofValue input)

/-- The engine of the fragment. -/
def engine : Engine where
  compile bound program := ((compile bound program).map fun _ => ()).mapError Failure.message
  first listed bound program input :=
    (run listed bound program input).mapError Failure.message

end LayeredConfig.Jq
