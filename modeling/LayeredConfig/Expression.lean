/-
  LayeredConfig.Expression

  Expressions in settings and guards.

  Of the outputs of an expression only the first counts.  An expression that may
  look at the environment is run on the variables of the process, which are also
  bound to `$env`; a guard is run on the value that it judges, which is also bound
  to `$x`.  Both are written around the source text before it is read, with a line
  of its own for the last parenthesis, so that a comment at the end of the source
  does not reach it unless it asks to go on there.
-/
import LayeredConfig.Environment

namespace LayeredConfig.Expression

/-- Why an expression has no value. -/
inductive Failure where
  /-- The engine has no first output for it. -/
  | engine (reason : String)
  /-- There is no output. -/
  | noValue

/-- What is said about a failure. -/
def Failure.message : Failure → String
  | .engine reason => reason
  | .noValue => "produced no value"

/-! ## Programs -/

/-- Source text in parentheses. -/
def parenthesized (source : String) : String :=
  "(" ++ source ++ "\n)"

/-- Source text with its input bound to a variable. -/
def binding (name source : String) : String :=
  ". as $" ++ name ++ " | " ++ parenthesized source

/-! ## Settings -/

/-- The value that a first output is, which has to be there. -/
def valueOf : Except String (Option Value) → Except Failure Value
  | .ok (some v) => .ok v
  | .ok none => .error .noValue
  | .error reason => .error (.engine reason)

/-- The value of an expression. -/
def evaluate (environment : Environment) (withEnv : Bool) (source : String) :
    Except Failure Value :=
  if withEnv then
    valueOf (environment.firstOutput [] (binding "env" source) environment.object)
  else valueOf (environment.firstOutput [] source .null)

/-! ## Guards -/

/-- Reads the source of a guard; the reason if it cannot be run. -/
def checkGuard (engine : Engine) (source : String) : Except String Unit :=
  engine.compile [] (binding "x" source)

/-- Whether a value passes a guard: its first output is there and counts as
    true. -/
def passes (environment : Environment) (source : String) (v : Value) : Except Failure Bool :=
  match environment.firstOutput [] (binding "x" source) v with
  | .ok none | .ok (some .null) | .ok (some (.bool false)) => .ok false
  | .ok (some _) => .ok true
  | .error reason => .error (.engine reason)

end LayeredConfig.Expression
