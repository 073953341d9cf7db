/-
  LayeredConfig.Guard

  Guards: conditions on the coerced value of a setting.

  A guard carries the message that is shown when a value does not pass.  It is
  either a native predicate or an expression.  An expression is read when the guard
  is made, so that one that cannot be run is reported with the schema.
-/
import LayeredConfig.Error
import LayeredConfig.NameMap

namespace LayeredConfig

/-! ## Guards -/

/-- What a guard asks of a value. -/
inductive Check where
  /-- A predicate of the program, by its name. -/
  | native (name : String) (predicate : Value → Bool)
  /-- An expression, by its source. -/
  | expression (source : String)

/-- A condition on a value and the message for values that do not meet it. -/
structure Guard where
  message : String
  check : Check

namespace Guard

/-- A guard with a predicate that has no name. -/
def ofPredicate (message : String) (predicate : Value → Bool) : Guard :=
  ⟨message, .native "<closure>" predicate⟩

/-- A guard with an expression that an engine can run. -/
def ofExpression (engine : Engine) (message source : String) : Except String Guard := do
  Expression.checkGuard engine source
  return ⟨message, .expression source⟩

/-- Whether a value passes a guard.  Only an expression can fail to tell. -/
def passes (environment : Environment) (guard : Guard) (v : Value) : Except CoercionError Bool :=
  match guard.check with
  | .native _ predicate => .ok (predicate v)
  | .expression source => (Expression.passes environment source v).mapError (.expression source)

/-- What identifies a check: the name of a predicate or the source of an
    expression. -/
def checkText (guard : Guard) : String :=
  match guard.check with
  | .native name _ => name
  | .expression source => source

/-- A guard as it is shown for inspection. -/
def inspect (guard : Guard) : String :=
  "Guard \x7b message: " ++ Text.quoted guard.message ++ ", check: "
    ++ Text.quoted guard.checkText ++ " \x7d"

/-- Applies guards to the coerced value of the setting `key` in their order.
    The first one that does not let it pass is reported. -/
def checkAll (environment : Environment) (key : String) (v : Value) :
    List Guard → Except ConfigError Unit
  | [] => .ok ()
  | guard :: guards =>
    match guard.passes environment v with
    | .error cause => .error (.guardError key guard.message cause)
    | .ok false => .error (.guardViolation key none guard.message v)
    | .ok true => checkAll environment key v guards

end Guard

/-! ## Registries -/

/-- The native predicates that a schema document can refer to by name. -/
structure GuardRegistry where
  predicates : NameMap (Value → Bool)

namespace GuardRegistry

/-- The registry without predicates. -/
def empty : GuardRegistry := ⟨.empty⟩

/-- Registers a predicate, in place of an earlier one of its name. -/
def register (registry : GuardRegistry) (name : String) (predicate : Value → Bool) :
    GuardRegistry :=
  ⟨registry.predicates.insert name predicate⟩

/-- The guard of the setting `key` with the given message.  A callable that
    without the white space around it is a registered name is that predicate;
    every other one is an expression, which the engine has to be able to run. -/
def resolveWith (registry : GuardRegistry) (engine : Engine) (key message callable : String) :
    Except ConfigError Guard :=
  -- a name may have white space around it; a source keeps its own
  let name := Text.trimmed callable
  match registry.predicates.find? name with
  | some predicate => .ok ⟨message, .native name predicate⟩
  | none => (Guard.ofExpression engine message callable).mapError (.invalidGuard key callable)

/-- The guard with the engine of the library. -/
def resolve (registry : GuardRegistry) (key message callable : String) :
    Except ConfigError Guard :=
  registry.resolveWith Jq.engine key message callable

/-- A registry as it is shown for inspection: the names of its predicates. -/
def inspect (registry : GuardRegistry) : String :=
  "GuardRegistry \x7b predicates: ["
    ++ String.intercalate ", " (registry.predicates.names.map Text.quoted) ++ "] \x7d"

end GuardRegistry

end LayeredConfig
