/-
  LayeredConfig.TypeDesc

  The types of settings, and their names.

  A type says which values a setting may hold and how raw values are coerced
  into it.  Every type has one canonical name, in which composite types carry
  their parts in square brackets.
-/

namespace LayeredConfig

/-- The type of a setting. -/
inductive TypeDesc where
  /-- Integers of 64 bits. -/
  | int
  /-- Finite floating-point numbers. -/
  | float
  /-- Strings. -/
  | string
  /-- Truth values. -/
  | bool
  /-- No value, or a value of the inner type. -/
  | optional (inner : TypeDesc)
  /-- Arrays of values of the inner type. -/
  | list (inner : TypeDesc)
  /-- The first of two alternatives that accepts a value. -/
  | union (first second : TypeDesc)
  /-- The result of an expression, which may look at the process environment
      through a variable if `withEnv` holds. -/
  | expression (withEnv : Bool)
  deriving DecidableEq

namespace TypeDesc

/-- The canonical name of a type, as characters. -/
def nameChars : TypeDesc → List Char
  | .int => "Int".toList
  | .float => "Float".toList
  | .string => "String".toList
  | .bool => "Bool".toList
  | .optional inner => "Optional".toList ++ '[' :: inner.nameChars ++ [']']
  | .list inner => "List".toList ++ '[' :: inner.nameChars ++ [']']
  | .union first second =>
    "Union".toList ++ '[' :: first.nameChars ++ ',' :: second.nameChars ++ [']']
  | .expression true => "EnvExpression".toList
  | .expression false => "Expression".toList

/-- The canonical name of a type. -/
def name (type : TypeDesc) : String :=
  String.ofList type.nameChars

end TypeDesc

end LayeredConfig
