/-
  LayeredConfig.Coercion

  From raw values to values of a type.

  Coercion is the only judge of values: a value matches a type when it can be
  coerced into it.  Failures are of three kinds.  A failed conversion lets a
  union go on to its second alternative; a list text without elements and an
  expression without a value end the coercion at once.
-/
import LayeredConfig.Expression
import LayeredConfig.Number.Truncation
import LayeredConfig.TypeDesc
import LayeredConfig.Text.Split

namespace LayeredConfig

/-! ## Failures -/

/-- Why a value cannot be converted to a type. -/
inductive Mismatch where
  | outOfRange
  | notANumber
  | badInteger (fault : IntegerFault)
  | badFloat (fault : FloatFault)
  | notFinite
  | notATruthWord
  | notABoolean
  | notASequence
  | noAlternative
  deriving DecidableEq

/-- What is said about a mismatch. -/
def Mismatch.message : Mismatch → String
  | .outOfRange => "out of range"
  | .notANumber => "not a number"
  | .badInteger .empty => "cannot parse integer from empty string"
  | .badInteger .invalidDigit => "invalid digit found in string"
  | .badInteger .tooLarge => "number too large to fit in target type"
  | .badInteger .tooSmall => "number too small to fit in target type"
  | .badFloat .empty => "cannot parse float from empty string"
  | .badFloat .invalid => "invalid float literal"
  | .notFinite => "NaN and infinities are not supported"
  | .notATruthWord => "expected one of true, True, false, False"
  | .notABoolean => "not a boolean"
  | .notASequence => "expected a sequence or a list literal"
  | .noAlternative => "no alternative of the union accepts it"

/-- Why a value cannot be coerced. -/
inductive CoercionError where
  /-- `value` cannot be converted to `type`. -/
  | conversion (type : TypeDesc) (value : Value) (reason : Mismatch)
  /-- The text `input` has no elements for the list type `type`. -/
  | malformed (type : TypeDesc) (input : String)
  /-- The expression `source` has no value. -/
  | expression (source : String) (reason : Expression.Failure)

namespace CoercionError

/-- What is said about a failed coercion. -/
def message : CoercionError → String
  | .conversion type value reason =>
    "cannot convert " ++ value.text ++ " to " ++ type.name ++ ": " ++ reason.message
  | .malformed type input =>
    "malformed " ++ type.name ++ " literal " ++ Text.quoted input ++ ": no list elements found"
  | .expression source reason =>
    "expression `" ++ source ++ "` failed: " ++ reason.message

/-- Whether a union may try its second alternative. -/
def isConversion : CoercionError → Bool
  | .conversion .. => true
  | _ => false

end CoercionError

namespace TypeDesc

/-! ## Scalars -/

/-- An integer from a number, a truth value or a text.  A floating-point number
    loses the digits behind its point. -/
def coerceInt (v : Value) : Except CoercionError Value :=
  let fail (reason : Mismatch) : Except CoercionError Value := .error (.conversion .int v reason)
  match v with
  | .number (.int n) => if isInt64 n then .ok (.int n) else fail .outOfRange
  | .number (.float x) =>
    (ExtendedDouble.finite x).toInt64?.elim (fail .outOfRange) fun n => .ok (.int n)
  | .bool b => .ok (.int (if b then 1 else 0))
  | .string s =>
    match readInteger (Text.trim s.toList) with
    | .ok n => .ok (.int n)
    | .error fault => fail (.badInteger fault)
  | _ => fail .notANumber

/-- The number that `v` was converted to, if it is finite. -/
def finiteFloat (v : Value) : ExtendedDouble → Except CoercionError Value
  | .finite x => .ok (.float x)
  | _ => .error (.conversion .float v .notFinite)

/-- A floating-point number from a number, a truth value or a text. -/
def coerceFloat (v : Value) : Except CoercionError Value :=
  let fail (reason : Mismatch) : Except CoercionError Value := .error (.conversion .float v reason)
  match v with
  | .number (.int n) => finiteFloat v (.ofInt n)
  | .number (.float x) => .ok (.float x)
  | .bool b => finiteFloat v (.ofInt (if b then 1 else 0))
  | .string s =>
    match readFloat (Text.trim s.toList) with
    | .ok x => finiteFloat v x
    | .error fault => fail (.badFloat fault)
  | _ => fail .notANumber

/-- A truth value from itself or from one of four words. -/
def coerceBool (v : Value) : Except CoercionError Value :=
  let fail (reason : Mismatch) : Except CoercionError Value := .error (.conversion .bool v reason)
  match v with
  | .bool b => .ok (.bool b)
  | .string s =>
    if s = "true" ∨ s = "True" then .ok (.bool true)
    else if s = "false" ∨ s = "False" then .ok (.bool false)
    else fail .notATruthWord
  | _ => fail .notABoolean

/-! ## List texts -/

/-- The brackets that may stand around the elements of a list text. -/
def isBracket (c : Char) : Bool :=
  c == '[' || c == ']' || c == '(' || c == ')'

/-- A fragment of a list text without the white space and the brackets around
    it. -/
def bareElement (fragment : List Char) : List Char :=
  Text.trim (Text.trimBy isBracket (Text.trim fragment))

/-- The elements of a list text: the fragments between commas, without what is
    empty. -/
def listElements (s : String) : List String :=
  (((Text.splitAt ',' s.toList).map bareElement).filter fun e => !e.isEmpty).map String.ofList

/-! ## All types -/

/-- Coerces a list of values one by one up to the first failure. -/
def coerceEach (coerce : Value → Except CoercionError Value) :
    List Value → Except CoercionError (List Value)
  | [] => .ok []
  | v :: rest => do
    let w ← coerce v
    let ws ← coerceEach coerce rest
    return w :: ws

/-- Coerces a value into a type. -/
def coerce (environment : Environment) : TypeDesc → Value → Except CoercionError Value
  | .int, v => coerceInt v
  | .float, v => coerceFloat v
  | .string, v => .ok (.string v.display)
  | .bool, v => coerceBool v
  | .optional inner, v =>
    match v with
    | .null => .ok .null
    | .string "None" => .ok .null
    | v => inner.coerce environment v
  | .list inner, v =>
    match v with
    | .array items => do
      let coerced ← coerceEach (inner.coerce environment) items
      return .array coerced
    | .string s =>
      -- a list text needs elements, while an array may be empty
      match listElements s with
      | [] => .error (.malformed (.list inner) s)
      | elements => do
        let coerced ← coerceEach (inner.coerce environment) (elements.map Value.string)
        return .array coerced
    | v => .error (.conversion (.list inner) v .notASequence)
  | .union first second, v =>
    match first.coerce environment v with
    | .ok w => .ok w
    -- only a failed conversion leaves the value to the second alternative
    | .error (.conversion ..) =>
      match second.coerce environment v with
      | .ok w => .ok w
      -- both failed to convert: the failure is that of the union
      | .error (.conversion ..) => .error (.conversion (.union first second) v .noAlternative)
      | .error e => .error e
    | .error e => .error e
  | .expression withEnv, v =>
    match v with
    | .string source =>
      (Expression.evaluate environment withEnv source).mapError (.expression source)
    | v => .ok v

/-- Whether a value can be coerced into a type.  Expressions are not run for
    this: every value matches a type of expressions. -/
def accepts (environment : Environment) (type : TypeDesc) (v : Value) : Bool :=
  match type with
  | .expression _ => true
  | type =>
    match type.coerce environment v with
    | .ok _ => true
    | .error _ => false

end TypeDesc

end LayeredConfig
