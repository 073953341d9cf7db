/-
  LayeredConfig.Jq.Operation

  The operators on values: arithmetic and comparison.
-/
import LayeredConfig.Jq.Datum.Text
import LayeredConfig.Jq.Filter
import LayeredConfig.Jq.Outputs
import LayeredConfig.Text.Split

namespace LayeredConfig.Jq

/-- An error with a message. -/
def raise {α : Type} (message : String) : Except Fault α :=
  .error (.raised (.string message))

namespace Datum

/-! ## Arithmetic -/

/-- An operation on two numbers in floating point. -/
def onFloats (name : String) (f : ExtendedDouble → ExtendedDouble → ExtendedDouble)
    (a b : Datum) : Output :=
  match a.float?, b.float? with
  | some x, some y => .ok (.float (f x y))
  | _, _ => raise (a.toText ++ " and " ++ b.toText ++ " cannot be " ++ name)

/-- An operation on two numbers: in integers by `f` if both are integers and the
    result is one of 64 bits, else in floating point by `g`. -/
def onNumbers (name : String) (f : Int → Int → Int)
    (g : ExtendedDouble → ExtendedDouble → ExtendedDouble) (a b : Datum) : Output :=
  match a, b with
  | .int m, .int n => if isInt64 (f m n) then .ok (.int (f m n)) else onFloats name g a b
  | _, _ => onFloats name g a b

/-- The sum: of numbers, of texts, arrays and objects put together.  No value
    is neutral. -/
def add : Datum → Datum → Output
  | .null, b => .ok b
  | a, .null => .ok a
  | .string a, .string b => .ok (.string (a ++ b))
  | .array _ a, .array _ b => .ok (newArray (a ++ b))
  | .object _ a, .object _ b => .ok (newObject (mergeFields a b))
  | a, b => onNumbers "added" (· + ·) .add a b

/-- The difference: of numbers, or what remains of an array.  What has a place
    of its own in the order is taken away, and that is all but what holds what is
    no number. -/
def sub : Datum → Datum → Output
  | .array _ a, .array _ b =>
    .ok (newArray (a.filter fun v => !b.any fun w => v.compare w == .eq))
  | a, b => onNumbers "subtracted" (· - ·) .sub a b

mutual

/-- An object laid over another, objects inside them likewise. -/
def overlay (below : Option Datum) : Datum → Datum
  | .object origin entries =>
    match below with
    | some (.object _ fields) => newObject (overlayFields fields entries)
    | _ => .object origin entries
  | v => v

/-- Entries laid over the fields of an object. -/
def overlayFields (fields : List (String × Datum)) :
    List (String × Datum) → List (String × Datum)
  | [] => fields
  | (key, value) :: entries =>
    overlayFields (setField key (overlay (field? key fields) value) fields) entries

end

/-- A text a number of times in a row; no times give no value. -/
def repeatText (s : String) (n : Int) : Datum :=
  if 0 < n then .string (String.join (List.replicate n.toNat s)) else .null

/-- The product: of numbers, of a text and a number, or of two objects laid
    over one another. -/
def mul : Datum → Datum → Output
  | .string s, .int n | .int n, .string s => .ok (repeatText s n)
  | .object _ a, .object _ b => .ok (newObject (overlayFields a b))
  | a, b => onNumbers "multiplied" (· * ·) .mul a b

/-- The pieces of a text between a separator; its characters, if that is empty.
    An empty text has no pieces. -/
def splitText (s separator : String) : Datum :=
  let pieces :=
    if s.isEmpty then []
    else if separator.isEmpty then s.toList.map fun c => [c]
    else Text.splitOn separator.toList s.toList
  newArray (pieces.map fun piece => .string (String.ofList piece))

/-- The quotient of numbers, which is no integer, or the pieces of a text. -/
def div : Datum → Datum → Output
  | .string a, .string b => .ok (splitText a b)
  | a, b => onFloats "divided" .div a b

/-- The remainder; no integer has a remainder by zero. -/
def rem : Datum → Datum → Output
  | .int m, .int n => if n = 0 then raise "division by zero" else .ok (.int (Int.tmod m n))
  | a, b => onFloats "divided" .rem a b

/-- The result of an operation. -/
def calculate : Operation → Datum → Datum → Output
  | .add => add
  | .sub => sub
  | .mul => mul
  | .div => div
  | .rem => rem

/-- The number with the other sign. -/
def negate : Datum → Output
  | .int n => .ok (.ofInt (-n))
  | v =>
    match v.float? with
    | some x => .ok (.float x.negate)
    | none => raise (v.toText ++ " cannot be negated")

/-- The result of a comparison. -/
def holds (op : Comparison) (a b : Datum) : Bool :=
  match op with
  | .eq => a.equals b
  | .ne => !a.equals b
  | .lt => a.compare b == .lt
  | .le => a.compare b != .gt
  | .gt => a.compare b == .gt
  | .ge => a.compare b != .lt

end Datum

end LayeredConfig.Jq
