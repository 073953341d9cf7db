/-
  LayeredConfig.Jq.Step

  The steps into arrays, objects and texts.
-/
import LayeredConfig.Jq.Operation

namespace LayeredConfig.Jq.Datum

/-! ## Single steps -/

/-- A position counted from the start, or from the end if it is negative; none
    before the start. -/
def position? (length : Nat) (n : Int) : Option Nat :=
  if 0 ≤ n then some n.toNat
  else if 0 ≤ n + length then some (n + length).toNat
  else none

/-- What a value holds at a key or a position. -/
def index : Datum → Datum → Output
  | .object _ entries, .string key => .ok ((field? key entries).getD .null)
  | .array _ items, .int n =>
    .ok (((position? items.length n).bind fun i => items[i]?).getD .null)
  | v, key => raise ("cannot index " ++ v.kind ++ " with " ++ key.toText)

/-- A bound of a part as a position between 0 and `length`; a bound that is left
    out is `missing`. -/
def bound (length missing : Nat) : Option Datum → Except Fault Nat
  | none => .ok missing
  | some (.int n) => .ok (min length ((position? length n).getD 0))
  | some v => raise (v.toText ++ " is no position")

/-- The part of a list between two bounds. -/
def sublist {α : Type} (items : List α) (low high : Option Datum) : Except Fault (List α) := do
  let first ← bound items.length 0 low
  let last ← bound items.length items.length high
  return (items.take last).drop first

/-- The part of an array or a text between two positions. -/
def slice (v : Datum) (low high : Option Datum) : Output :=
  match v with
  | .array _ items => (sublist items low high).map newArray
  | .string s => (sublist s.toList low high).map fun chars => .string (String.ofList chars)
  | v => raise ("cannot take a part of " ++ v.kind)

/-- Everything that an array or an object holds. -/
def items : Datum → Except Fault (List Datum)
  | .array _ items => .ok items
  | .object _ entries => .ok (entries.map Prod.snd)
  | v => raise ("cannot iterate over " ++ v.kind)

/-- The values that a step leads to. -/
def step (v : Datum) : Step Datum → Except Fault (List Datum)
  | .iterate => v.items
  | .index key => (v.index key).map fun w => [w]
  | .slice low high => (v.slice low high).map fun w => [w]

/-! ## Paths -/

/-- The values that steps lead to, one after the other.  Where a marked step
    fails, it leads nowhere. -/
def walk : List (Step Datum × Bool) → Datum → Computation
  | [], v => .value v
  | (step, lenient) :: rest, v =>
    match v.step step with
    | .ok ws => (Computation.ofList ws).bind (walk rest)
    | .error fault => if lenient then .done else .single (.error fault)

/-! ## Everything inside a value -/

mutual

/-- A value and everything inside it, from the outside in. -/
def descendants : Datum → List Datum
  | .array origin items => .array origin items :: itemsDescendants items
  | .object origin entries => .object origin entries :: fieldsDescendants entries
  | v => [v]

/-- The items of an array and everything inside them. -/
def itemsDescendants : List Datum → List Datum
  | [] => []
  | item :: items => item.descendants ++ itemsDescendants items

/-- The values of an object and everything inside them. -/
def fieldsDescendants : List (String × Datum) → List Datum
  | [] => []
  | (_, value) :: entries => value.descendants ++ fieldsDescendants entries

end

end LayeredConfig.Jq.Datum
