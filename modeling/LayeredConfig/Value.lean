/-
  LayeredConfig.Value

  Configuration values and documents.

  A value is what a setting holds and what a file, an environment variable or
  an override delivers for it.  A document is a table at the top of a layer:
  its entries stand in an order that later decides which of several faults is
  reported.
-/
import LayeredConfig.Number.Double

namespace LayeredConfig

/-- A number is kept as an integer or as a floating-point number, whichever it
    was written as. -/
inductive Number where
  | int (n : Int)
  | float (x : Double)
  deriving DecidableEq

/-- A configuration value. -/
inductive Value where
  | null
  | bool (b : Bool)
  | number (n : Number)
  | string (s : String)
  | array (items : List Value)
  | table (entries : List (String × Value))

/-- The entries of a table in order. -/
abbrev Document := List (String × Value)

namespace Value

/-- An integer as a value. -/
abbrev int (n : Int) : Value := .number (.int n)

/-- A floating-point number as a value. -/
abbrev float (x : Double) : Value := .number (.float x)

/-- Whether a value is a table. -/
def isTable : Value → Bool
  | .table _ => true
  | _ => false

/-- The integer of 64 bits that a value is, if it is one. -/
def int64? : Value → Option Int
  | .number (.int n) =>
    -- the bounds are -2^63 and 2^63
    if -9223372036854775808 ≤ n ∧ n < 9223372036854775808 then some n else none
  | _ => none

end Value

/-! ## Documents -/

namespace Document

/-- The value bound to `key`. -/
def find? (key : String) : Document → Option Value
  | [] => none
  | (k, v) :: rest => if k = key then some v else find? key rest

/-- Whether `key` is bound. -/
def binds (doc : Document) (key : String) : Bool :=
  (doc.find? key).isSome

/-- The keys in order. -/
def keys (doc : Document) : List String :=
  doc.map Prod.fst

/-- Binds `key` to `value`.  A key that is already bound keeps its place; a new
    one comes last. -/
def insert (key : String) (value : Value) : Document → Document
  | [] => [(key, value)]
  | (k, v) :: rest => if k = key then (key, value) :: rest else (k, v) :: insert key value rest

/-- After an insertion the key is bound to the new value and all others are
    bound to what they were. -/
theorem find?_insert (doc : Document) (key : String) (value : Value) (k : String) :
    find? k (insert key value doc) = if key = k then some value else find? k doc := by
  induction doc with
  | nil => simp [insert, find?]
  | cons entry rest ih =>
    obtain ⟨n, v⟩ := entry
    by_cases hn : n = key
    · subst hn
      by_cases hk : n = k <;> simp [insert, find?, hk]
    · by_cases hk : n = k
      · subst hk
        simp [insert, find?, hn, Ne.symm hn]
      · simp [insert, find?, hn, hk, ih]

/-- Takes `key` out of a document.  The last entry moves to the place that
    becomes free. -/
def swapErase (key : String) : Document → Document
  | [] => []
  | (k, v) :: rest =>
    if k = key then
      match rest.getLast? with
      | none => []
      | some last => last :: rest.dropLast
    else (k, v) :: swapErase key rest

end Document

end LayeredConfig
