/-
  LayeredConfig.Jq.Datum

  The values that programs compute with.

  They are the configuration values, with two additions to the numbers: the
  results of arithmetic may be infinite or no number, and a numeral that is no
  64-bit integer stays as it was written until something is computed from it.

  What is no number is not equal to itself.  Still, an array or an object that
  holds it equals itself, and only itself, so each of them knows where in the
  computation it was made.
-/
import LayeredConfig.Engine
import LayeredConfig.Number.Arithmetic
import LayeredConfig.Number.Decimal

namespace LayeredConfig.Jq

/-- A place in a computation: the turns on the way to it, the last one first. -/
abbrev Place := List Nat

/-- A value inside a program. -/
inductive Datum where
  | null
  | bool (b : Bool)
  | int (n : Int)
  | float (x : ExtendedDouble)
  /-- A numeral with a point or an exponent, or beyond 64 bits. -/
  | numeral (text : String)
  | string (s : String)
  /-- An array, with the place that it was made at; none if it is new. -/
  | array (origin : Option Place) (items : List Datum)
  /-- An object, with the place that it was made at; none if it is new. -/
  | object (origin : Option Place) (entries : List (String × Datum))

namespace Datum

/-! ## Arrays and objects -/

/-- An array that is made just now. -/
def newArray (items : List Datum) : Datum :=
  .array none items

/-- An object that is made just now. -/
def newObject (entries : List (String × Datum)) : Datum :=
  .object none entries

mutual

/-- A value in which all new arrays and objects are made at a place.  What they
    hold has a place of its own behind that one. -/
def settle (place : Place) : Datum → Datum
  | .array none items => .array (some place) (settleItems place [] 0 items)
  | .object none entries => .object (some place) (settleFields place [] 0 entries)
  | v => v

/-- The items of an array made at a place, behind those in the reversed list
    `before`, of which there are `n`. -/
def settleItems (place : Place) (before : List Datum) (n : Nat) : List Datum → List Datum
  | [] => before.reverse
  | item :: items => settleItems place (item.settle (n :: place) :: before) (n + 1) items

/-- The entries of an object made at a place, likewise. -/
def settleFields (place : Place) (before : List (String × Datum)) (n : Nat) :
    List (String × Datum) → List (String × Datum)
  | [] => before.reverse
  | (key, value) :: entries =>
    settleFields place ((key, value.settle (n :: place)) :: before) (n + 1) entries

end

/-! ## Kinds and truth -/

/-- The name of the kind of a value. -/
def kind : Datum → String
  | .null => "null"
  | .bool _ => "boolean"
  | .int _ | .float _ | .numeral _ => "number"
  | .string _ => "string"
  | .array _ _ => "array"
  | .object _ _ => "object"

/-- Only no value and `false` count as false. -/
def truthy : Datum → Bool
  | .null | .bool false => false
  | _ => true

/-! ## Numbers -/

/-- The number that a numeral denotes. -/
def numeralValue (text : String) : ExtendedDouble :=
  match readFloat text.toList with
  | .ok x => x
  | .error _ => .nan

/-- The number that a run of numeral characters denotes, as a value. -/
def ofNumeral (text : String) : Datum :=
  match readInteger text.toList with
  | .ok n => .int n
  | .error _ => .numeral text

/-- The floating-point number nearest to a value that is a number. -/
def float? : Datum → Option ExtendedDouble
  | .int n => some (.ofInt n)
  | .float x => some x
  | .numeral text => some (numeralValue text)
  | _ => none

/-- An integer, or the nearest floating-point number if it leaves 64 bits. -/
def ofInt (n : Int) : Datum :=
  if isInt64 n then .int n else .float (.ofInt n)

/-! ## Objects -/

/-- The value bound to a key. -/
def field? (key : String) : List (String × Datum) → Option Datum
  | [] => none
  | (k, v) :: rest => if k = key then some v else field? key rest

/-- Binds a key; one that is already bound keeps its place. -/
def setField (key : String) (value : Datum) : List (String × Datum) → List (String × Datum)
  | [] => [(key, value)]
  | (k, v) :: rest =>
    if k = key then (key, value) :: rest else (k, v) :: setField key value rest

/-- Binds all keys of `above` on top of `below`. -/
def mergeFields (below above : List (String × Datum)) : List (String × Datum) :=
  above.foldl (fun entries (key, value) => setField key value entries) below

/-- The variables of a process as an object. -/
def ofEnvironment (listed : Variables) : Datum :=
  newObject (mergeFields [] (listed.map fun (name, value) => (name, .string value)))

/-- Entries in the order of their keys. -/
def sortFields (entries : List (String × Datum)) : List (String × Datum) :=
  entries.mergeSort fun a b => a.1 ≤ b.1

/-! ## Order -/

mutual

/-- A value with the entries of all its objects in the order of their keys. -/
def normal : Datum → Datum
  | .array origin items => .array origin (normalItems items)
  | .object origin entries => .object origin (sortFields (normalFields entries))
  | v => v

/-- The items of an array, each made normal. -/
def normalItems : List Datum → List Datum
  | [] => []
  | item :: items => item.normal :: normalItems items

/-- The entries of an object, each value made normal. -/
def normalFields : List (String × Datum) → List (String × Datum)
  | [] => []
  | (key, value) :: entries => (key, value.normal) :: normalFields entries

end

/-- The place of a kind in the order of kinds. -/
def kindRank : Datum → Nat
  | .null => 0
  | .bool _ => 1
  | .int _ | .float _ | .numeral _ => 2
  | .string _ => 3
  | .array _ _ => 4
  | .object _ _ => 5

/-- The order of lists of keys. -/
def compareKeys : List String → List String → Ordering
  | [], [] => .eq
  | [], _ :: _ => .lt
  | _ :: _, [] => .gt
  | a :: as, b :: bs => (Ord.compare a b).then (compareKeys as bs)

mutual

/-- The order of two normal values: by kind, then numbers by value, strings by
    code points, arrays item by item, and objects by their keys before their
    values. -/
def compareNormal : Datum → Datum → Ordering
  | .bool a, .bool b => Ord.compare a b
  | .int a, .int b => Ord.compare a b
  | .string a, .string b => Ord.compare a b
  | .array _ as, .array _ bs => compareItems as bs
  | .object _ as, .object _ bs =>
    (compareKeys (as.map Prod.fst) (bs.map Prod.fst)).then (compareFields as bs)
  | a, b =>
    match a.float?, b.float? with
    | some x, some y => x.compare y
    | _, _ => Ord.compare a.kindRank b.kindRank

/-- The order of two arrays. -/
def compareItems : List Datum → List Datum → Ordering
  | [], [] => .eq
  | [], _ :: _ => .lt
  | _ :: _, [] => .gt
  | a :: as, b :: bs => (compareNormal a b).then (compareItems as bs)

/-- The order of the values of two objects with the same keys. -/
def compareFields : List (String × Datum) → List (String × Datum) → Ordering
  | [], [] => .eq
  | [], _ :: _ => .lt
  | _ :: _, [] => .gt
  | (_, a) :: as, (_, b) :: bs => (compareNormal a b).then (compareFields as bs)

end

/-- The order of two values.  What is no number is less than any number, itself
    included. -/
def compare (a b : Datum) : Ordering :=
  compareNormal a.normal b.normal

/-! ## Equality -/

/-- Whether two arrays or two objects are one and the same. -/
def sameOrigin (a b : Option Place) : Bool :=
  a.isSome && a == b

mutual

/-- Whether two normal values are equal: arrays and objects if they are one and
    the same or hold equal values, others by their order. -/
def equalsNormal : Datum → Datum → Bool
  | .array p as, .array q bs => equalItems as bs || sameOrigin p q
  | .object p as, .object q bs => equalFields as bs || sameOrigin p q
  | a, b => compareNormal a b == .eq

/-- Whether two lists hold equal values. -/
def equalItems : List Datum → List Datum → Bool
  | [], [] => true
  | a :: as, b :: bs => equalsNormal a b && equalItems as bs
  | _, _ => false

/-- Whether two lists hold equal values under the same keys. -/
def equalFields : List (String × Datum) → List (String × Datum) → Bool
  | [], [] => true
  | (k, a) :: as, (l, b) :: bs => k == l && equalsNormal a b && equalFields as bs
  | _, _ => false

end

/-- Whether two values are equal.  An integer equals the floating-point number
    of the same value, and the order of object entries does not count. -/
def equals (a b : Datum) : Bool :=
  equalsNormal a.normal b.normal

end Datum

end LayeredConfig.Jq
