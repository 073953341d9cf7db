/-
  LayeredConfig.Jq.Builtin

  The filters that every program can call.

  A built-in filter is given by its name and by the number of its arguments.
  The arguments are filters themselves: a built-in filter may run them on the
  input, on parts of it, or not at all.
-/
import LayeredConfig.Jq.Step

namespace LayeredConfig.Jq

/-- What a built-in filter makes of its arguments and its input.  It may look
    at the variables of the process, and repeat itself as often as the fuel allows. -/
abbrev Behaviour :=
  Variables → (fuel : Nat) → List (Datum → Computation) → Datum → Computation

namespace Builtin

/-! ## Shapes of behaviours -/

/-- A function of the input. -/
def ofInput (f : Datum → Output) : Behaviour :=
  fun _ _ _ v => .single (f v)

/-- A function of the input and of each value of one argument. -/
def ofArgument (f : Datum → Datum → Output) : Behaviour
  | _, _, [a], v => (a v).map (f v)
  | _, _, _, _ => .done

/-- A function of the input and one argument. -/
def ofFilter (f : (Datum → Computation) → Datum → Computation) : Behaviour
  | _, _, [a], v => f a v
  | _, _, _, _ => .done

/-! ## Texts -/

/-- A function of texts. -/
def onText (f : String → Output) : Datum → Output
  | .string s => f s
  | v => raise (v.toText ++ " is no string")

/-- A function of two texts. -/
def onTexts (f : String → String → Datum) (v w : Datum) : Output :=
  onText (fun s => onText (fun t => .ok (f s t)) w) v

/-- The text behind a given beginning, or the whole text without it. -/
def behind (s start : String) : Datum :=
  match Text.stripStart? start.toList s.toList with
  | some rest => .string (String.ofList rest)
  | none => .string s

/-- The text in front of a given end, or the whole text without it. -/
def inFront (s finish : String) : Datum :=
  match Text.stripEnd? finish.toList s.toList with
  | some rest => .string (String.ofList rest)
  | none => .string s

/-- Whether one text occurs in another. -/
def occursIn (part : List Char) : List Char → Bool
  | [] => part.isEmpty
  | c :: s => part.isPrefixOf (c :: s) || occursIn part s

/-- A number, or the value of a JSON text, of whatever kind it is. -/
def toNumber : Datum → Output
  | .string s =>
    match Datum.ofText? s with
    | some v => .ok v
    | none => raise (s ++ " is no number")
  | v => if v.kind == "number" then .ok v else raise (v.toText ++ " is no number")

/-! ## Numbers -/

/-- The distance of a number from zero. -/
def magnitude : ExtendedDouble → ExtendedDouble
  | .finite x => .finite { x with negative := false }
  | .infinite _ => .infinite false
  | .nan => .nan

/-- How many characters, items or entries a value has, or how far a number is
    from zero. -/
def length : Datum → Output
  | .null => .ok (.int 0)
  | .string s => .ok (.int s.length)
  | .array _ items => .ok (.int items.length)
  | .object _ entries => .ok (.int entries.length)
  | .int n => .ok (.ofInt n.natAbs)
  | v =>
    match v.float? with
    | some x => .ok (.float (magnitude x))
    | none => raise (v.toText ++ " has no length")

/-- The integer of 64 bits that is nearest to a given one. -/
def clamp (n : Int) : Int :=
  max int64Min (min int64Max n)

/-- The greatest integer that is not greater than a number, or the end of the
    integers of 64 bits that lies nearest to it. -/
def floor : Datum → Output
  | .int n => .ok (.int n)
  | v =>
    match v.float? with
    | some (.finite x) => .ok (.int (clamp x.floor))
    | some (.infinite negative) => .ok (.int (if negative then int64Min else int64Max))
    | some .nan => .ok (.int 0)
    | none => raise (v.toText ++ " is no number")

/-- The square root of a number. -/
def sqrt (v : Datum) : Output :=
  match v.float? with
  | some x => .ok (.float x.sqrt)
  | none => raise (v.toText ++ " is no number")

/-- The numbers from `start` on in steps of `step`, up to and without `stop`. -/
def range (fuel : Nat) (step stop start : Datum) : Outputs :=
  match fuel with
  | 0 => .emit (.error .exhausted) fun _ => .done
  | fuel + 1 =>
    let inside : Bool :=
      -- a step of zero goes on for ever, unless there is no way to go
      match step.compare (.int 0) with
      | .gt => start.compare stop == .lt
      | .lt => start.compare stop == .gt
      | .eq => !start.equals stop
    if inside then
      .emit (.ok start) fun _ =>
        match start.add step with
        | .ok next => range fuel step stop next
        | .error fault => .emit (.error fault) fun _ => .done
    else .done

/-! ## Arrays and objects -/

/-- A function of arrays. -/
def onArray (f : List Datum → Datum) : Datum → Output
  | .array _ items => .ok (f items)
  | v => raise (v.toText ++ " is no array")

/-- Puts an item at its place in a list in decreasing order, in front of what is
    equal to it. -/
def insertDecreasing (v : Datum) : List Datum → List Datum
  | [] => [v]
  | w :: below => if v.compare w == .lt then w :: insertDecreasing v below else v :: w :: below

/-- The number of items up to which a list is sorted one item after the other. -/
def insertionLimit : Nat := 20

/-- Items in increasing order, and what is equal in its old order.  Among what is
    no number, each is less than the others, so the order depends on the way:
    in a short list the last one comes first. -/
def sorted (items : List Datum) : List Datum :=
  if items.length ≤ insertionLimit then
    (items.foldl (fun before v => insertDecreasing v before) []).reverse
  else items.mergeSort fun a b => a.compare b != .gt

/-- A sorted list without repetitions. -/
def distinct : List Datum → List Datum
  | [] => []
  | [v] => [v]
  | v :: w :: rest => if v.equals w then distinct (v :: rest) else v :: distinct (w :: rest)
termination_by items => items.length

/-- The keys of an object, or the positions of an array, in their order. -/
def keysInOrder : Datum → Except Fault (List Datum)
  | .object _ entries => .ok (entries.map fun (key, _) => .string key)
  | .array _ items => .ok ((List.range items.length).map fun i => .int (i : Nat))
  | v => raise (v.toText ++ " has no keys")

/-- The keys of an object, or the positions of an array, sorted. -/
def keys (v : Datum) : Output :=
  (keysInOrder v).map fun ks => .newArray (sorted ks)

/-- Whether an object has a key, or an array a position.  Here positions count
    from the start only. -/
def has : Datum → Datum → Output
  | .object _ entries, .string key => .ok (.bool (Datum.field? key entries).isSome)
  | .array _ items, .int (.ofNat n) => .ok (.bool (n < items.length))
  | v, key => raise ("cannot look for " ++ key.toText ++ " in " ++ v.kind)

mutual

/-- Whether a value contains another: a text as a part, an array as values that
    some items contain, an object as values that its own values contain. -/
def contains (v : Datum) : Datum → Bool
  | .string part =>
    match v with
    | .string s => occursIn part.toList s.toList
    | _ => false
  | .array _ parts =>
    match v with
    | .array _ items => containsItems items parts
    | _ => false
  | .object _ parts =>
    match v with
    | .object _ entries => containsFields entries parts
    | _ => false
  | w => v.equals w

/-- Whether for each of the given values some item contains it. -/
def containsItems (items : List Datum) : List Datum → Bool
  | [] => true
  | part :: parts => items.any (fun item => contains item part) && containsItems items parts

/-- Whether for each of the given fields the value of that key contains it. -/
def containsFields (entries : List (String × Datum)) : List (String × Datum) → Bool
  | [] => true
  | (key, part) :: parts =>
    (match Datum.field? key entries with
      | some v => contains v part
      | none => false) && containsFields entries parts

end

/-- The sum of a list of values; the empty sum is no value. -/
def sumOf (items : List Datum) : Output :=
  items.foldlM Datum.add .null

/-- The sum of everything that a value holds. -/
def sum (v : Datum) : Output := do
  sumOf (← v.items)

mutual

/-- What lies in arrays inside a value, at any depth, and is no array itself. -/
def leaves : Datum → List Datum
  | .array _ items => itemsLeaves items
  | v => [v]

/-- The leaves of all items of an array. -/
def itemsLeaves : List Datum → List Datum
  | [] => []
  | item :: items => leaves item ++ itemsLeaves items

end

mutual

/-- What a value holds, with the arrays among it dissolved as many levels deep as
    `depth` tells.  A depth that is not above zero leaves the value as it is. -/
def flatten (depth : Datum) : Datum → Output
  | .array origin items =>
    if depth.compare (.int 0) == .gt then do sumOf (← flattenItems depth items)
    else .ok (.array origin items)
  | .object origin entries =>
    if depth.compare (.int 0) == .gt then do sumOf (← flattenFields depth entries)
    else .ok (.object origin entries)
  | v =>
    if depth.compare (.int 0) == .gt then raise ("cannot iterate over " ++ v.kind) else .ok v

/-- Each item of an array as an array, dissolved if it is one. -/
def flattenItems (depth : Datum) : List Datum → Except Fault (List Datum)
  | [] => .ok []
  | .array origin inner :: items => do
    let first ← flatten (← depth.sub (.int 1)) (.array origin inner)
    return first :: (← flattenItems depth items)
  | item :: items => do
    return .newArray [item] :: (← flattenItems depth items)

/-- Each value of an object as an array, dissolved if it is one. -/
def flattenFields (depth : Datum) : List (String × Datum) → Except Fault (List Datum)
  | [] => .ok []
  | (_, .array origin inner) :: entries => do
    let first ← flatten (← depth.sub (.int 1)) (.array origin inner)
    return first :: (← flattenFields depth entries)
  | (_, value) :: entries => do
    return .newArray [value] :: (← flattenFields depth entries)

end

/-- The texts of the items of an array with a separator added between each two
    of them.  An empty array has the empty text. -/
def join (v separator : Datum) : Output :=
  match v with
  | .array _ [] => .ok (.string "")
  | .array _ items =>
    sumOf ((items.map fun item => Datum.string item.toText).intersperse separator)
  | v => raise (v.toText ++ " is no array")

/-- The entries of an object, or the items of an array with their positions, as
    objects of key and value. -/
def toEntries (v : Datum) : Output := do
  let entry (key value : Datum) : Datum := .newObject [("key", key), ("value", value)]
  return .newArray (List.zipWith entry (← keysInOrder v) (← v.items))

/-- The object of a list of objects of key and value. -/
def fromEntries (v : Datum) : Output := do
  let fields ← (← v.items).foldlM (fun fields entry => do
    let key ← onText (fun s => .ok (.string s)) (← entry.index (.string "key"))
    return Datum.setField key.toText (← entry.index (.string "value")) fields) []
  return .newObject fields

/-- The fields of an object with the first output of a filter for each, and
    without the field if it has none. -/
def mappedFields (f : Datum → Computation) (entries : List (String × Datum)) (place : Place) :
    Output := do
  let fields ← entries.zipIdx.foldlM (fun fields ((key, value), n) =>
    match ((f value).outputs (n :: place)).first? with
    | none => pure fields
    | some output => do
      return (key, ← output) :: fields) []
  return .newObject fields.reverse

/-- The items of an array replaced by all outputs of a filter, or the values of
    an object by the first. -/
def mapValues (f : Datum → Computation) : Datum → Computation
  | .array _ items => ((Computation.ofList items).bind f).toArray
  | .object _ entries => fun place => Computation.single (mappedFields f entries place) place
  | v => .failure ("cannot iterate over " ++ v.kind)

/-! ## Outputs -/

/-- Everything that a value holds, as outputs. -/
def each (v : Datum) : Computation :=
  match v.items with
  | .ok items => .ofList items
  | .error fault => .single (.error fault)

/-- The input, and again what the filter makes of what was put out. -/
def closure (fuel : Nat) (f : Datum → Computation) (v : Datum) : Computation :=
  match fuel with
  | 0 => .single (.error .exhausted)
  | fuel + 1 => (Computation.value v).append ((f v).bind (closure fuel f))

/-- The outputs of a filter on the input, again and again. -/
def repeated (fuel : Nat) (s : Computation) (place : Place) (after : Unit → Outputs) : Outputs :=
  match fuel with
  | 0 => .emit (.error .exhausted) after
  | fuel + 1 => s.append (repeated fuel s) place after

/-- An error for each output of a filter.  If there is none, nothing fails. -/
def errors (f : Datum → Computation) (v : Datum) : Computation :=
  .orIfNone id ((f v).map fun w => .error (.raised w)) (.value v)

/-- The values of a given kind. -/
def ofKind (p : Datum → Bool) : Behaviour :=
  fun _ _ _ v => if p v then .value v else .done

/-- What is known of all outputs of a computation as one output. -/
def summary (f : Outputs → Output) (s : Computation) : Computation :=
  fun place => Computation.single (f (s.outputs place)) place

/-- Whether some value of `s` has the truth `sought`; the answer is `answer` if
    so and its contrary if not. -/
def decideBy (sought answer : Bool) : (s : Computation) → Computation :=
  summary fun found => (found.someTruth sought).map fun v => .bool (v.truthy == answer)

/-- Whether a computation has no outputs.  If its first one is a fault, it is not
    known. -/
def isEmpty : (s : Computation) → Computation :=
  summary fun found =>
    match found.first? with
    | none => .ok (.bool true)
    | some output => output.map fun _ => .bool false

/-- The last output of a computation, if it has one. -/
def lastOf (s : Computation) : Computation :=
  fun place =>
    let found : Computation :=
      match (s.outputs place).last none with
      | .ok (some v) => .value v
      | .ok none => .done
      | .error fault => .single (.error fault)
    found place

/-- The greatest or the least item. -/
def extreme (replaces : Ordering → Bool) (items : List Datum) : Datum :=
  items.foldl (fun best v =>
    match best with
    | none => some v
    | some b => if replaces (v.compare b) then some v else some b) none |>.getD .null

/-- The sum of the outputs of a computation, one added to the other as they come. -/
def sumOutputs (s : Computation) : Computation :=
  s.overEach (.value .null) (Computation.foldOver fun v sum => .single (sum.add v))

/-! ## The table -/

/-- A built-in filter: its name, the number of its arguments, and what it does. -/
structure Entry where
  name : String
  arity : Nat
  behaviour : Behaviour

/-- All built-in filters. -/
def table : List Entry :=
  [⟨"null", 0, ofInput fun _ => .ok .null⟩,
   ⟨"true", 0, ofInput fun _ => .ok (.bool true)⟩,
   ⟨"false", 0, ofInput fun _ => .ok (.bool false)⟩,
   ⟨"empty", 0, fun _ _ _ _ => .done⟩,
   ⟨"error", 0, fun _ _ _ v => .single (.error (.raised v))⟩,
   ⟨"error", 1, ofFilter errors⟩,
   ⟨"not", 0, ofInput fun v => .ok (.bool !v.truthy)⟩,
   ⟨"type", 0, ofInput fun v => .ok (.string v.kind)⟩,
   ⟨"length", 0, ofInput length⟩,
   ⟨"floor", 0, ofInput floor⟩,
   ⟨"sqrt", 0, ofInput sqrt⟩,
   ⟨"infinite", 0, ofInput fun _ => .ok (.float (.infinite false))⟩,
   ⟨"nan", 0, ofInput fun _ => .ok (.float .nan)⟩,
   ⟨"tostring", 0, ofInput fun v => .ok (.string v.toText)⟩,
   ⟨"tonumber", 0, ofInput toNumber⟩,
   ⟨"ascii_downcase", 0, ofInput (onText fun s => .ok (.string (s.map Char.toLower)))⟩,
   ⟨"ascii_upcase", 0, ofInput (onText fun s => .ok (.string (s.map Char.toUpper)))⟩,
   ⟨"startswith", 1, ofArgument (onTexts fun s t => .bool (t.toList.isPrefixOf s.toList))⟩,
   ⟨"endswith", 1, ofArgument (onTexts fun s t => .bool (t.toList.isSuffixOf s.toList))⟩,
   ⟨"ltrimstr", 1, ofArgument (onTexts behind)⟩,
   ⟨"rtrimstr", 1, ofArgument (onTexts inFront)⟩,
   ⟨"split", 1, ofArgument (onTexts Datum.splitText)⟩,
   ⟨"join", 1, ofArgument join⟩,
   ⟨"contains", 1, ofArgument fun v w => .ok (.bool (contains v w))⟩,
   ⟨"has", 1, ofArgument has⟩,
   ⟨"keys", 0, ofInput keys⟩,
   ⟨"keys_unsorted", 0, ofInput fun v => (keysInOrder v).map .newArray⟩,
   ⟨"sort", 0, ofInput (onArray fun items => .newArray (sorted items))⟩,
   ⟨"unique", 0, ofInput (onArray fun items => .newArray (distinct (sorted items)))⟩,
   ⟨"reverse", 0, ofInput (onArray fun items => .newArray items.reverse)⟩,
   ⟨"add", 0, ofInput sum⟩,
   ⟨"add", 1, ofFilter fun f v => sumOutputs (f v)⟩,
   ⟨"max", 0, ofInput (onArray (extreme (· != .lt)))⟩,
   ⟨"min", 0, ofInput (onArray (extreme (· == .lt)))⟩,
   ⟨"flatten", 0, ofInput fun v => .ok (.newArray (leaves v))⟩,
   ⟨"flatten", 1, ofArgument fun v depth => flatten depth v⟩,
   ⟨"to_entries", 0, ofInput toEntries⟩,
   ⟨"from_entries", 0, ofInput fromEntries⟩,
   ⟨"map", 1, ofFilter fun f v => ((each v).bind f).toArray⟩,
   ⟨"map_values", 1, ofFilter mapValues⟩,
   ⟨"select", 1, ofFilter fun f v => (f v).bind fun w => if w.truthy then .value v else .done⟩,
   ⟨"values", 0, ofKind fun v => v.kind != "null"⟩,
   ⟨"nulls", 0, ofKind fun v => v.kind == "null"⟩,
   ⟨"booleans", 0, ofKind fun v => v.kind == "boolean"⟩,
   ⟨"numbers", 0, ofKind fun v => v.kind == "number"⟩,
   ⟨"strings", 0, ofKind fun v => v.kind == "string"⟩,
   ⟨"arrays", 0, ofKind fun v => v.kind == "array"⟩,
   ⟨"objects", 0, ofKind fun v => v.kind == "object"⟩,
   ⟨"any", 0, fun _ _ _ v => decideBy true true (each v)⟩,
   ⟨"any", 1, ofFilter fun f v => decideBy true true ((each v).bind f)⟩,
   ⟨"any", 2, fun _ _ arguments v => match arguments with
      | [g, f] => decideBy true true ((g v).bind f)
      | _ => .done⟩,
   ⟨"all", 0, fun _ _ _ v => decideBy false false (each v)⟩,
   ⟨"all", 1, ofFilter fun f v => decideBy false false ((each v).bind f)⟩,
   ⟨"all", 2, fun _ _ arguments v => match arguments with
      | [g, f] => decideBy false false ((g v).bind f)
      | _ => .done⟩,
   ⟨"isempty", 1, ofFilter fun g v => isEmpty (g v)⟩,
   ⟨"range", 1, fun _ fuel arguments v => match arguments with
      | [stop] => (stop v).bind fun stop => .ofOutputs (range fuel (.int 1) stop (.int 0))
      | _ => .done⟩,
   ⟨"range", 2, fun _ fuel arguments v => match arguments with
      | [start, stop] =>
        (start v).bind fun start => (stop v).bind fun stop =>
          .ofOutputs (range fuel (.int 1) stop start)
      | _ => .done⟩,
   ⟨"range", 3, fun _ fuel arguments v => match arguments with
      | [start, stop, step] =>
        (start v).bind fun start => (stop v).bind fun stop => (step v).bind fun step =>
          .ofOutputs (range fuel step stop start)
      | _ => .done⟩,
   ⟨"first", 0, ofInput fun v => v.index (.int 0)⟩,
   ⟨"first", 1, ofFilter fun f v => (f v).take 1⟩,
   ⟨"last", 0, ofInput fun v => v.index (.int (-1))⟩,
   ⟨"last", 1, ofFilter fun f v => lastOf (f v)⟩,
   ⟨"limit", 2, fun _ _ arguments v => match arguments with
      | [n, f] => (n v).bind fun
        | .int n => (f v).take n.toNat
        | n => .failure (n.toText ++ " is no number of outputs")
      | _ => .done⟩,
   ⟨"repeat", 1, fun _ fuel arguments v => match arguments with
      | [f] => repeated fuel (f v)
      | _ => .done⟩,
   ⟨"recurse", 0, fun _ _ _ v => .ofList v.descendants⟩,
   ⟨"recurse", 1, fun _ fuel arguments v => match arguments with
      | [f] => closure fuel f v
      | _ => .done⟩,
   ⟨"env", 0, fun listed _ _ _ => .value (.ofEnvironment listed)⟩]

/-- The names of the built-in filters with the numbers of their arguments. -/
def names : List (String × Nat) :=
  table.map fun entry => (entry.name, entry.arity)

/-- The built-in filter of a name and a number of arguments. -/
def find? (name : String) (arity : Nat) : Option Behaviour :=
  (table.find? fun entry => entry.name == name && entry.arity == arity).map (·.behaviour)

end Builtin

end LayeredConfig.Jq
