/-
  LayeredConfig.Jq.Eval

  Running filters.

  A scope says what the names of variables and filters mean at a place.  The
  body of a defined filter is run in the scope in which it was defined, itself
  included; an argument is run in the scope of the call.  Running takes one
  unit of fuel for each filter inside another; whatever ends at all ends with
  enough fuel, and with the same outputs.  A filter that makes arrays or objects
  makes them at the place where it runs (`Computation.settled`).
-/
import LayeredConfig.Jq.Builtin

namespace LayeredConfig.Jq

/-- What names mean, innermost first. -/
inductive Scope where
  | top
  | variable (name : String) (value : Datum) (outer : Scope)
  | definition (name : String) (parameters : List Parameter) (body : Filter) (outer : Scope)
  /-- A parameter that stands for a filter in the scope of a call. -/
  | argument (name : String) (body : Filter) (home outer : Scope)

/-- What a called filter is, with the scope that it runs in. -/
inductive Callee where
  | defined (parameters : List Parameter) (body : Filter) (home : Scope)
  | argument (body : Filter) (home : Scope)

namespace Scope

/-- The value of a variable. -/
def value? (name : String) : Scope → Option Datum
  | .top => none
  | .variable n v outer => if n = name then some v else outer.value? name
  | .definition _ _ _ outer | .argument _ _ _ outer => outer.value? name

/-- The filter of a name and a number of arguments. -/
def callee? (name : String) (arity : Nat) : Scope → Option Callee
  | .top => none
  | .variable _ _ outer => outer.callee? name arity
  | .definition n parameters body outer =>
    if n = name ∧ parameters.length = arity then
      -- the definition is in scope in its own body
      some (.defined parameters body (.definition n parameters body outer))
    else outer.callee? name arity
  | .argument n body home outer =>
    if n = name ∧ arity = 0 then some (.argument body home) else outer.callee? name arity

/-- Binds parameters to the arguments of a call in the scope `caller`, and goes
    on with the scope that results.  A parameter for values takes each value of
    its argument in turn. -/
def enter (run : Filter → Computation) (caller : Scope) (body : Scope → Computation) :
    List (Parameter × Filter) → Scope → Computation
  | [], inner => body inner
  | (.filter name, f) :: rest, inner =>
    enter run caller body rest (.argument name f caller inner)
  | (.variable name, f) :: rest, inner =>
    (run f).bind fun v => enter run caller body rest (.variable name v inner)

end Scope

/-! ## Filters made of filters -/

/-- Texts with the values of filters behind each of them. -/
def insertTexts (run : Filter → Computation) (before : Computation) :
    List (Filter × String) → Computation
  | [] => before
  | (f, part) :: rest =>
    insertTexts run (before.product (run f) fun s v =>
      .ok (.string (s.toText ++ v.toText ++ part))) rest

/-- The object of one entry.  Only texts are keys. -/
def singleField (key value : Datum) : Output :=
  match key with
  | .string key => .ok (.newObject [(key, value)])
  | key => raise (key.toText ++ " is no key")

/-- Objects with entries added to each of them. -/
def addFields (run : Filter → Computation) (before : Computation) :
    List (Filter × Filter) → Computation
  | [] => before
  | (key, f) :: rest =>
    addFields run (before.product ((run key).product (run f) singleField) Datum.add) rest

/-- The outputs of a filter that may be left out. -/
def runOption (run : Filter → Computation) (f : Option Filter)
    (body : Except Fault (Option Datum) → Computation) : Computation :=
  match f with
  | none => body (.ok none)
  | some f => (run f).bindOutput fun output => body (output.map some)

/-- The ways to put values for the keys and bounds of steps, the later ones
    changing faster.  `body` is run on each of them, with the steps in `before`
    in front, last one first.  A fault among the values shows only once all
    steps have theirs. -/
def runSteps (run : Filter → Computation) (body : List (Step Datum × Bool) → Computation)
    (before : Except Fault (List (Step Datum × Bool))) :
    List (Step Filter × Bool) → Computation
  | [] =>
    match before with
    | .ok steps => body steps.reverse
    | .error fault => .single (.error fault)
  | (.iterate, lenient) :: rest =>
    runSteps run body (before.map fun steps => (.iterate, lenient) :: steps) rest
  | (.index key, lenient) :: rest =>
    (run key).bindOutput fun k =>
      let before := do
        let steps ← before
        let k ← k
        return (.index k, lenient) :: steps
      runSteps run body before rest
  | (.slice low high, lenient) :: rest =>
    runOption run low fun a => runOption run high fun b =>
      let before := do
        let steps ← before
        let a ← a
        let b ← b
        return (.slice a b, lenient) :: steps
      runSteps run body before rest

/-- The outputs of a filter in a scope on an input. -/
def eval (listed : Variables) : (fuel : Nat) → Filter → Scope → Datum → Computation
  | 0, _, _, _ => .single (.error .exhausted)
  | fuel + 1, filter, scope, v =>
    let run (f : Filter) : Computation := eval listed fuel f scope v
    match filter with
    | .identity => .value v
    | .recurse => .ofList v.descendants
    | .numeral text => .value (.ofNumeral text)
    | .text first inserts => insertTexts run (.value (.string first)) inserts
    | .emptyArray => .value (.newArray [])
    | .array f => (run f).toArray.settled
    | .object entries => (addFields run (.value (.newObject [])) entries).settled
    | .negate f => (run f).map Datum.negate
    | .pipe f g => (run f).bind fun w => eval listed fuel g scope w
    | .bind f name g =>
      (run f).bind fun w => eval listed fuel g (.variable name w scope) v
    | .comma f g => (run f).append (run g)
    | .alternative f g => (run f).orElse (run g)
    | .logic conjunction f g =>
      (run f).bind fun a =>
        -- otherwise the first operand has decided
        if a.truthy = conjunction then (run g).map fun b => .ok (.bool b.truthy)
        else .value (.bool a.truthy)
    | .comparison op f g =>
      (run f).product (run g) fun a b => .ok (.bool (Datum.holds op a b))
    | .arithmetic op f g => ((run f).product (run g) (Datum.calculate op)).settled
    | .condition test f g => (run test).bind fun t => if t.truthy then run f else run g
    | .attempt f handler =>
      (run f).recover fun e =>
        match handler with
        | none => .done
        | some h => eval listed fuel h scope e
    | .reduce source name start update =>
      (run source).overEach (run start) (Computation.foldOver fun x state =>
        eval listed fuel update (.variable name x scope) state)
    | .foreach source name start update project =>
      (run source).overEach (run start) (Computation.scanOver
        (fun x state => eval listed fuel update (.variable name x scope) state)
        (fun x state =>
          match project with
          | none => .value state
          | some f => eval listed fuel f (.variable name x scope) state))
    | .define name parameters body rest =>
      eval listed fuel rest (.definition name parameters body scope) v
    | .call name arguments =>
      match scope.callee? name arguments.length with
      | some (.argument body home) => eval listed fuel body home v
      | some (.defined parameters body home) =>
        Scope.enter run scope (fun inner => eval listed fuel body inner v)
          (parameters.zip arguments) home
      | none =>
        match Builtin.find? name arguments.length with
        | some behaviour =>
          (behaviour listed fuel (arguments.map fun f w => eval listed fuel f scope w)
            v).settled
        | none => .failure (name ++ " is not defined")
    | .variable name =>
      match scope.value? name with
      | some w => .value w
      | none => .failure ("$" ++ name ++ " is not defined")
    | .path f steps =>
      -- the keys of all steps are there before the first step is taken
      ((run f).bind fun w => runSteps run (fun steps => w.walk steps) (.ok []) steps).settled

end LayeredConfig.Jq
