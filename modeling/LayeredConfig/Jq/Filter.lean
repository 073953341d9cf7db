/-
  LayeredConfig.Jq.Filter

  Programs as trees.

  A program is a filter: it takes an input and puts out any number of
  values.  Names of variables and of filters are kept as written; `Filter.closed`
  says whether all of them mean something where they stand.
-/

namespace LayeredConfig.Jq

/-- The comparisons. -/
inductive Comparison where
  | eq | ne | lt | le | gt | ge
  deriving DecidableEq

/-- The arithmetic operations. -/
inductive Operation where
  | add | sub | mul | div | rem
  deriving DecidableEq

/-- A parameter of a defined filter: a filter, or the values of one. -/
inductive Parameter where
  | filter (name : String)
  | variable (name : String)
  deriving DecidableEq

/-- The name that a parameter gives to a filter. -/
def Parameter.filter? : Parameter → Option String
  | .filter name => some name
  | .variable _ => none

/-- The name that a parameter gives to a value. -/
def Parameter.variable? : Parameter → Option String
  | .filter _ => none
  | .variable name => some name

/-- A step into a value: to everything in it, to what it holds at a key, or to
    the part between two bounds, of which either may be left out. -/
inductive Step (α : Type) where
  | iterate
  | index (key : α)
  | slice (low high : Option α)

/-- A filter. -/
inductive Filter where
  /-- The input itself. -/
  | identity
  /-- The input and everything inside it. -/
  | recurse
  | numeral (text : String)
  /-- A text with the values of filters inserted behind each part. -/
  | text (first : String) (inserts : List (Filter × String))
  | emptyArray
  /-- The array of all outputs. -/
  | array (body : Filter)
  | object (entries : List (Filter × Filter))
  | negate (f : Filter)
  | pipe (f g : Filter)
  /-- `g` with a variable for each output of `f`. -/
  | bind (f : Filter) (name : String) (g : Filter)
  | comma (f g : Filter)
  | alternative (f g : Filter)
  /-- Both truths (`conjunction`) or either. -/
  | logic (conjunction : Bool) (f g : Filter)
  | comparison (op : Comparison) (f g : Filter)
  | arithmetic (op : Operation) (f g : Filter)
  | condition (test whenTrue whenFalse : Filter)
  /-- `f` up to its first error, which is handed to `handler` if there is one. -/
  | attempt (f : Filter) (handler : Option Filter)
  | reduce (source : Filter) (name : String) (start update : Filter)
  | foreach (source : Filter) (name : String) (start update : Filter) (project : Option Filter)
  | define (name : String) (parameters : List Parameter) (body rest : Filter)
  | call (name : String) (arguments : List Filter)
  | variable (name : String)
  /-- Steps into what `f` puts out.  Errors of a step that is marked are left
      out. -/
  | path (f : Filter) (steps : List (Step Filter × Bool))

namespace Filter

/-! ## Closed filters -/

mutual

/-- Whether every variable and every called filter is one of the given ones or
    bound on the way.  Filters are told apart by the number of their arguments. -/
def closed (bound : List String) (filters : List (String × Nat)) : Filter → Bool
  | .identity | .recurse | .numeral _ | .emptyArray => true
  | .text _ inserts => closedInserts bound filters inserts
  | .object entries => closedEntries bound filters entries
  | .array f | .negate f => f.closed bound filters
  | .pipe f g | .comma f g | .alternative f g | .logic _ f g | .comparison _ f g
  | .arithmetic _ f g => f.closed bound filters && g.closed bound filters
  | .bind f name g => f.closed bound filters && g.closed (name :: bound) filters
  | .condition f g h =>
    f.closed bound filters && g.closed bound filters && h.closed bound filters
  | .attempt f handler => f.closed bound filters && closedOption bound filters handler
  | .reduce source name start update =>
    source.closed bound filters && start.closed bound filters
      && update.closed (name :: bound) filters
  | .foreach source name start update project =>
    source.closed bound filters && start.closed bound filters
      && update.closed (name :: bound) filters
      && closedOption (name :: bound) filters project
  | .define name parameters body rest =>
    let known := (name, parameters.length) :: filters
    body.closed (parameters.filterMap Parameter.variable? ++ bound)
        ((parameters.filterMap Parameter.filter?).map (fun name => (name, 0)) ++ known)
      && rest.closed bound known
  | .call name arguments =>
    filters.contains (name, arguments.length) && closedArguments bound filters arguments
  | .variable name => bound.contains name
  | .path f steps => f.closed bound filters && closedSteps bound filters steps

/-- Whether an optional filter is closed. -/
def closedOption (bound : List String) (filters : List (String × Nat)) : Option Filter → Bool
  | none => true
  | some f => f.closed bound filters

/-- Whether all arguments of a call are closed. -/
def closedArguments (bound : List String) (filters : List (String × Nat)) : List Filter → Bool
  | [] => true
  | f :: rest => f.closed bound filters && closedArguments bound filters rest

/-- Whether all filters inserted into a text are closed. -/
def closedInserts (bound : List String) (filters : List (String × Nat)) :
    List (Filter × String) → Bool
  | [] => true
  | (f, _) :: rest => f.closed bound filters && closedInserts bound filters rest

/-- Whether all keys and values of an object are closed. -/
def closedEntries (bound : List String) (filters : List (String × Nat)) :
    List (Filter × Filter) → Bool
  | [] => true
  | (f, g) :: rest =>
    f.closed bound filters && g.closed bound filters
      && closedEntries bound filters rest

/-- Whether all keys and bounds of the steps of a path are closed. -/
def closedSteps (bound : List String) (filters : List (String × Nat)) :
    List (Step Filter × Bool) → Bool
  | [] => true
  | (step, _) :: rest => closedStep bound filters step && closedSteps bound filters rest

/-- Whether the key or the bounds of a step are closed. -/
def closedStep (bound : List String) (filters : List (String × Nat)) : Step Filter → Bool
  | .iterate => true
  | .index key => key.closed bound filters
  | .slice low high => closedOption bound filters low && closedOption bound filters high

end

end Filter

end LayeredConfig.Jq
