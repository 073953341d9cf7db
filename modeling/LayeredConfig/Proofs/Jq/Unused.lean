/-
  LayeredConfig.Proofs.Jq.Unused

  Variables that a filter does not use.

  A filter that does not use a variable is closed, and runs, with the variable as
  without it.  A scope holds filters too: the bodies of definitions and the
  arguments of calls.  So what is carried through a run is that neither the filter
  nor any filter in the scope uses the variable, which is bound below everything
  else (`eval_onto`).
-/
import LayeredConfig.Proofs.Jq.Congruence

namespace LayeredConfig.Jq

variable {name : String}

/-! ## Filters without a variable -/

namespace Filter

mutual

/-- Whether a filter does not use a variable of a name, bound or not. -/
def avoids (name : String) : Filter → Bool
  | .identity | .recurse | .numeral _ | .emptyArray => true
  | .text _ inserts => avoidsInserts name inserts
  | .object entries => avoidsEntries name entries
  | .array f | .negate f => f.avoids name
  | .pipe f g | .comma f g | .alternative f g | .logic _ f g | .comparison _ f g
  | .arithmetic _ f g | .bind f _ g | .define _ _ f g => f.avoids name && g.avoids name
  | .condition f g h => f.avoids name && g.avoids name && h.avoids name
  | .attempt f handler => f.avoids name && avoidsOption name handler
  | .reduce source _ start update =>
    source.avoids name && start.avoids name && update.avoids name
  | .foreach source _ start update project =>
    source.avoids name && start.avoids name && update.avoids name && avoidsOption name project
  | .call _ arguments => avoidsArguments name arguments
  | .variable used => used != name
  | .path f steps => f.avoids name && avoidsSteps name steps

/-- Whether an optional filter does not use a variable. -/
def avoidsOption (name : String) : Option Filter → Bool
  | none => true
  | some f => f.avoids name

/-- Whether no argument of a call uses a variable. -/
def avoidsArguments (name : String) : List Filter → Bool
  | [] => true
  | f :: rest => f.avoids name && avoidsArguments name rest

/-- Whether no filter inserted into a text uses a variable. -/
def avoidsInserts (name : String) : List (Filter × String) → Bool
  | [] => true
  | (f, _) :: rest => f.avoids name && avoidsInserts name rest

/-- Whether no key and no value of an object uses a variable. -/
def avoidsEntries (name : String) : List (Filter × Filter) → Bool
  | [] => true
  | (f, g) :: rest => f.avoids name && g.avoids name && avoidsEntries name rest

/-- Whether no key and no bound of the steps of a path uses a variable. -/
def avoidsSteps (name : String) : List (Step Filter × Bool) → Bool
  | [] => true
  | (step, _) :: rest => avoidsStep name step && avoidsSteps name rest

/-- Whether the key or the bounds of a step do not use a variable. -/
def avoidsStep (name : String) : Step Filter → Bool
  | .iterate => true
  | .index key => key.avoids name
  | .slice low high => avoidsOption name low && avoidsOption name high

end

/-! ## Closed filters -/

mutual

/-- A variable that is not used may be bound, outside or inside of others. -/
theorem closed_insert (before after : List String) {filters : List (String × Nat)} :
    (f : Filter) → f.avoids name = true →
      f.closed (before ++ name :: after) filters = f.closed (before ++ after) filters
  | .identity, _ | .recurse, _ | .numeral _, _ | .emptyArray, _ => rfl
  | .text _ inserts, h => by
    simp only [avoids] at h
    simp only [closed, closedInserts_insert before after inserts h]
  | .object entries, h => by
    simp only [avoids] at h
    simp only [closed, closedEntries_insert before after entries h]
  | .array f, h | .negate f, h => by
    simp only [avoids] at h
    simp only [closed, closed_insert before after f h]
  | .pipe f g, h | .comma f g, h | .alternative f g, h | .logic _ f g, h
  | .comparison _ f g, h | .arithmetic _ f g, h => by
    simp only [avoids, Bool.and_eq_true] at h
    simp only [closed, closed_insert before after f h.1, closed_insert before after g h.2]
  | .bind f bound g, h => by
    simp only [avoids, Bool.and_eq_true] at h
    have hg : g.closed (bound :: (before ++ name :: after)) filters
        = g.closed (bound :: (before ++ after)) filters :=
      closed_insert (bound :: before) after g h.2
    simp only [closed, closed_insert before after f h.1, hg]
  | .condition f g k, h => by
    simp only [avoids, Bool.and_eq_true] at h
    simp only [closed, closed_insert before after f h.1.1, closed_insert before after g h.1.2,
      closed_insert before after k h.2]
  | .attempt f handler, h => by
    simp only [avoids, Bool.and_eq_true] at h
    simp only [closed, closed_insert before after f h.1,
      closedOption_insert before after handler h.2]
  | .reduce source bound start update, h => by
    simp only [avoids, Bool.and_eq_true] at h
    have hupdate : update.closed (bound :: (before ++ name :: after)) filters
        = update.closed (bound :: (before ++ after)) filters :=
      closed_insert (bound :: before) after update h.2
    simp only [closed, closed_insert before after source h.1.1,
      closed_insert before after start h.1.2, hupdate]
  | .foreach source bound start update project, h => by
    simp only [avoids, Bool.and_eq_true] at h
    have hupdate : update.closed (bound :: (before ++ name :: after)) filters
        = update.closed (bound :: (before ++ after)) filters :=
      closed_insert (bound :: before) after update h.1.2
    have hproject : closedOption (bound :: (before ++ name :: after)) filters project
        = closedOption (bound :: (before ++ after)) filters project :=
      closedOption_insert (bound :: before) after project h.2
    simp only [closed, closed_insert before after source h.1.1.1,
      closed_insert before after start h.1.1.2, hupdate, hproject]
  | .define defined parameters body rest, h => by
    simp only [avoids, Bool.and_eq_true] at h
    have hbody (known : List (String × Nat)) :
        body.closed (parameters.filterMap Parameter.variable? ++ (before ++ name :: after)) known
          = body.closed (parameters.filterMap Parameter.variable? ++ (before ++ after)) known := by
      rw [← List.append_assoc, ← List.append_assoc]
      exact closed_insert _ after body h.1
    simp only [closed, closed_insert before after rest h.2, hbody]
  | .call _ arguments, h => by
    simp only [avoids] at h
    simp only [closed, closedArguments_insert before after arguments h]
  | .variable used, h => by
    simp only [avoids, bne_iff_ne, ne_eq] at h
    simp [closed, h]
  | .path f steps, h => by
    simp only [avoids, Bool.and_eq_true] at h
    simp only [closed, closed_insert before after f h.1, closedSteps_insert before after steps h.2]

theorem closedOption_insert (before after : List String) {filters : List (String × Nat)} :
    (f : Option Filter) → avoidsOption name f = true →
      closedOption (before ++ name :: after) filters f
        = closedOption (before ++ after) filters f
  | none, _ => rfl
  | some f, h => by
    simp only [avoidsOption] at h
    simp only [closedOption, closed_insert before after f h]

theorem closedArguments_insert (before after : List String) {filters : List (String × Nat)} :
    (arguments : List Filter) → avoidsArguments name arguments = true →
      closedArguments (before ++ name :: after) filters arguments
        = closedArguments (before ++ after) filters arguments
  | [], _ => rfl
  | f :: rest, h => by
    simp only [avoidsArguments, Bool.and_eq_true] at h
    simp only [closedArguments, closed_insert before after f h.1,
      closedArguments_insert before after rest h.2]

theorem closedInserts_insert (before after : List String) {filters : List (String × Nat)} :
    (inserts : List (Filter × String)) → avoidsInserts name inserts = true →
      closedInserts (before ++ name :: after) filters inserts
        = closedInserts (before ++ after) filters inserts
  | [], _ => rfl
  | (f, _) :: rest, h => by
    simp only [avoidsInserts, Bool.and_eq_true] at h
    simp only [closedInserts, closed_insert before after f h.1,
      closedInserts_insert before after rest h.2]

theorem closedEntries_insert (before after : List String) {filters : List (String × Nat)} :
    (entries : List (Filter × Filter)) → avoidsEntries name entries = true →
      closedEntries (before ++ name :: after) filters entries
        = closedEntries (before ++ after) filters entries
  | [], _ => rfl
  | (f, g) :: rest, h => by
    simp only [avoidsEntries, Bool.and_eq_true] at h
    simp only [closedEntries, closed_insert before after f h.1.1,
      closed_insert before after g h.1.2, closedEntries_insert before after rest h.2]

theorem closedSteps_insert (before after : List String) {filters : List (String × Nat)} :
    (steps : List (Step Filter × Bool)) → avoidsSteps name steps = true →
      closedSteps (before ++ name :: after) filters steps
        = closedSteps (before ++ after) filters steps
  | [], _ => rfl
  | (step, _) :: rest, h => by
    simp only [avoidsSteps, Bool.and_eq_true] at h
    simp only [closedSteps, closedStep_insert before after step h.1,
      closedSteps_insert before after rest h.2]

theorem closedStep_insert (before after : List String) {filters : List (String × Nat)} :
    (step : Step Filter) → avoidsStep name step = true →
      closedStep (before ++ name :: after) filters step
        = closedStep (before ++ after) filters step
  | .iterate, _ => rfl
  | .index key, h => by
    simp only [avoidsStep] at h
    simp only [closedStep, closed_insert before after key h]
  | .slice low high, h => by
    simp only [avoidsStep, Bool.and_eq_true] at h
    simp only [closedStep, closedOption_insert before after low h.1,
      closedOption_insert before after high h.2]

end

end Filter

/-! ## Scopes without a variable -/

namespace Scope

/-- A scope with another one below it. -/
def onto (scope base : Scope) : Scope :=
  match scope with
  | .top => base
  | .variable bound value outer => .variable bound value (outer.onto base)
  | .definition defined parameters body outer =>
    .definition defined parameters body (outer.onto base)
  | .argument parameter body home outer =>
    .argument parameter body (home.onto base) (outer.onto base)

/-- No filter in the scope uses a variable of the name. -/
def Avoids (name : String) : Scope → Prop
  | .top => True
  | .variable _ _ outer => outer.Avoids name
  | .definition _ _ body outer => body.avoids name = true ∧ outer.Avoids name
  | .argument _ body home outer =>
    body.avoids name = true ∧ home.Avoids name ∧ outer.Avoids name

end Scope

namespace Callee

/-- A called filter with another scope below its own. -/
def onto (base : Scope) : Callee → Callee
  | .defined parameters body home => .defined parameters body (home.onto base)
  | .argument body home => .argument body (home.onto base)

/-- Neither the called filter nor any in its scope uses a variable of the name. -/
def Avoids (name : String) : Callee → Prop
  | .defined _ body home | .argument body home => body.avoids name = true ∧ home.Avoids name

end Callee

namespace Scope

variable {value : Datum}

theorem value?_onto {used : String} (hused : used ≠ name) (scope : Scope) :
    (scope.onto (.variable name value .top)).value? used = scope.value? used := by
  induction scope with
  | top => simp [onto, value?, Ne.symm hused]
  | «variable» bound v outer ih => simp only [onto, value?, ih]
  | definition defined parameters body outer ih => simp only [onto, value?, ih]
  | argument parameter body home outer _ ih => simp only [onto, value?, ih]

theorem callee?_onto (called : String) (arity : Nat) (scope : Scope) :
    (scope.onto (.variable name value .top)).callee? called arity
      = (scope.callee? called arity).map (Callee.onto (.variable name value .top)) := by
  induction scope with
  | top => rfl
  | «variable» bound v outer ih => simp only [onto, callee?, ih]
  | definition defined parameters body outer ih =>
    simp only [onto, callee?, ih]
    split <;> rfl
  | argument parameter body home outer _ ih =>
    simp only [onto, callee?, ih]
    split <;> rfl

theorem Avoids.callee? {called : String} {arity : Nat} {scope : Scope} {callee : Callee}
    (h : scope.Avoids name) (hcallee : scope.callee? called arity = some callee) :
    callee.Avoids name := by
  induction scope with
  | top => cases hcallee
  | «variable» bound v outer ih => exact ih h hcallee
  | definition defined parameters body outer ih =>
    simp only [Scope.callee?] at hcallee
    split at hcallee
    · cases hcallee
      exact ⟨h.1, h⟩
    · exact ih h.2 hcallee
  | argument parameter body home outer _ ih =>
    simp only [Scope.callee?] at hcallee
    split at hcallee
    · cases hcallee
      exact ⟨h.1, h.2.1⟩
    · exact ih h.2.2 hcallee

end Scope

/-! ## The filters inside of one -/

theorem avoids_of_mem_arguments {arguments : List Filter}
    (h : Filter.avoidsArguments name arguments = true) :
    ∀ f ∈ arguments, f.avoids name = true := by
  induction arguments with
  | nil => simp
  | cons f rest ih =>
    simp only [Filter.avoidsArguments, Bool.and_eq_true] at h
    exact List.forall_mem_cons.mpr ⟨h.1, ih h.2⟩

theorem avoids_of_mem_inserts {inserts : List (Filter × String)}
    (h : Filter.avoidsInserts name inserts = true) :
    ∀ insert ∈ inserts, insert.1.avoids name = true := by
  induction inserts with
  | nil => simp
  | cons insert rest ih =>
    simp only [Filter.avoidsInserts, Bool.and_eq_true] at h
    exact List.forall_mem_cons.mpr ⟨h.1, ih h.2⟩

theorem avoids_of_mem_entries {entries : List (Filter × Filter)}
    (h : Filter.avoidsEntries name entries = true) :
    ∀ entry ∈ entries, entry.1.avoids name = true ∧ entry.2.avoids name = true := by
  induction entries with
  | nil => simp
  | cons entry rest ih =>
    simp only [Filter.avoidsEntries, Bool.and_eq_true] at h
    exact List.forall_mem_cons.mpr ⟨h.1, ih h.2⟩

theorem avoids_of_mem_option {f : Option Filter} (h : Filter.avoidsOption name f = true) :
    ∀ g ∈ f.toList, g.avoids name = true := by
  cases f with
  | none => simp
  | some f => simpa [Filter.avoidsOption] using h

theorem avoids_of_mem_steps {steps : List (Step Filter × Bool)}
    (h : Filter.avoidsSteps name steps = true) :
    ∀ step ∈ steps, ∀ f ∈ step.1.filters, f.avoids name = true := by
  induction steps with
  | nil => simp
  | cons first rest ih =>
    obtain ⟨step, lenient⟩ := first
    simp only [Filter.avoidsSteps, Bool.and_eq_true] at h
    refine List.forall_mem_cons.mpr ⟨?_, ih h.2⟩
    cases step with
    | iterate => simp [Step.filters]
    | index key => simpa [Step.filters, Filter.avoidsStep] using h.1
    | slice low high =>
      simp only [Filter.avoidsStep, Bool.and_eq_true] at h
      exact List.forall_mem_append.mpr
        ⟨avoids_of_mem_option h.1.1, avoids_of_mem_option h.1.2⟩

/-! ## Running without a variable -/

theorem Scope.enter_onto {run run' : Filter → Computation} {base caller : Scope}
    {body body' : Scope → Computation}
    (hrun : ∀ f, f.avoids name = true → run' f = run f)
    (hbody : ∀ scope, scope.Avoids name → body' (scope.onto base) = body scope)
    {bindings : List (Parameter × Filter)}
    (hbindings : ∀ binding ∈ bindings, binding.2.avoids name = true)
    (hcaller : caller.Avoids name) (inner : Scope) (hinner : inner.Avoids name) :
    Scope.enter run' (caller.onto base) body' bindings (inner.onto base)
      = Scope.enter run caller body bindings inner := by
  induction bindings generalizing inner with
  | nil => exact hbody inner hinner
  | cons binding rest ih =>
    obtain ⟨parameter, f⟩ := binding
    obtain ⟨hf, hrest⟩ := List.forall_mem_cons.mp hbindings
    cases parameter with
    | filter parameter =>
      exact ih hrest (.argument parameter f caller inner) ⟨hf, hcaller, hinner⟩
    | «variable» parameter =>
      simp only [Scope.enter, hrun f hf]
      congr 1
      funext v
      exact ih hrest (.variable parameter v inner) hinner

/-- A filter runs alike whether a variable that it does not use is bound or not. -/
theorem eval_onto {listed : Variables} {value : Datum} (fuel : Nat) {f : Filter}
    (scope : Scope) (v : Datum) (hf : f.avoids name = true) (hscope : scope.Avoids name) :
    eval listed fuel f (scope.onto (.variable name value .top)) v
      = eval listed fuel f scope v := by
  -- on the fuel, since a body runs in a scope that is no part of this one
  induction fuel generalizing f scope v with
  | zero => rfl
  | succ fuel ih =>
    have hrun (f : Filter) (h : f.avoids name = true) :
        eval listed fuel f (scope.onto (.variable name value .top)) v
          = eval listed fuel f scope v := ih scope v h hscope
    cases f with
    | identity | recurse | numeral _ | emptyArray => rfl
    | text first inserts =>
      exact insertTexts_congr (fun insert hmem =>
        hrun insert.1 (avoids_of_mem_inserts hf insert hmem)) _
    | array f => simp only [eval, hrun f hf]
    | object entries =>
      exact congrArg Computation.settled (addFields_congr (fun entry hmem =>
        (avoids_of_mem_entries hf entry hmem).imp (hrun entry.1) (hrun entry.2)) _)
    | negate f => simp only [eval, hrun f hf]
    | pipe f g =>
      simp only [Filter.avoids, Bool.and_eq_true] at hf
      simp only [eval, hrun f hf.1, ih scope _ hf.2 hscope]
    | bind f bound g =>
      simp only [Filter.avoids, Bool.and_eq_true] at hf
      -- what is bound here stands above the variable that is not used
      have hg (w : Datum) := ih (.variable bound w scope) v hf.2 hscope
      simp only [Scope.onto] at hg
      simp only [eval, hrun f hf.1, hg]
    | comma f g | alternative f g | logic _ f g | comparison _ f g | arithmetic _ f g =>
      simp only [Filter.avoids, Bool.and_eq_true] at hf
      simp only [eval, hrun f hf.1, hrun g hf.2]
    | condition test f g =>
      simp only [Filter.avoids, Bool.and_eq_true] at hf
      simp only [eval, hrun test hf.1.1, hrun f hf.1.2, hrun g hf.2]
    | attempt f handler =>
      simp only [Filter.avoids, Bool.and_eq_true] at hf
      cases handler with
      | none => simp only [eval, hrun f hf.1]
      | some handler => simp only [eval, hrun f hf.1, ih scope _ hf.2 hscope]
    | reduce source bound start update =>
      simp only [Filter.avoids, Bool.and_eq_true] at hf
      have hupdate (x state : Datum) := ih (.variable bound x scope) state hf.2 hscope
      simp only [Scope.onto] at hupdate
      simp only [eval, hrun source hf.1.1, hrun start hf.1.2, hupdate]
    | foreach source bound start update project =>
      simp only [Filter.avoids, Bool.and_eq_true] at hf
      have hupdate (x state : Datum) := ih (.variable bound x scope) state hf.1.2 hscope
      simp only [Scope.onto] at hupdate
      cases project with
      | none => simp only [eval, hrun source hf.1.1.1, hrun start hf.1.1.2, hupdate]
      | some project =>
        have hproject (x state : Datum) := ih (.variable bound x scope) state hf.2 hscope
        simp only [Scope.onto] at hproject
        simp only [eval, hrun source hf.1.1.1, hrun start hf.1.1.2, hupdate, hproject]
    | define defined parameters body rest =>
      simp only [Filter.avoids, Bool.and_eq_true] at hf
      exact ih (.definition defined parameters body scope) v hf.2 ⟨hf.1, hscope⟩
    | call called arguments =>
      have harguments := avoids_of_mem_arguments hf
      simp only [eval, Scope.callee?_onto]
      cases hcallee : scope.callee? called arguments.length with
      | none =>
        -- a filter of the language sees the scope only through its arguments
        have heach : arguments.map (fun f w => eval listed fuel f
              (scope.onto (.variable name value .top)) w)
            = arguments.map fun f w => eval listed fuel f scope w :=
          List.map_congr_left fun f hmem => funext fun w => ih scope w (harguments f hmem) hscope
        simp only [Option.map_none, heach]
      | some callee =>
        have havoids := hscope.callee? hcallee
        cases callee with
        | argument body home => exact ih home v havoids.1 havoids.2
        | defined parameters body home =>
          -- the body runs where it is defined, the arguments where they are given
          exact Scope.enter_onto hrun (fun inner hinner => ih inner v havoids.1 hinner)
            (fun binding hmem => harguments _ (List.of_mem_zip hmem).2) hscope home havoids.2
    | «variable» used =>
      simp only [Filter.avoids, bne_iff_ne, ne_eq] at hf
      simp only [eval, Scope.value?_onto hf]
    | path f steps =>
      simp only [Filter.avoids, Bool.and_eq_true] at hf
      simp only [eval, hrun f hf.1]
      congr 2
      funext w
      exact runSteps_congr (fun step hmem g hg =>
        hrun g (avoids_of_mem_steps hf.2 step hmem g hg)) _ _

end LayeredConfig.Jq
