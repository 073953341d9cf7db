/-
  LayeredConfig.Proofs.Jq.Laws

  The laws of engines for the engine of the library.

  A program in which the input is bound to a variable begins further out than the
  source in its parentheses (`Start.of`), by what the binding takes.  So the source
  begins alike in both, and the two run alike from there on (`binds`).  A variable
  that is not written in a program is not among its tokens, hence not in its filter,
  which neither is closed nor runs otherwise for it (`ignores`).
-/
import LayeredConfig.Proofs.Expression.Laws
import LayeredConfig.Proofs.Jq.Bindings
import LayeredConfig.Proofs.Jq.Tokens
import LayeredConfig.Proofs.Jq.Unused

namespace LayeredConfig.Jq

variable {listed : Variables} {bound : List (String × Value)} {name program : String}
  {input : Value} {f : Filter}

/-! ## Programs -/

theorem compile_eq_ok {names : List String} (hprogram : Filter.ofProgram program = some f)
    (hclosed : f.closed names Builtin.names = true) : engine.compile names program = .ok () := by
  simp only [engine, compile, hprogram, hclosed, if_true]
  rfl

/-- A program runs as the filter that it denotes. -/
theorem first_eq (hprogram : Filter.ofProgram program = some f)
    (hclosed : f.closed (bound.map Prod.fst) Builtin.names = true) :
    engine.first listed bound program input
      = (firstValue listed (.of program) (.ofBound bound) f (.ofValue input)).mapError
          Failure.message := by
  simp only [engine, run, compile, hprogram, hclosed, if_true]
  rfl

/-- The first output of the filter that a program denotes, all of whose names have to
    exist. -/
theorem firstOutput?_eq :
    engine.firstOutput? listed bound program input
      = (Filter.ofProgram program).bind fun f =>
        if f.closed (bound.map Prod.fst) Builtin.names then
          (firstValue listed (.of program) (.ofBound bound) f (.ofValue input)).toOption
        else none := by
  simp only [Engine.firstOutput?, Environment.firstOutput]
  cases hprogram : Filter.ofProgram program with
  | none =>
    simp only [engine, compile, hprogram]
    rfl
  | some f =>
    rw [Option.bind_some]
    cases hclosed : f.closed (bound.map Prod.fst) Builtin.names with
    | false =>
      simp only [engine, compile, hprogram, hclosed]
      rfl
    | true =>
      rw [compile_eq_ok hprogram hclosed, first_eq hprogram hclosed, if_pos rfl]
      cases firstValue listed (.of program) (.ofBound bound) f (.ofValue input) <;> rfl

/-- What a program puts out first, if nothing goes wrong. -/
theorem firstOutput?_of_first? {v : Datum} {value : Value}
    (hprogram : Filter.ofProgram program = some f)
    (hclosed : f.closed (bound.map Prod.fst) Builtin.names = true)
    (hfirst : ((eval listed (Start.of program).fuel f (.ofBound bound) (.ofValue input)).outputs
      (Start.of program).place).first? = some (.ok v))
    (hvalue : v.toValue? 0 = some value) :
    engine.firstOutput? listed bound program input = some (some value) := by
  rw [firstOutput?_eq, hprogram, Option.bind_some, if_pos hclosed]
  simp only [firstValue, hfirst, hvalue]
  rfl

theorem start_binding (name source : String) :
    Start.of (Expression.binding name source) = ⟨fuelLimit + 1, []⟩ := by
  simp [Start.of, Expression.binding]

theorem start_of_not_isPrefixOf (h : ". as $".toList.isPrefixOf program.toList = false) :
    Start.of program = ⟨fuelLimit, [1]⟩ := by
  rw [Start.of, h, if_neg Bool.false_ne_true]

theorem start_parenthesized (source : String) :
    Start.of (Expression.parenthesized source) = ⟨fuelLimit, [1]⟩ :=
  start_of_not_isPrefixOf (by simp [Expression.parenthesized, List.isPrefixOf])

/-! ## The laws -/

/-- The binding of a variable around a source binds it around the source in
    parentheses. -/
theorem ofProgram_binding {first : Char} {others : List Char}
    (hfirst : Token.startsName first = true)
    (hothers : ∀ c ∈ others, Token.continuesName c = true) (source : String) :
    Filter.ofProgram (Expression.binding (String.ofList (first :: others)) source)
      = (Filter.ofProgram (Expression.parenthesized source)).map
          (.bind .identity (String.ofList (first :: others))) := by
  rw [Filter.ofProgram, Token.ofSource_binding hfirst hothers, Filter.ofProgram]
  cases Token.ofSource (Expression.parenthesized source).toList with
  | none => rfl
  | some ts => exact Grammar.ofTokens_binding _ ts

/-- The source of a binding runs in its first turn. -/
theorem firstValue_binding (f : Filter) (v : Datum) :
    firstValue listed ⟨fuelLimit + 1, []⟩ .top (.bind .identity name f) v
      = firstValue listed ⟨fuelLimit, [1]⟩ (.variable name v .top) f v := by
  have houtputs (fuel : Nat) :
      (eval listed (fuel + 2) (.bind .identity name f) .top v).outputs []
        = (eval listed (fuel + 1) f (.variable name v .top) v).outputs [1] := rfl
  -- the limit itself is too large to be computed with
  obtain ⟨fuel, hfuel⟩ : ∃ fuel, fuelLimit = fuel + 1 :=
    ⟨_, (Nat.succ_pred_eq_of_pos (Nat.pow_pos Nat.two_pos)).symm⟩
  simp only [firstValue, hfuel, houtputs]

theorem binds {first : Char} {others : List Char} (hfirst : Token.startsName first = true)
    (hothers : ∀ c ∈ others, Token.continuesName c = true) :
    engine.Binds (String.ofList (first :: others)) := by
  intro listed source input
  rw [firstOutput?_eq, firstOutput?_eq, ofProgram_binding hfirst hothers, start_binding,
    start_parenthesized]
  cases Filter.ofProgram (Expression.parenthesized source) with
  | none => simp only [Option.map_none, Option.bind_none]
  | some f =>
    have hclosed : (Filter.bind .identity (String.ofList (first :: others)) f).closed []
        Builtin.names = f.closed [String.ofList (first :: others)] Builtin.names := rfl
    simp only [Option.map_some, Option.bind_some, List.map_cons, List.map_nil, hclosed,
      Scope.ofBound, firstValue_binding]

theorem binds_env : engine.Binds "env" := by
  have hothers : ∀ c ∈ ['n', 'v'], Token.continuesName c = true := List.all_eq_true.mp rfl
  exact binds rfl hothers

theorem ignores (name : String) : engine.Ignores name := by
  intro listed value program input hname
  rw [firstOutput?_eq, firstOutput?_eq]
  cases hprogram : Filter.ofProgram program with
  | none => rfl
  | some f =>
    obtain ⟨ts, htokens, hf⟩ := Option.bind_eq_some_iff.mp hprogram
    have havoids : f.avoids name = true := Grammar.avoids_of_ofTokens hf fun hmem =>
      hname (Token.isInfix_of_mem_scanAll htokens hmem)
    have hclosed : f.closed [name] Builtin.names = f.closed [] Builtin.names :=
      Filter.closed_insert [] [] f havoids
    have hvalue : firstValue listed (.of program) (.ofBound [(name, value)]) f (.ofValue input)
        = firstValue listed (.of program) (.ofBound []) f (.ofValue input) := by
      -- the variable is a scope below the one in which the filter runs
      have heval : eval listed (Start.of program).fuel f
            (Scope.top.onto (.variable name (.ofValue value) .top)) (.ofValue input)
          = eval listed (Start.of program).fuel f .top (.ofValue input) :=
        eval_onto _ .top (.ofValue input) havoids trivial
      simp only [firstValue, Scope.ofBound]
      rw [← heval]
      rfl
    simp only [Option.bind_some, List.map_cons, List.map_nil, hclosed, hvalue]

/-- A source that denotes the same filter in parentheses runs alike in them, unless it
    begins with a binding itself. -/
theorem groups_of_ofProgram {source : String}
    (hstart : Start.of source = ⟨fuelLimit, [1]⟩)
    (hprogram : Filter.ofProgram (Expression.parenthesized source) = Filter.ofProgram source) :
    engine.Groups source := by
  intro listed input
  rw [firstOutput?_eq, firstOutput?_eq, hprogram, start_parenthesized, hstart]

theorem groups_identity : engine.Groups "." := by
  have hsource : Token.ofSource ".".toList = some [.symbol "."] := by decide +kernel
  have hinside : Token.ofSource (Expression.parenthesized ".").toList
      = some [.symbol "(", .symbol ".", .symbol ")"] := by decide +kernel
  refine groups_of_ofProgram (start_of_not_isPrefixOf (by decide)) ?_
  rw [Filter.ofProgram, hinside, Filter.ofProgram, hsource]
  rfl

/-- What a program is given back has to be representable. -/
theorem returns {v : Value} (hvalue : (Datum.ofValue v).toValue? 0 = some v) :
    engine.Returns v := by
  intro listed
  have htokens : Token.ofSource ".".toList = some [.symbol "."] := by decide +kernel
  have hprogram : Filter.ofProgram "." = some .identity := by
    rw [Filter.ofProgram, htokens]
    rfl
  have hstart : Start.of "." = ⟨fuelLimit, [1]⟩ := start_of_not_isPrefixOf (by decide)
  obtain ⟨fuel, hfuel⟩ : ∃ fuel, fuelLimit = fuel + 1 :=
    ⟨_, (Nat.succ_pred_eq_of_pos (Nat.pow_pos Nat.two_pos)).symm⟩
  refine firstOutput?_of_first? hprogram rfl ?_ hvalue
  rw [hstart, hfuel]
  rfl

end LayeredConfig.Jq
