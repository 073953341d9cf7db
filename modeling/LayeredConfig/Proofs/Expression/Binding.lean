/-
  LayeredConfig.Proofs.Expression.Binding

  Expressions that may look at the environment.

  Such an expression is its source in parentheses, run on the variables of the
  process, which are also bound to `$env`.  So even if it does not name the
  environment it differs from an expression that may not look at it in two ways: its
  input is the variables and not null, and its source stands in parentheses.  For
  every engine that keeps the laws both have the same outcome exactly if these two
  make no difference to the first output of the source (`evaluate_withEnv_iff`).
-/
import LayeredConfig.Proofs.Jq.Laws

namespace LayeredConfig.Expression

variable {environment : Environment} {source : String}

/-! ## Outcomes -/

/-- The outcome of an expression without the reason that an engine gives: nothing if
    it fails, and otherwise whether there is a value, and which one. -/
def outcome : Except Failure Value → Option (Option Value)
  | .ok v => some (some v)
  | .error .noValue => some none
  | .error (.engine _) => none

theorem outcome_valueOf (first : Except String (Option Value)) :
    outcome (valueOf first) = first.toOption := by
  match first with
  | .ok (some v) => rfl
  | .ok none => rfl
  | .error reason => rfl

theorem outcome_eq_value_iff {result : Except Failure Value} {v : Value} :
    outcome result = some (some v) ↔ result = .ok v := by
  match result with
  | .ok w => simp [outcome]
  | .error .noValue => simp [outcome]
  | .error (.engine reason) => simp [outcome]

/-! ## Names in a source -/

/-- The parentheses around a source write no name. -/
theorem isInfix_of_parenthesized {name : List Char} (hne : name ≠ [])
    (hname : ∀ c ∈ name, c ≠ '(' ∧ c ≠ '\n' ∧ c ≠ ')')
    (h : name <:+: (parenthesized source).toList) : name <:+: source.toList := by
  have htext : (parenthesized source).toList = '(' :: (source.toList ++ ['\n'] ++ [')']) := by
    simp [parenthesized]
  rw [htext, List.infix_cons_iff, List.infix_concat_iff, List.infix_concat_iff,
    List.prefix_cons_iff, List.suffix_concat_iff, List.suffix_concat_iff] at h
  have hopen (t : List Char) : name ≠ '(' :: t := by
    rintro rfl
    exact (hname _ List.mem_cons_self).1 rfl
  have hbreak (t : List Char) : name ≠ t ++ ['\n'] := by
    rintro rfl
    exact (hname '\n' (by simp)).2.1 rfl
  have hclose (t : List Char) : name ≠ t ++ [')'] := by
    rintro rfl
    exact (hname ')' (by simp)).2.2 rfl
  simpa [hne, hopen, hbreak, hclose] using h

/-! ## The outcome of an expression -/

/-- An expression that may not look at the environment is its source on null. -/
theorem outcome_without (environment : Environment) (source : String) :
    outcome (evaluate environment false source)
      = environment.engine.firstOutput? environment.processVariables [] source .null :=
  outcome_valueOf _

/-- An expression that may look at the environment, but does not name it, is its
    source in parentheses, on the variables. -/
theorem outcome_with (hbinds : environment.engine.Binds "env")
    (hignores : environment.engine.Ignores "env") (hname : ¬"env".toList <:+: source.toList) :
    outcome (evaluate environment true source)
      = environment.engine.firstOutput? environment.processVariables [] (parenthesized source)
        environment.object := by
  -- what is written around the source does not name the environment either
  have hparenthesized : ¬"env".toList <:+: (parenthesized source).toList := fun h =>
    hname (isInfix_of_parenthesized (by decide) (by simp) h)
  calc outcome (evaluate environment true source)
    _ = environment.engine.firstOutput? environment.processVariables [] (binding "env" source)
        environment.object := outcome_valueOf _
    _ = environment.engine.firstOutput? environment.processVariables
        [("env", environment.object)] (parenthesized source) environment.object :=
      hbinds _ source _
    _ = environment.engine.firstOutput? environment.processVariables [] (parenthesized source)
        environment.object := hignores _ _ _ _ hparenthesized

/-- An expression that does not name the environment is its source in parentheses on
    the variables if it may look at the environment, and its source on null if it may
    not.  So it has the same outcome in both cases exactly if these two have the same
    first output or both fail.  For a source that is the same program in parentheses
    this means that its first output is the same on the variables as on null, for
    instance since it does not look at its input. -/
theorem evaluate_withEnv_iff (hbinds : environment.engine.Binds "env")
    (hignores : environment.engine.Ignores "env") (hname : ¬"env".toList <:+: source.toList) :
    let first := environment.engine.firstOutput? environment.processVariables []
    outcome (evaluate environment true source) = first (parenthesized source) environment.object
      ∧ outcome (evaluate environment false source) = first source .null
      ∧ (outcome (evaluate environment true source) = outcome (evaluate environment false source)
        ↔ first (parenthesized source) environment.object = first source .null)
      ∧ (environment.engine.Groups source →
        (outcome (evaluate environment true source) = outcome (evaluate environment false source)
          ↔ first source environment.object = first source .null)) := by
  intro first
  have hwith := outcome_with hbinds hignores hname
  have hwithout := outcome_without environment source
  refine ⟨hwith, hwithout, by rw [hwith, hwithout], fun hgroups => ?_⟩
  rw [hwith, hwithout, hgroups]

/-- Neither a comment at the end matters nor what reads behind a pipe. -/
theorem evaluate_withEnv_sum :
    let environment : Environment := .ofVariables [("HOME", "/root")]
    environment.engine.Binds "env" ∧ environment.engine.Ignores "env"
      ∧ ¬"env".toList <:+: "[1, 2] | add # sum".toList
      ∧ environment.engine.Groups "[1, 2] | add # sum"
      ∧ outcome (evaluate environment true "[1, 2] | add # sum") = some (some (.int 3))
      ∧ outcome (evaluate environment false "[1, 2] | add # sum") = some (some (.int 3)) := by
  intro environment
  have hbinds : environment.engine.Binds "env" := Jq.binds_env
  have hignores : environment.engine.Ignores "env" := Jq.ignores "env"
  have hname : ¬"env".toList <:+: "[1, 2] | add # sum".toList := by
    simp [List.infix_cons_iff]
  have hprogram : Jq.Filter.ofProgram "[1, 2] | add # sum"
      = some (.pipe (.array (.comma (.numeral "1") (.numeral "2"))) (.call "add" [])) := by
    have htokens : Jq.Token.ofSource "[1, 2] | add # sum".toList
        = some [.symbol "[", .numeral "1", .symbol ",", .numeral "2", .symbol "]", .symbol "|",
          .word "add"] := by decide +kernel
    rw [Jq.Filter.ofProgram, htokens]
    rfl
  have hstart : Jq.Start.of "[1, 2] | add # sum" = ⟨Jq.fuelLimit, [1]⟩ :=
    Jq.start_of_not_isPrefixOf (by decide)
  have hgroups : environment.engine.Groups "[1, 2] | add # sum" := by
    have htokens : Jq.Token.ofSource (parenthesized "[1, 2] | add # sum").toList
        = some [.symbol "(", .symbol "[", .numeral "1", .symbol ",", .numeral "2", .symbol "]",
          .symbol "|", .word "add", .symbol ")"] := by decide +kernel
    refine Jq.groups_of_ofProgram hstart ?_
    rw [hprogram, Jq.Filter.ofProgram, htokens]
    rfl
  have hfirst (v : Value) : environment.engine.firstOutput? environment.processVariables []
      "[1, 2] | add # sum" v = some (some (.int 3)) := by
    -- a few units of fuel are enough, and the others are not looked at
    obtain ⟨fuel, hfuel⟩ : ∃ fuel, Jq.fuelLimit = fuel + 9 := ⟨Jq.fuelLimit - 9, by decide⟩
    refine Jq.firstOutput?_of_first? (v := .int 3) hprogram rfl ?_ rfl
    rw [hstart, hfuel]
    rfl
  obtain ⟨-, hwithout, -, hsame⟩ := evaluate_withEnv_iff hbinds hignores hname
  have hagree := (hsame hgroups).mpr ((hfirst _).trans (hfirst _).symm)
  rw [hfirst] at hwithout
  exact ⟨hbinds, hignores, hname, hgroups, hagree.trans hwithout, hwithout⟩

/-- The source `.` reads its input, which is the variables if the expression may look
    at the environment, and null if it may not.  Every engine that keeps the laws
    tells the two apart, as the engine of the library does. -/
theorem evaluate_withEnv_input :
    ¬"env".toList <:+: ".".toList.map Char.toLower
      ∧ (∀ engine : Engine, engine.Binds "env" → engine.Ignores "env" → engine.Groups "." →
        engine.Returns .null → engine.Returns (.table [("HOME", .string "/root")]) →
        evaluate ⟨[("HOME", "/root")], engine⟩ true "."
            = .ok (.table [("HOME", .string "/root")])
          ∧ evaluate ⟨[("HOME", "/root")], engine⟩ false "." = .ok .null)
      ∧ evaluate (.ofVariables [("HOME", "/root")]) true "."
        ≠ evaluate (.ofVariables [("HOME", "/root")]) false "." := by
  have hname : ¬"env".toList <:+: ".".toList := by simp [List.infix_cons_iff]
  have hlaws (engine : Engine) (hbinds : engine.Binds "env") (hignores : engine.Ignores "env")
      (hgroups : engine.Groups ".") (hnull : engine.Returns .null)
      (hobject : engine.Returns (.table [("HOME", .string "/root")])) :
      evaluate ⟨[("HOME", "/root")], engine⟩ true "." = .ok (.table [("HOME", .string "/root")])
        ∧ evaluate ⟨[("HOME", "/root")], engine⟩ false "." = .ok .null := by
    constructor
    · rw [← outcome_eq_value_iff, outcome_with hbinds hignores hname, hgroups]
      exact hobject _
    · rw [← outcome_eq_value_iff, outcome_without]
      exact hnull _
  refine ⟨by simp [List.infix_cons_iff], hlaws, ?_⟩
  obtain ⟨hwith, hwithout⟩ := hlaws Jq.engine Jq.binds_env (Jq.ignores "env") Jq.groups_identity
    (Jq.returns rfl) (Jq.returns rfl)
  rw [Environment.ofVariables, hwith, hwithout]
  rintro ⟨⟩

end LayeredConfig.Expression
