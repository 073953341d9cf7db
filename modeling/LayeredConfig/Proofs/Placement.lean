/-
  LayeredConfig.Proofs.Placement

  Where an error says that it happened.

  An error may name a setting and a section (`ConfigError.key?`,
  `ConfigError.sectionName?`), and both then stand in its message.  That a section
  cannot hold a value is found without the section, which is attached to the error
  afterwards.  The error of a guard that cannot be evaluated has no place for it: it
  is the same in all sections, while every other error of a value names its section
  (`Schema.buildData_names_section_iff`).
-/
import LayeredConfig.Proofs.Jq.Laws
import LayeredConfig.Proofs.Verdicts

namespace LayeredConfig

variable {environment : Environment} {e : ConfigError}

/-! ## What errors name -/

namespace ConfigError

/-- The setting that an error names. -/
def key? : ConfigError → Option String
  | .invalidValue key _ _ | .invalidDefault key _ | .invalidSchema key _ | .invalidGuard key _ _
  | .guardViolation key _ _ _ | .guardError key _ _ | .unknownSetting key _ => some key
  | .unknownType _ | .unknownSection _ | .unknownKeys _ | .parseError _ | .fileError _ _
  | .schemaRequired => none

/-- The section that an error names. -/
def sectionName? : ConfigError → Option String
  | .invalidValue _ sectionName _ | .guardViolation _ sectionName _ _
  | .unknownSetting _ sectionName => sectionName
  | .unknownSection name => some name
  | .unknownType _ | .invalidDefault _ _ | .invalidSchema _ _ | .invalidGuard _ _ _
  | .guardError _ _ _ | .unknownKeys _ | .parseError _ | .fileError _ _ | .schemaRequired => none

/-! The messages of the errors that may name both. -/

theorem message_invalidValue (key name : String) (cause : CoercionError) :
    (invalidValue key (some name) cause).message
      = "Invalid value for '" ++ key ++ "'" ++ (" in section '" ++ name ++ "'") ++ ": "
        ++ cause.message := rfl

theorem message_guardViolation (key name text : String) (v : Value) :
    (guardViolation key (some name) text v).message
      = "Guard failed for '" ++ key ++ "'" ++ (" in section '" ++ name ++ "'") ++ " (value "
        ++ v.text ++ "): " ++ text := rfl

theorem message_unknownSetting (key name : String) :
    (unknownSetting key (some name)).message
      = "Unknown setting '" ++ key ++ "'" ++ (" in section '" ++ name ++ "'") := rfl

/-- A setting and a section that an error names stand side by side in its message. -/
theorem exists_message_eq {key name : String} (hkey : e.key? = some key)
    (hname : e.sectionName? = some name) :
    ∃ before after,
      e.message = before ++ key ++ "'" ++ (" in section '" ++ name ++ "'") ++ after := by
  cases e with
  | invalidValue k sectionName cause =>
    simp only [key?, sectionName?, Option.some.injEq] at hkey hname
    subst hkey hname
    refine ⟨"Invalid value for '", ": " ++ cause.message, ?_⟩
    simp only [message_invalidValue, String.append_assoc]
  | guardViolation k sectionName text v =>
    simp only [key?, sectionName?, Option.some.injEq] at hkey hname
    subst hkey hname
    refine ⟨"Guard failed for '", " (value " ++ v.text ++ "): " ++ text, ?_⟩
    simp only [message_guardViolation, String.append_assoc]
  | unknownSetting k sectionName =>
    simp only [key?, sectionName?, Option.some.injEq] at hkey hname
    subst hkey hname
    refine ⟨"Unknown setting '", "", ?_⟩
    rw [message_unknownSetting, String.append_empty]
  | unknownSection other => simp [key?] at hkey
  | _ => simp [sectionName?] at hname

end ConfigError

/-! ## Single settings -/

namespace Setting

variable {setting : Setting} {raw : Value} {address : Address}

/-- The first guard that does not say that the coerced value passes cannot be
    evaluated. -/
def Undecided (environment : Environment) (setting : Setting) (raw : Value) : Prop :=
  ∃ v before guard after cause, setting.type.coerce environment raw = .ok v
    ∧ setting.guards = before ++ guard :: after
    ∧ (∀ earlier ∈ before, earlier.Judges environment v (.ok true))
    ∧ guard.Judges environment v (.error cause)

theorem undecided_iff (environment : Environment) (setting : Setting) (raw : Value)
    (address : Address) :
    setting.Undecided environment raw ↔
      ∃ message cause, setting.fault? environment address raw
        = some (.guardError address.key message cause) := by
  simp only [fault?_eq_some_iff, Undecided]
  constructor
  · rintro ⟨v, before, guard, after, cause, hcoerce, hguards, hbefore, hguard⟩
    exact ⟨guard.message, cause, Or.inr ⟨v, before, guard, after, hcoerce, hguards, hbefore,
      Or.inr ⟨cause, hguard, rfl⟩⟩⟩
  · rintro ⟨message, cause, ⟨other, -, heq⟩ | ⟨v, before, guard, after, hcoerce, hguards, hbefore,
      ⟨-, heq⟩ | ⟨other, hguard, -⟩⟩⟩
    · cases heq
    · cases heq
    · exact ⟨v, before, guard, after, other, hcoerce, hguards, hbefore, hguard⟩

/-- The faults of a value: either a guard has no answer, or the fault is one that
    carries its section. -/
theorem fault?_cases (h : setting.fault? environment address raw = some e) :
    (setting.Undecided environment raw ∧ ∃ message cause, e = .guardError address.key message cause)
      ∨ ¬setting.Undecided environment raw
        ∧ ((∃ cause, e = .invalidValue address.key address.sectionName cause)
          ∨ ∃ message v, e = .guardViolation address.key address.sectionName message v) := by
  have hundecided := undecided_iff environment setting raw address
  rw [h] at hundecided
  rcases fault?_eq_some_iff.mp h with ⟨cause, -, rfl⟩ | ⟨v, before, guard, after, -, -, -,
    ⟨-, rfl⟩ | ⟨cause, -, rfl⟩⟩
  · exact Or.inr ⟨by simp [hundecided], Or.inl ⟨cause, rfl⟩⟩
  · exact Or.inr ⟨by simp [hundecided], Or.inr ⟨guard.message, v, rfl⟩⟩
  · exact Or.inl ⟨by simp [hundecided], guard.message, cause, rfl⟩

theorem key?_of_fault? (h : setting.fault? environment address raw = some e) :
    e.key? = some address.key := by
  rcases fault?_cases h with ⟨-, message, cause, rfl⟩ | ⟨-, ⟨cause, rfl⟩ | ⟨message, v, rfl⟩⟩
    <;> rfl

theorem sectionName?_of_fault? {key name : String}
    (h : setting.fault? environment ⟨some name, key⟩ raw = some e) :
    e.sectionName? = some name ↔ ¬setting.Undecided environment raw := by
  rcases fault?_cases h with ⟨hundecided, message, cause, rfl⟩
    | ⟨hundecided, ⟨cause, rfl⟩ | ⟨message, v, rfl⟩⟩
  · simp [hundecided, ConfigError.sectionName?]
  · simp [hundecided, ConfigError.sectionName?]
  · simp [hundecided, ConfigError.sectionName?]

/-- The error of a guard without an answer is the same in all sections. -/
theorem inSection_of_undecided {cause : ConfigError}
    (h : setting.fault? environment address raw = some cause)
    (hundecided : setting.Undecided environment raw) (sectionName : Option String) :
    cause.inSection sectionName = cause := by
  rcases fault?_cases h with ⟨-, message, inner, rfl⟩ | ⟨hdecided, -⟩
  · rfl
  · exact absurd hundecided hdecided

/-- In two sections every other fault is reported in different words. -/
theorem message_inSection_ne {first second : String} {cause : ConfigError}
    (h : setting.fault? environment address raw = some cause)
    (hdecided : ¬setting.Undecided environment raw) (hne : first ≠ second) :
    (cause.inSection (some first)).message ≠ (cause.inSection (some second)).message := by
  rcases fault?_cases h with ⟨hundecided, -⟩ | ⟨-, ⟨inner, rfl⟩ | ⟨message, v, rfl⟩⟩
  · exact absurd hundecided hdecided
  · simp only [ConfigError.inSection, ConfigError.message_invalidValue]
    simpa using hne
  · simp only [ConfigError.inSection, ConfigError.message_guardViolation]
    simpa using hne

end Setting

/-! ## Documents -/

namespace Schema

variable {schema : Schema} {strict : Bool} {setting : Setting} {raw : Document} {v : Value}
  {key name : String} {cause : ConfigError}

/-- Resolution comes to a visit: the document has no key that is out of place at its
    top, and the visits before have no fault. -/
def Reaches (environment : Environment) (schema : Schema) (strict : Bool) (raw : Document)
    (visit : Visit) : Prop :=
  schema.Fits raw ∧ ∃ before after, schema.visits raw = before ++ visit :: after
    ∧ ∀ earlier ∈ before, schema.fault? environment strict earlier = none

/-- A value that its setting rejects is reported from its section. -/
theorem buildData_of_reaches (hsetting : schema.find? key = some setting)
    (hfails : setting.validate environment v = .error cause)
    (h : schema.Reaches environment strict raw ⟨⟨some name, key⟩, v⟩) :
    schema.buildData environment strict raw = .error (cause.inSection (some name)) := by
  obtain ⟨hfits, before, after, hvisits, hbefore⟩ := h
  have hfault : schema.fault? environment strict ⟨⟨some name, key⟩, v⟩
      = some (cause.inSection (some name)) := by
    obtain rfl := name_of_find? hsetting
    rw [Setting.validate_eq_error_iff] at hfails
    simp only [fault?, hsetting]
    rw [← Setting.map_fault?, hfails, Option.map_some]
  rw [← reported_eq_some_iff, reported_buildData, find?_misfits_eq_none_iff.mpr hfits,
    Option.map_none,
    Option.none_or, List.findSome?_eq_some_iff]
  exact ⟨before, _, after, hvisits, hfault, hbefore⟩

/-- In a document with one key in one section, resolution comes to that key. -/
theorem reaches_single (hname : schema.declares name = false) :
    schema.Reaches environment strict [(name, .table [(key, v)])] ⟨⟨some name, key⟩, v⟩ := by
  refine ⟨by simp [Fits, Value.isTable], [], [], ?_, by simp⟩
  simp [visits, Document.visits, opened?, hname]

/-- A value that its setting rejects in a named section is reported with the name of
    the setting, and with that of the section exactly if no guard without an answer
    decides.  A name of a section that is there stands in the message.  So the same
    value of the same setting in two sections gives two errors, and two messages,
    exactly if no guard without an answer decides. -/
theorem buildData_names_section_iff (strict : Bool) (hsetting : schema.find? key = some setting)
    (hfails : setting.validate environment v = .error cause) :
    (∀ raw name, schema.Reaches environment strict raw ⟨⟨some name, key⟩, v⟩ →
        ∃ e, schema.buildData environment strict raw = .error e ∧ e.key? = some key
          ∧ (e.sectionName? = some name ↔ ¬setting.Undecided environment v)
          ∧ (e.sectionName? = some name → ∃ before after,
            e.message = before ++ key ++ "'" ++ (" in section '" ++ name ++ "'") ++ after))
      ∧ ∀ first second, first ≠ second → schema.declares first = false →
        schema.declares second = false →
        ∃ e f, schema.buildData environment strict [(first, .table [(key, v)])] = .error e
          ∧ schema.buildData environment strict [(second, .table [(key, v)])] = .error f
          ∧ (e ≠ f ↔ ¬setting.Undecided environment v)
          ∧ (e.message ≠ f.message ↔ ¬setting.Undecided environment v) := by
  have hfault := Setting.validate_eq_error_iff.mp hfails
  obtain rfl := name_of_find? hsetting
  refine ⟨fun raw name hreaches => ?_, fun first second hne hfirst hsecond => ?_⟩
  · have hplaced : setting.fault? environment ⟨some name, setting.name⟩ v
        = some (cause.inSection (some name)) := by
      rw [← Setting.map_fault?, hfault, Option.map_some]
    have hkey := Setting.key?_of_fault? hplaced
    exact ⟨_, buildData_of_reaches hsetting hfails hreaches, hkey,
      Setting.sectionName?_of_fault? hplaced,
      ConfigError.exists_message_eq hkey⟩
  · have hsame (hundecided : setting.Undecided environment v) :
        cause.inSection (some first) = cause.inSection (some second) := by
      rw [Setting.inSection_of_undecided hfault hundecided,
        Setting.inSection_of_undecided hfault hundecided]
    have hdiffer (hdecided : ¬setting.Undecided environment v) :=
      Setting.message_inSection_ne hfault hdecided hne
    refine ⟨_, _, buildData_of_reaches hsetting hfails (reaches_single hfirst),
      buildData_of_reaches hsetting hfails (reaches_single hsecond), ?_, ?_⟩
    · exact ⟨fun hne hundecided => hne (hsame hundecided),
        fun hdecided heq => hdiffer hdecided (congrArg ConfigError.message heq)⟩
    · exact ⟨fun hne hundecided => hne (congrArg ConfigError.message (hsame hundecided)), hdiffer⟩

/-- A guard that looks for a key in a number can be run and has no answer, and what
    is reported does not tell one section from another. -/
theorem buildData_of_unanswerable :
    let guard : Guard := ⟨"must be local", .expression ".local"⟩
    let schema : Schema := ⟨[⟨"port", .int, "Port.", .int 80, [guard]⟩], by simp⟩
    Guard.ofExpression Environment.empty.engine "must be local" ".local" = .ok guard
      ∧ ∃ e, schema.buildData .empty true [("edge", .table [("port", .int 81)])] = .error e
        ∧ schema.buildData .empty true [("backup", .table [("port", .int 81)])] = .error e
        ∧ e.sectionName? ≠ some "edge" := by
  intro guard schema
  let key : Jq.Filter := .path .identity [(.index (.text "local" []), false)]
  have hprogram : Jq.Filter.ofProgram (Expression.binding "x" ".local")
      = some (.bind .identity "x" key) := by
    have htokens : Jq.Token.ofSource (Expression.binding "x" ".local").toList
        = some [.symbol ".", .word "as", .variable "x", .symbol "|", .symbol "(", .field "local",
          .symbol ")"] := by decide +kernel
    rw [Jq.Filter.ofProgram, htokens]
    rfl
  have hguard : Guard.ofExpression Environment.empty.engine "must be local" ".local"
      = .ok guard := by
    rw [Guard.ofExpression, Expression.checkGuard]
    show (Jq.engine.compile [] (Expression.binding "x" ".local")).bind _ = _
    rw [Jq.compile_eq_ok hprogram rfl]
    rfl
  obtain ⟨cause, hcause⟩ : ∃ cause, guard.Judges .empty (.int 81) (.error cause) := by
    -- a few units of fuel are enough, and the others are not looked at
    obtain ⟨fuel, hfuel⟩ : ∃ fuel, Jq.fuelLimit = fuel + 9 := ⟨Jq.fuelLimit - 9, by decide⟩
    obtain ⟨fault, hfault⟩ : ∃ fault, ((Jq.eval [] (fuel + 9 + 1) (.bind .identity "x" key) .top
        (.ofValue (.int 81))).outputs []).first? = some (.error (.raised fault)) := ⟨_, rfl⟩
    have hvalue : Jq.firstValue [] ⟨Jq.fuelLimit + 1, []⟩ .top (.bind .identity "x" key)
        (.ofValue (.int 81)) = .error (.raised fault) := by
      simp only [Jq.firstValue, hfuel, hfault]
    have hfirst : Environment.empty.firstOutput [] (Expression.binding "x" ".local") (.int 81)
        = .error (Jq.Failure.raised fault).message := by
      show (Jq.engine.compile [] (Expression.binding "x" ".local")).bind (fun _ =>
        Jq.engine.first [] [] (Expression.binding "x" ".local") (.int 81)) = _
      rw [Jq.compile_eq_ok hprogram rfl, Jq.first_eq hprogram rfl, Jq.start_binding,
        Jq.Scope.ofBound, hvalue]
      rfl
    exact ⟨_, .failure hfirst⟩
  let port : Setting := ⟨"port", .int, "Port.", .int 80, [guard]⟩
  have hfails : port.validate .empty (.int 81)
      = .error (.guardError "port" "must be local" cause) := by
    rw [Setting.validate_eq_error_iff, Setting.fault?_eq_some_iff]
    exact Or.inr ⟨.int 81, [], guard, [], rfl, rfl, by simp, Or.inr ⟨_, hcause, rfl⟩⟩
  have hsetting : schema.find? "port" = some port := rfl
  have hreports (name : String) (hname : schema.declares name = false) :
      schema.buildData .empty true [(name, .table [("port", .int 81)])]
        = .error (.guardError "port" "must be local" cause) :=
    buildData_of_reaches hsetting hfails (reaches_single hname)
  exact ⟨hguard, _, hreports "edge" rfl, hreports "backup" rfl, by simp [ConfigError.sectionName?]⟩

/-- A port that is not positive, behind a visit without a fault. -/
theorem buildData_names_section_server :
    let raw : Document := [("host", .string "a"), ("edge", .table [("port", .int (-1))])]
    let cause : ConfigError := .guardViolation "port" none "must be positive" (.int (-1))
    ∃ port, server.find? "port" = some port ∧ port.validate .empty (.int (-1)) = .error cause
      ∧ server.Reaches .empty true raw ⟨⟨some "edge", "port"⟩, .int (-1)⟩
      ∧ ¬port.Undecided .empty (.int (-1))
      ∧ ∃ e, server.buildData .empty true raw = .error e ∧ e.key? = some "port"
        ∧ e.sectionName? = some "edge" := by
  intro raw cause
  obtain ⟨port, hsetting, hfails⟩ : ∃ port, server.find? "port" = some port
      ∧ port.validate .empty (.int (-1)) = .error cause := ⟨_, rfl, rfl⟩
  have hreaches : server.Reaches .empty true raw ⟨⟨some "edge", "port"⟩, .int (-1)⟩ := by
    refine ⟨by simp [raw, Fits, Value.isTable, declares, find?, server],
      [⟨⟨none, "host"⟩, .string "a"⟩], [], rfl, ?_⟩
    rw [List.forall_mem_singleton]
    decide +kernel
  have hdecided : ¬port.Undecided .empty (.int (-1)) := by
    rw [Setting.undecided_iff .empty port _ ⟨none, port.name⟩,
      Setting.validate_eq_error_iff.mp hfails]
    simp [cause]
  obtain ⟨e, he, hkey, hsection, -⟩ := (buildData_names_section_iff true hsetting hfails).1 raw
    "edge" hreaches
  exact ⟨port, hsetting, hfails, hreaches, hdecided, e, he, hkey, hsection.mpr hdecided⟩

end Schema

end LayeredConfig
