/-
  LayeredConfig.Proofs.Declarations

  What comes of a schema document.

  A guard is a registered predicate or an expression that the engine can run
  (`Resolves`).  An entry declares a setting if its record can be read, the record
  names a type, the default is a value of that type, and every guard is one
  (`Declares`).  These are asked for in turn, so that an entry which declares
  nothing has one fault, that of the first step that fails (`Faults`).
  The entries of a document are looked at in turn as well: a document in which all
  of them declare a setting is the schema of these, and any other has the fault of
  its first entry that does not (`ofDocument_eq_ok_iff`, `ofDocument_eq_error_iff`).
-/
import LayeredConfig.Proofs.Document.Lookup
import LayeredConfig.Proofs.Sections
import LayeredConfig.Proofs.TypeName.RoundTrip

namespace LayeredConfig

/-! ## Single guards -/

namespace GuardRegistry

variable {engine : Engine} {registry : GuardRegistry} {key message callable : String}
  {predicate : Value → Bool}

/-- The guard that a callable stands for.  White space around it does not count
    where it is a registered name, and an expression keeps its own. -/
inductive Resolves (engine : Engine) (registry : GuardRegistry) (message callable : String) :
    Guard → Prop where
  | native {predicate : Value → Bool}
    (hname : registry.predicates.find? (Text.trimmed callable) = some predicate) :
    Resolves engine registry message callable
      ⟨message, .native (Text.trimmed callable) predicate⟩
  | expression (hname : registry.predicates.find? (Text.trimmed callable) = none)
    (hcompiles : engine.compile [] (Expression.binding "x" callable) = .ok ()) :
    Resolves engine registry message callable ⟨message, .expression callable⟩

/-- The callable is no registered name, and the engine cannot run it for the given
    reason. -/
structure Rejects (engine : Engine) (registry : GuardRegistry) (callable reason : String) :
    Prop where
  hname : registry.predicates.find? (Text.trimmed callable) = none
  hfails : engine.compile [] (Expression.binding "x" callable) = .error reason

/-- Whatever a registered name reads as an expression, it is its predicate. -/
theorem resolveWith_of_find?
    (hname : registry.predicates.find? (Text.trimmed callable) = some predicate) :
    registry.resolveWith engine key message callable
      = .ok ⟨message, .native (Text.trimmed callable) predicate⟩ := by
  rw [resolveWith, hname]

theorem resolveWith_of_find?_eq_none
    (hname : registry.predicates.find? (Text.trimmed callable) = none) :
    registry.resolveWith engine key message callable
      = ((engine.compile [] (Expression.binding "x" callable)).map fun _ =>
          ⟨message, .expression callable⟩).mapError (.invalidGuard key callable) := by
  rw [resolveWith, hname]
  simp only [Guard.ofExpression, Expression.checkGuard]
  cases engine.compile [] (Expression.binding "x" callable) <;> rfl

theorem resolveWith_eq_ok_iff {guard : Guard} :
    registry.resolveWith engine key message callable = .ok guard
      ↔ registry.Resolves engine message callable guard := by
  cases hname : registry.predicates.find? (Text.trimmed callable) with
  | some predicate =>
    rw [resolveWith_of_find? hname, Except.ok.injEq]
    constructor
    · rintro rfl
      exact .native hname
    · rintro (hnative | ⟨hnone, -⟩)
      · rw [hname] at hnative
        rw [Option.some.inj hnative]
      · cases hname.symm.trans hnone
  | none =>
    rw [resolveWith_of_find?_eq_none hname, mapError_eq_ok_iff]
    constructor
    · intro h
      cases hcompiles : engine.compile [] (Expression.binding "x" callable) with
      | ok =>
        rw [hcompiles] at h
        cases h
        exact .expression hname hcompiles
      | error reason =>
        rw [hcompiles] at h
        cases h
    · rintro (hnative | ⟨-, hcompiles⟩)
      · cases hname.symm.trans hnative
      · rw [hcompiles]
        rfl

/-- The error names the setting and the callable as it is written. -/
theorem resolveWith_eq_error_iff {e : ConfigError} :
    registry.resolveWith engine key message callable = .error e
      ↔ ∃ reason, registry.Rejects engine callable reason
        ∧ e = .invalidGuard key callable reason := by
  cases hname : registry.predicates.find? (Text.trimmed callable) with
  | some predicate =>
    rw [resolveWith_of_find? hname]
    constructor
    · rintro ⟨⟩
    · rintro ⟨reason, ⟨hnone, -⟩, -⟩
      cases hname.symm.trans hnone
  | none =>
    rw [resolveWith_of_find?_eq_none hname]
    constructor
    · intro h
      cases hcompiles : engine.compile [] (Expression.binding "x" callable) with
      | ok =>
        rw [hcompiles] at h
        cases h
      | error reason =>
        rw [hcompiles] at h
        cases h
        exact ⟨reason, ⟨hname, hcompiles⟩, rfl⟩
    · rintro ⟨reason, ⟨-, hfails⟩, rfl⟩
      rw [hfails]
      rfl

end GuardRegistry

/-! ## Single entries -/

namespace Setting

variable {environment : Environment} {engine : Engine} {registry : GuardRegistry}
  {name : String} {v : Value} {setting : Setting} {record : SettingRecord} {e : ConfigError}

/-- The setting that an entry declares: that of its record, with the key of the
    entry as its name. -/
structure Declares (environment : Environment) (registry : GuardRegistry) (name : String)
    (v : Value) (setting : Setting) : Prop where
  name_eq : setting.name = name
  exists_record : ∃ record, SettingRecord.ofValue v = .ok record
    ∧ setting.doc = record.doc
    ∧ TypeDesc.ofName record.typeName = .ok setting.type
    ∧ setting.type.coerce environment record.default = .ok setting.default
    ∧ List.Forall₂ (fun guard resolved =>
        registry.Resolves environment.engine guard.message guard.callable resolved)
      record.guards setting.guards

/-- The fault of an entry that declares no setting, for each step that can fail
    after all earlier ones did not. -/
inductive Faults (environment : Environment) (registry : GuardRegistry) (name : String)
    (v : Value) : ConfigError → Prop where
  | record {fault : RecordFault} (h : SettingRecord.ofValue v = .error fault) :
    Faults environment registry name v (.invalidSchema name (.record fault))
  | type {record : SettingRecord} (hrecord : SettingRecord.ofValue v = .ok record)
    {typeName : String} (h : TypeDesc.ofName record.typeName = .error typeName) :
    Faults environment registry name v (.unknownType typeName)
  | default {record : SettingRecord} (hrecord : SettingRecord.ofValue v = .ok record)
    {type : TypeDesc} (htype : TypeDesc.ofName record.typeName = .ok type)
    {cause : CoercionError} (h : type.coerce environment record.default = .error cause) :
    Faults environment registry name v (.invalidDefault name cause)
  | guard {record : SettingRecord} (hrecord : SettingRecord.ofValue v = .ok record)
    {type : TypeDesc} (htype : TypeDesc.ofName record.typeName = .ok type)
    {default : Value} (hdefault : type.coerce environment record.default = .ok default)
    {before after : List GuardRecord} {guard : GuardRecord}
    (hguards : record.guards = before ++ guard :: after)
    (hbefore : ∀ earlier ∈ before, ∃ resolved,
      registry.Resolves environment.engine earlier.message earlier.callable resolved)
    {reason : String} (h : registry.Rejects environment.engine guard.callable reason) :
    Faults environment registry name v (.invalidGuard name guard.callable reason)

/-- The guards of a setting are resolved one after the other. -/
theorem withGuards_eq (engine : Engine) (registry : GuardRegistry) (setting : Setting)
    (records : List GuardRecord) :
    setting.withGuards engine registry records
      = (records.mapM fun record =>
          registry.resolveWith engine setting.name record.message record.callable)
        >>= fun guards => .ok { setting with guards := setting.guards ++ guards } := by
  induction records generalizing setting with
  | nil => simp [withGuards, pure, Except.pure, bind, Except.bind]
  | cons record records ih =>
    rw [withGuards, List.mapM_cons]
    cases hresolve : registry.resolveWith engine setting.name record.message record.callable with
    | error e => rfl
    | ok guard =>
      simp only [ih]
      rw [withGuard]
      cases records.mapM fun record =>
        registry.resolveWith engine setting.name record.message record.callable with
      | error e => rfl
      | ok guards => simp [bind, Except.bind, pure, Except.pure]

theorem withGuards_eq_ok_iff {records : List GuardRecord} {guarded : Setting} :
    setting.withGuards engine registry records = .ok guarded ↔
      ∃ guards, List.Forall₂ (fun record guard =>
          registry.Resolves engine record.message record.callable guard) records guards
        ∧ guarded = { setting with guards := setting.guards ++ guards } := by
  simp only [withGuards_eq, bind_eq_ok_iff, mapM_eq_ok_iff, GuardRegistry.resolveWith_eq_ok_iff,
    Except.ok.injEq, eq_comm (b := guarded)]

theorem withGuards_eq_error_iff {records : List GuardRecord} :
    setting.withGuards engine registry records = .error e ↔
      ∃ before record after, records = before ++ record :: after
        ∧ (∀ earlier ∈ before, ∃ guard,
          registry.Resolves engine earlier.message earlier.callable guard)
        ∧ ∃ reason, registry.Rejects engine record.callable reason
          ∧ e = .invalidGuard setting.name record.callable reason := by
  simp [withGuards_eq, bind_eq_error_iff, mapM_eq_error_iff, GuardRegistry.resolveWith_eq_ok_iff,
    GuardRegistry.resolveWith_eq_error_iff]

theorem declare_eq_ok_iff {type : TypeDesc} {doc : String} {rawDefault : Value} :
    declare environment name type doc rawDefault = .ok setting ↔
      ∃ default, type.coerce environment rawDefault = .ok default
        ∧ setting = ⟨name, type, doc, default, []⟩ := by
  rw [declare]
  cases type.coerce environment rawDefault <;> simp [eq_comm]

theorem declare_eq_error_iff {type : TypeDesc} {doc : String} {rawDefault : Value} :
    declare environment name type doc rawDefault = .error e ↔
      ∃ cause, type.coerce environment rawDefault = .error cause
        ∧ e = .invalidDefault name cause := by
  rw [declare]
  cases type.coerce environment rawDefault <;> simp [eq_comm]

theorem ofEntry_eq_ok_iff :
    ofEntry environment registry name v = .ok setting ↔
      Declares environment registry name v setting := by
  rw [ofEntry]
  simp only [bind_eq_ok_iff, mapError_eq_ok_iff, ofRecord, declare_eq_ok_iff, withGuards_eq_ok_iff]
  constructor
  · rintro ⟨record, hrecord, type, htype, _, ⟨default, hdefault, rfl⟩, guards, hguards, rfl⟩
    exact ⟨rfl, record, hrecord, rfl, htype, hdefault, hguards⟩
  · rintro ⟨rfl, record, hrecord, hdoc, htype, hdefault, hguards⟩
    refine ⟨record, hrecord, setting.type, htype, _, ⟨_, hdefault, rfl⟩, setting.guards, hguards,
      ?_⟩
    cases setting
    simp_all

theorem ofEntry_eq_error_iff :
    ofEntry environment registry name v = .error e ↔ Faults environment registry name v e := by
  rw [ofEntry]
  simp only [bind_eq_error_iff, mapError_eq_error_iff, mapError_eq_ok_iff, ofRecord,
    declare_eq_ok_iff, declare_eq_error_iff, withGuards_eq_error_iff]
  constructor
  · rintro (⟨fault, hrecord, rfl⟩ | ⟨record, hrecord, ⟨typeName, htype, rfl⟩
      | ⟨type, htype, ⟨cause, hdefault, rfl⟩ | ⟨_, ⟨default, hdefault, rfl⟩, before, guard, after,
        hguards, hbefore, hguard⟩⟩⟩)
    · exact .record hrecord
    · exact .type hrecord htype
    · exact .default hrecord htype hdefault
    · obtain ⟨reason, hrejects, rfl⟩ := hguard
      exact .guard hrecord htype hdefault hguards hbefore hrejects
  · rintro (hrecord | ⟨hrecord, htype⟩ | ⟨hrecord, htype, hdefault⟩
      | ⟨hrecord, htype, hdefault, hguards, hbefore, hrejects⟩)
    · exact Or.inl ⟨_, hrecord, rfl⟩
    · exact Or.inr ⟨_, hrecord, Or.inl ⟨_, htype, rfl⟩⟩
    · exact Or.inr ⟨_, hrecord, Or.inr ⟨_, htype, Or.inl ⟨_, hdefault, rfl⟩⟩⟩
    · exact Or.inr ⟨_, hrecord, Or.inr ⟨_, htype, Or.inr ⟨_, ⟨_, hdefault, rfl⟩, _, _, _, hguards,
        hbefore, _, hrejects, rfl⟩⟩⟩

end Setting

/-! ## Documents -/

namespace Schema

variable {environment : Environment} {registry : GuardRegistry} {schema : Schema} {doc : Document}
  {e : ConfigError}

/-- A schema is the list of its settings. -/
theorem eq_of_settings_eq {other : Schema} (h : schema.settings = other.settings) :
    schema = other := by
  cases schema
  cases other
  congr

/-- A setting of a new name is added behind the others. -/
theorem exists_add {setting : Setting} (h : schema.declares setting.name = false) :
    ∃ added, schema.add setting = .ok added ∧ added.settings = schema.settings ++ [setting] := by
  have hadd : ∃ added, schema.add setting = .ok added := by
    cases hresult : schema.add setting with
    | ok added => exact ⟨added, rfl⟩
    | error e =>
      rw [add_eq_error_iff, h] at hresult
      exact absurd hresult.1 (by simp)
  obtain ⟨added, hadded⟩ := hadd
  exact ⟨added, hadded, settings_of_add hadded⟩

/-- With names that are new and different, the settings of the entries are added
    behind the others: of the two ways in which an entry can be rejected only its
    own fault is left. -/
theorem addEntries_eq (hnew : ∀ name ∈ Document.keys doc, schema.declares name = false)
    (hdoc : doc.Distinct) :
    (addEntries environment registry schema doc).map Schema.settings
      = (doc.mapM fun entry => Setting.ofEntry environment registry entry.1 entry.2).map
          (schema.settings ++ ·) := by
  induction doc generalizing schema with
  | nil => simp [addEntries, pure, Except.pure, Except.map]
  | cons entry rest ih =>
    obtain ⟨name, v⟩ := entry
    obtain ⟨hname, hrest⟩ := Document.distinct_cons.mp hdoc
    rw [addEntries, List.mapM_cons]
    cases hentry : Setting.ofEntry environment registry name v with
    | error e => simp [bind, Except.bind, Except.map]
    | ok setting =>
      obtain rfl := (Setting.ofEntry_eq_ok_iff.mp hentry).name_eq
      obtain ⟨added, hadded, hsettings⟩ := exists_add (hnew setting.name (by simp))
      have hlater : ∀ name ∈ Document.keys rest, added.declares name = false := by
        intro name hmem
        have hold := hnew name (by simp [hmem])
        rw [Bool.eq_false_iff, ne_eq, declares_iff] at hold ⊢
        rw [hsettings, List.map_append, List.mem_append, List.map_singleton, List.mem_singleton]
        rintro (h | rfl)
        · exact hold h
        · exact hname hmem
      have htail := ih hlater hrest
      rw [hsettings] at htail
      simp only [hadded, bind, Except.bind, htail]
      cases rest.mapM fun entry => Setting.ofEntry environment registry entry.1 entry.2 with
      | error e => rfl
      | ok settings => simp [Except.map, pure, Except.pure]

/-- The settings of a document, if each of its entries declares one. -/
theorem map_settings_ofDocument (hdoc : doc.Distinct) :
    (ofDocument environment registry doc).map settings
      = doc.mapM fun entry => Setting.ofEntry environment registry entry.1 entry.2 := by
  have hnew : ∀ name ∈ Document.keys doc, empty.declares name = false := fun _ _ => rfl
  rw [ofDocument, addEntries_eq hnew hdoc]
  cases doc.mapM fun entry => Setting.ofEntry environment registry entry.1 entry.2 <;> rfl

theorem ofDocument_eq_ok_iff (hdoc : doc.Distinct) :
    ofDocument environment registry doc = .ok schema ↔
      List.Forall₂ (fun entry setting =>
        Setting.Declares environment registry entry.1 entry.2 setting) doc schema.settings := by
  simp only [← Setting.ofEntry_eq_ok_iff]
  rw [← mapM_eq_ok_iff, ← map_settings_ofDocument hdoc]
  cases ofDocument environment registry doc with
  | error e => simp [Except.map]
  | ok loaded =>
    rw [Except.map, Except.ok.injEq, Except.ok.injEq]
    exact ⟨congrArg settings, eq_of_settings_eq⟩

theorem ofDocument_eq_error_iff (hdoc : doc.Distinct) :
    ofDocument environment registry doc = .error e ↔
      ∃ before entry after, doc = before ++ entry :: after
        ∧ (∀ earlier ∈ before, ∃ setting,
          Setting.Declares environment registry earlier.1 earlier.2 setting)
        ∧ Setting.Faults environment registry entry.1 entry.2 e := by
  simp only [← Setting.ofEntry_eq_ok_iff, ← Setting.ofEntry_eq_error_iff]
  rw [← mapM_eq_error_iff, ← map_settings_ofDocument hdoc]
  cases ofDocument environment registry doc <;> simp [Except.map]

/-- What comes of a document: it is a schema exactly if each entry declares a
    setting, and then of these settings in the order of the entries, each of which
    is found under the key of its entry.  Otherwise the fault of the first entry
    that declares none is reported, and stays what it is whatever entries come
    behind that one. -/
theorem ofDocument_diagnosis (environment : Environment) (registry : GuardRegistry)
    (hdoc : doc.Distinct) :
    ((∃ schema, ofDocument environment registry doc = .ok schema) ↔
        ∀ entry ∈ doc, ∃ setting, Setting.Declares environment registry entry.1 entry.2 setting)
      ∧ (∀ schema, ofDocument environment registry doc = .ok schema →
        List.Forall₂ (fun entry setting =>
            Setting.Declares environment registry entry.1 entry.2 setting) doc schema.settings
          ∧ ∀ entry ∈ doc, ∃ setting, schema.find? entry.1 = some setting
            ∧ Setting.Declares environment registry entry.1 entry.2 setting)
      ∧ (∀ e, ofDocument environment registry doc = .error e ↔
        ∃ before entry after, doc = before ++ entry :: after
          ∧ (∀ earlier ∈ before, ∃ setting,
            Setting.Declares environment registry earlier.1 earlier.2 setting)
          ∧ Setting.Faults environment registry entry.1 entry.2 e)
      ∧ ∀ before entry e, (∀ earlier ∈ before, ∃ setting,
          Setting.Declares environment registry earlier.1 earlier.2 setting) →
        Setting.Faults environment registry entry.1 entry.2 e →
        ∀ after, Document.Distinct (before ++ entry :: after) →
          ofDocument environment registry (before ++ entry :: after) = .error e := by
  refine ⟨?_, fun schema h => ?_, fun e => ofDocument_eq_error_iff hdoc, ?_⟩
  · constructor
    · rintro ⟨schema, h⟩ entry hentry
      obtain ⟨setting, -, hdeclares⟩ :=
        exists_mem_of_forall₂ ((ofDocument_eq_ok_iff hdoc).mp h) hentry
      exact ⟨setting, hdeclares⟩
    · -- there is a schema, since no entry has a fault
      intro hall
      cases hresult : ofDocument environment registry doc with
      | ok schema => exact ⟨schema, rfl⟩
      | error e =>
        obtain ⟨before, entry, after, rfl, -, hfaults⟩ := (ofDocument_eq_error_iff hdoc).mp hresult
        obtain ⟨setting, hdeclares⟩ := hall entry (by simp)
        rw [← Setting.ofEntry_eq_ok_iff] at hdeclares
        rw [← Setting.ofEntry_eq_error_iff, hdeclares] at hfaults
        exact absurd hfaults (by simp)
  · have hsettings := (ofDocument_eq_ok_iff hdoc).mp h
    refine ⟨hsettings, fun entry hentry => ?_⟩
    obtain ⟨setting, hmem, hdeclares⟩ := exists_mem_of_forall₂ hsettings hentry
    rw [← hdeclares.name_eq]
    exact ⟨setting, find?_of_mem hmem, hdeclares.name_eq ▸ hdeclares⟩
  · intro before entry e hbefore hfaults after hdistinct
    exact (ofDocument_eq_error_iff hdistinct).mpr ⟨before, entry, after, rfl, hbefore, hfaults⟩

/-- A host without guards, a port with a registered guard, and one with a default
    that is no number. -/
theorem ofDocument_diagnosis_server :
    let registry := GuardRegistry.empty.register "positive" fun v => v.int64?.any (0 < ·)
    let host : Value := .array [.string "localhost", .string "String", .string "Host."]
    let port (default : String) : Value := .table [("type", .string "Int"),
      ("default", .string default), ("doc", .string "Port."), ("guards", .array [.table
        [("message", .string "must be positive"), ("callable", .string " positive ")]])]
    let sound : Document := [("host", host), ("port", port "80")]
    let faulty : Document := [("host", host), ("port", port "eighty"), ("path", .null)]
    let cause : CoercionError := .conversion .int (.string "eighty") (.badInteger .invalidDigit)
    sound.Distinct ∧ faulty.Distinct
      ∧ (∃ schema setting, ofDocument .empty registry sound = .ok schema
        ∧ schema.find? "port" = some setting
        ∧ Setting.Declares .empty registry "port" (port "80") setting)
      ∧ ofDocument .empty registry faulty = .error (.invalidDefault "port" cause) := by
  intro registry host port sound faulty cause
  have hsound : sound.Distinct := by simp [sound, Document.Distinct, Document.keys]
  have hfaulty : faulty.Distinct := by simp [faulty, Document.Distinct, Document.keys]
  obtain ⟨hsucceeds, hschema, -, -⟩ := ofDocument_diagnosis .empty registry hsound
  obtain ⟨-, -, hreports, -⟩ := ofDocument_diagnosis .empty registry hfaulty
  -- the record of each entry is read, its type resolved and its default coerced
  have hstring : TypeDesc.ofName "String" = .ok .string := TypeDesc.ofName_of_name .string
  have hint : TypeDesc.ofName "Int" = .ok .int := TypeDesc.ofName_of_name .int
  have hhost : ∃ setting, Setting.Declares .empty registry "host" host setting :=
    ⟨⟨"host", .string, "Host.", .string "localhost", []⟩, rfl,
      ⟨.string "localhost", "String", "Host.", []⟩, rfl, rfl, hstring, rfl, .nil⟩
  have hport : ∃ setting, Setting.Declares .empty registry "port" (port "80") setting :=
    ⟨⟨"port", .int, "Port.", .int 80, [⟨"must be positive", .native "positive" _⟩]⟩, rfl,
      ⟨.string "80", "Int", "Port.", [⟨"must be positive", " positive "⟩]⟩, rfl, rfl, hint,
      rfl, .cons (.native rfl) .nil⟩
  have hinvalid : Setting.Faults .empty registry "port" (port "eighty")
      (.invalidDefault "port" cause) := by
    have hrecord : SettingRecord.ofValue (port "eighty")
        = .ok ⟨.string "eighty", "Int", "Port.", [⟨"must be positive", " positive "⟩]⟩ := rfl
    have hcause : TypeDesc.int.coerce .empty (.string "eighty") = .error cause := rfl
    exact .default hrecord hint hcause
  obtain ⟨schema, hok⟩ := hsucceeds.mpr (List.forall_mem_cons.mpr
    ⟨hhost, List.forall_mem_singleton.mpr hport⟩)
  obtain ⟨setting, hfind, hdeclares⟩ := (hschema schema hok).2 ("port", port "80")
    (List.mem_cons_of_mem _ List.mem_cons_self)
  exact ⟨hsound, hfaulty, ⟨schema, setting, hok, hfind, hdeclares⟩,
    (hreports _).mpr ⟨[("host", host)], ("port", port "eighty"), [("path", .null)], rfl,
      List.forall_mem_singleton.mpr hhost, hinvalid⟩⟩

end Schema

end LayeredConfig
