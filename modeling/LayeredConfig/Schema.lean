/-
  LayeredConfig.Schema

  Schemas: the settings that a configuration may have.

  A setting is declared with a type, a doc string, a default that was coerced
  into the type, and guards that were resolved, so that a schema that exists is
  consistent in itself.  A schema keeps its settings in the order in which they
  were declared, and no two of them share a name.
-/
import LayeredConfig.Guard
import LayeredConfig.TypeDesc.Grammar

namespace LayeredConfig

/-! ## Settings -/

/-- A declared setting.  The default is a coerced value. -/
structure Setting where
  name : String
  type : TypeDesc
  doc : String
  default : Value
  guards : List Guard

namespace Setting

/-- A setting without guards, its default coerced into its type. -/
def declare (environment : Environment) (name : String) (type : TypeDesc) (doc : String)
    (rawDefault : Value) : Except ConfigError Setting :=
  match type.coerce environment rawDefault with
  | .ok default => .ok ⟨name, type, doc, default, []⟩
  | .error cause => .error (.invalidDefault name cause)

/-- The setting with one more guard, which is applied after the others. -/
def withGuard (setting : Setting) (guard : Guard) : Setting :=
  { setting with guards := setting.guards ++ [guard] }

/-- The setting with guards resolved from their records, up to the first that
    is invalid. -/
def withGuards (engine : Engine) (registry : GuardRegistry) (setting : Setting) :
    List GuardRecord → Except ConfigError Setting
  | [] => .ok setting
  | record :: records =>
    match registry.resolveWith engine setting.name record.message record.callable with
    | .ok guard => (setting.withGuard guard).withGuards engine registry records
    | .error e => .error e

/-- The setting that a record declares: its type is resolved, then its default
    coerced, then its guards are resolved. -/
def ofRecord (environment : Environment) (registry : GuardRegistry) (name : String)
    (record : SettingRecord) : Except ConfigError Setting := do
  -- the order in which faults of one record show
  let type ← (TypeDesc.ofName record.typeName).mapError .unknownType
  let setting ← declare environment name type record.doc record.default
  setting.withGuards environment.engine registry record.guards

/-- The setting that an entry of a schema document declares. -/
def ofEntry (environment : Environment) (registry : GuardRegistry) (name : String) (v : Value) :
    Except ConfigError Setting := do
  let record ← (SettingRecord.ofValue v).mapError fun fault => .invalidSchema name (.record fault)
  ofRecord environment registry name record

end Setting

/-! ## Schemas -/

/-- A list of settings with different names, in the order of declaration. -/
structure Schema where
  settings : List Setting
  nodup : (settings.map Setting.name).Nodup

namespace Schema

/-- The schema without settings. -/
def empty : Schema := ⟨[], List.nodup_nil⟩

/-- The setting of a name. -/
def find? (schema : Schema) (name : String) : Option Setting :=
  schema.settings.find? fun setting => setting.name = name

/-- Whether a setting has that name. -/
def declares (schema : Schema) (name : String) : Bool :=
  (schema.find? name).isSome

/-- The number of settings. -/
def size (schema : Schema) : Nat := schema.settings.length

/-- Whether there are no settings. -/
def isEmpty (schema : Schema) : Bool := schema.settings.isEmpty

/-- A name is declared exactly if it is the name of one of the settings. -/
theorem declares_iff {schema : Schema} {name : String} :
    schema.declares name = true ↔ name ∈ schema.settings.map Setting.name := by
  simp [declares, find?, List.find?_isSome]

/-- Declares one more setting, whose name has to be new. -/
def add (schema : Schema) (setting : Setting) : Except ConfigError Schema :=
  if h : schema.declares setting.name then
    .error (.invalidSchema setting.name .declaredTwice)
  else
    .ok ⟨schema.settings ++ [setting], by
      rw [declares_iff] at h
      rw [List.map_append, List.nodup_append]
      refine ⟨schema.nodup, by simp, ?_⟩
      intro a ha b hb
      simp only [List.map_cons, List.map_nil, List.mem_singleton] at hb
      subst hb
      exact fun hab => h (hab ▸ ha)⟩

/-- Adding fails exactly if the name is taken. -/
theorem add_eq_error_iff {schema : Schema} {setting : Setting} {e : ConfigError} :
    schema.add setting = .error e ↔
      schema.declares setting.name = true
        ∧ e = .invalidSchema setting.name .declaredTwice := by
  by_cases h : schema.declares setting.name = true
  · simp only [add, h, dite_true, Except.error.injEq, true_and]
    exact eq_comm
  · simp [add, h]

/-- A setting that could be added stands behind all others. -/
theorem settings_of_add {schema added : Schema} {setting : Setting}
    (h : schema.add setting = .ok added) :
    added.settings = schema.settings ++ [setting] := by
  by_cases hd : schema.declares setting.name = true
  · simp [add, hd] at h
  · simp only [add, hd, Bool.false_eq_true, dite_false, Except.ok.injEq] at h
    subst h
    rfl

/-- Declares the settings of a document after those of a schema, up to the
    first that is rejected. -/
def addEntries (environment : Environment) (registry : GuardRegistry) (schema : Schema) :
    Document → Except ConfigError Schema
  | [] => .ok schema
  | (name, v) :: rest => do
    let setting ← Setting.ofEntry environment registry name v
    let schema ← schema.add setting
    addEntries environment registry schema rest

/-- The schema of a decoded schema document. -/
def ofDocument (environment : Environment) (registry : GuardRegistry) (doc : Document) :
    Except ConfigError Schema :=
  addEntries environment registry empty doc

end Schema

end LayeredConfig
