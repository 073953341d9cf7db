/-
  LayeredConfig.Resolution

  From layers to validated settings.

  The layers are files in rising order of precedence, then environment
  variables, then overrides.  Merged into one document they are split into the
  global section and the named sections.  Every section begins with the
  defaults of the schema, not with what the global section holds, and the keys
  that it sets itself are validated and replace them.
-/
import LayeredConfig.Layer.Merge
import LayeredConfig.Layer.Override
import LayeredConfig.Toml.Reader
import LayeredConfig.Validation

namespace LayeredConfig

/-! ## Data -/

/-- What the settings hold in one section, by name. -/
abbrev SectionData := NameMap Held

/-- What the settings hold in the global section and in the named ones. -/
structure ConfigData where
  global : SectionData
  named : NameMap SectionData

/-- A section: the named one of that name, or the global one. -/
def ConfigData.find? (data : ConfigData) : (sectionName : Option String) → Option SectionData
  | none => some data.global
  | some name => data.named.find? name

/-! ## Layers -/

/-- A configuration file: where it is, and its text. -/
structure ConfigFile where
  path : String
  content : String

/-- The document of a TOML text.  The path only appears in errors. -/
def ConfigFile.document (file : ConfigFile) : Except ConfigError Document :=
  match Toml.ofString file.content with
  | some doc => .ok doc
  | none => .error (.parseError file.path)

/-- The schema of a schema file. -/
def Schema.ofFile (environment : Environment) (registry : GuardRegistry) (file : ConfigFile) :
    Except ConfigError Schema := do
  Schema.ofDocument environment registry (← file.document)

namespace Schema

/-- The document of a configuration file, checked for keys that the schema does
    not have: at its top always, and inside of its sections in strict mode. -/
def checkedDocument (schema : Schema) (strict : Bool) (file : ConfigFile) :
    Except ConfigError Document := do
  let doc ← file.document
  schema.checkTopLevel doc
  if strict then schema.checkKeys doc file.content file.path
  return doc

/-- Lays the documents of files over a document, one after another. -/
def mergeOnto (schema : Schema) (strict : Bool) (merged : Document) :
    List ConfigFile → Except ConfigError Document
  | [] => .ok merged
  | file :: files => do
    let doc ← schema.checkedDocument strict file
    schema.mergeOnto strict (merged.overlay doc) files

/-- The merged documents of files, the last on top. -/
def mergeFiles (schema : Schema) (strict : Bool) (files : List ConfigFile) :
    Except ConfigError Document :=
  schema.mergeOnto strict [] files

end Schema

/-- The layers above the files. -/
structure RuntimeLayers where
  /-- The start of the names of variables that count; without it none does. -/
  variableStart : Option String
  processVariables : Variables
  overrides : List (String × Value)

/-- The overrides laid over the environment variables. -/
def RuntimeLayers.document (layers : RuntimeLayers) : Document :=
  let fromEnvironment := match layers.variableStart with
    | some start => Document.ofVariables start layers.processVariables
    | none => []
  Document.overlay fromEnvironment (Document.ofOverrides layers.overrides)

/-! ## Sections -/

/-- A raw document taken apart: the keys that are settings, and the sections in
    their order. -/
structure SplitDocument where
  global : Document
  sections : List (String × Document)

namespace Schema

/-- Takes a raw document apart.  The first key that is neither a setting nor
    bound to a table is reported. -/
def split (schema : Schema) : Document → Except ConfigError SplitDocument
  | [] => .ok ⟨[], []⟩
  | (key, v) :: rest =>
    -- a setting may hold a table, so the schema decides first
    if schema.declares key then do
      let split ← schema.split rest
      return { split with global := (key, v) :: split.global }
    else match v with
      | .table entries => do
        let split ← schema.split rest
        return { split with sections := (key, entries) :: split.sections }
      | _ => .error (.unknownSetting key none)

/-- A section in which every setting holds its default. -/
def defaults (schema : Schema) : SectionData :=
  .ofList (schema.settings.map fun setting => (setting.name, setting.held))

/-- Validates the keys of a section in their order.  A key that no setting has
    is an error in strict mode and does not count in lenient mode. -/
def validateKeys (environment : Environment) (schema : Schema) (strict : Bool)
    (sectionName : Option String) : Document → Except ConfigError (List (String × Held))
  | [] => .ok []
  | (key, raw) :: rest =>
    match schema.find? key with
    | none =>
      if strict then .error (.unknownSetting key sectionName)
      else schema.validateKeys environment strict sectionName rest
    | some setting => do
      let held ← (setting.validate environment raw).mapError (.inSection sectionName)
      let others ← schema.validateKeys environment strict sectionName rest
      return (key, held) :: others

/-- What the settings hold in a section with the given keys. -/
def sectionData (environment : Environment) (schema : Schema) (strict : Bool)
    (sectionName : Option String) (raw : Document) : Except ConfigError SectionData := do
  let validated ← schema.validateKeys environment strict sectionName raw
  return schema.defaults.insertAll validated

/-- What the settings hold in named sections, up to the first error. -/
def namedSections (environment : Environment) (schema : Schema) (strict : Bool) :
    List (String × Document) → Except ConfigError (List (String × SectionData))
  | [] => .ok []
  | (name, raw) :: rest => do
    let data ← schema.sectionData environment strict (some name) raw
    let others ← schema.namedSections environment strict rest
    return (name, data) :: others

/-- The data of one merged document. -/
def buildData (environment : Environment) (schema : Schema) (strict : Bool) (raw : Document) :
    Except ConfigError ConfigData := do
  let split ← schema.split raw
  let global ← schema.sectionData environment strict none split.global
  let named ← schema.namedSections environment strict split.sections
  return ⟨global, .ofList named⟩

/-- The data of files with runtime layers over them. -/
def resolve (environment : Environment) (schema : Schema) (strict : Bool)
    (files : List ConfigFile) (layers : RuntimeLayers) : Except ConfigError ConfigData := do
  -- files first, and the layers above them on top of all files
  let merged ← schema.mergeFiles strict files
  schema.buildData environment strict (merged.overlay layers.document)

end Schema

end LayeredConfig
