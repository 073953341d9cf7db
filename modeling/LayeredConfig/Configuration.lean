/-
  LayeredConfig.Configuration

  A loaded configuration.

  It keeps the schema and the layers above the files beside its data, so that a
  file that comes later is laid beneath those layers again.
-/
import LayeredConfig.Resolution

namespace LayeredConfig

/-- A validated configuration. -/
structure Configuration where
  schema : Schema
  data : ConfigData
  /-- The environment variables and overrides. -/
  layers : Document
  strict : Bool

namespace Configuration

/-- The configuration of files with runtime layers over them. -/
def resolve (environment : Environment) (schema : Schema) (strict : Bool)
    (files : List ConfigFile) (layers : RuntimeLayers) : Except ConfigError Configuration := do
  let data ← schema.resolve environment strict files layers
  return ⟨schema, data, layers.document, strict⟩

/-! ## Looking up -/

/-- What the settings hold in a section. -/
def sectionData (config : Configuration) (sectionName : Option String) :
    Except ConfigError SectionData :=
  match config.data.find? sectionName with
  | some data => .ok data
  | none => .error (.unknownSection (sectionName.getD ""))

/-- What a setting holds in a section. -/
def held (config : Configuration) (key : String) (sectionName : Option String) :
    Except ConfigError Held := do
  let data ← config.sectionData sectionName
  match data.find? key with
  | some held => .ok held
  | none => .error (.unknownSetting key sectionName)

/-- The value of a setting in a section. -/
def get (config : Configuration) (key : String) (sectionName : Option String) :
    Except ConfigError Value :=
  (config.held key sectionName).map Held.value

/-- The names of the named sections in increasing order. -/
def sections (config : Configuration) : List String :=
  config.data.named.names

/-- Whether there is a section of that name. -/
def hasSection (config : Configuration) (name : String) : Bool :=
  (config.data.named.find? name).isSome

/-! ## Updating -/

/-- The runtime layers as far as they concern a document: the keys that are
    settings, and the sections that the document mentions. -/
def layersFor (config : Configuration) (doc : Document) : Document :=
  config.layers.filter fun (key, _) => config.schema.declares key || doc.binds key

/-- Replaces the global section and every section that a file mentions by what
    the file and the runtime layers say.  Other sections stay as they are, and
    nothing is replaced unless the whole file is valid. -/
def update (environment : Environment) (config : Configuration) (file : ConfigFile) :
    Except ConfigError Configuration := do
  -- the file alone is checked, as files are when they are loaded
  let raw ← config.schema.mergeFiles config.strict [file]
  let fresh ← config.schema.buildData environment config.strict
    (Document.overlay raw (config.layersFor raw))
  -- sections that the file does not mention keep what they hold
  return { config with data := ⟨fresh.global, config.data.named.insertAll fresh.named.entries⟩ }

end Configuration

end LayeredConfig
