/-
  LayeredConfig.Loader

  Loading a schema and the configuration that is validated against it.

  A loader collects where the schema comes from, the native guards, the files
  and the layers above them.  Files are read through a function, so that a
  load is a function of what the files hold and of the process environment.
-/
import LayeredConfig.FileTree
import LayeredConfig.Report

namespace LayeredConfig

/-! ## Loaders -/

/-- Where a schema comes from. -/
inductive SchemaSource where
  | built (schema : Schema)
  | text (text : String)
  | file (path : String)

/-- What a configuration is loaded from. -/
structure Loader where
  schema : Option SchemaSource
  registry : GuardRegistry
  /-- The paths of the files, those of the lowest precedence first. -/
  files : List String
  /-- The start of the names of the variables that count. -/
  variableStart : Option String
  strict : Bool
  overrides : List (String × Value)

/-- Reads the text of the file at a path. -/
abbrev FileReader := String → Except FileFault String

namespace Loader

/-- The loader of nothing, in strict mode. -/
def empty : Loader := ⟨none, .empty, [], none, true, []⟩

/-- Takes the schema from a source, and from no earlier one. -/
def withSchema (loader : Loader) (source : SchemaSource) : Loader :=
  { loader with schema := some source }

/-- Registers a native guard that a schema text or file can refer to. -/
def withGuard (loader : Loader) (name : String) (predicate : Value → Bool) : Loader :=
  { loader with registry := loader.registry.register name predicate }

/-- Adds a file, which takes precedence over those before it. -/
def withFile (loader : Loader) (path : String) : Loader :=
  { loader with files := loader.files ++ [path] }

/-- Lets environment variables count whose names begin with `start`. -/
def withVariables (loader : Loader) (start : String) : Loader :=
  { loader with variableStart := some start }

/-- Sets whether keys that no setting has are errors. -/
def withStrict (loader : Loader) (strict : Bool) : Loader :=
  { loader with strict }

/-- Adds an override, unless there is no value for it. -/
def withOverride (loader : Loader) (key : String) (v : Option Value) : Loader :=
  match v with
  | some v => { loader with overrides := loader.overrides ++ [(key, v)] }
  | none => loader

/-! ## Loading -/

/-- The file at a path. -/
def fetch (read : FileReader) (path : String) : Except ConfigError ConfigFile :=
  match read path with
  | .ok content => .ok ⟨path, content⟩
  | .error fault => .error (.fileError path fault)

/-- How errors name a schema text that comes from no file. -/
def schemaTextPath : String := "<schema>"

/-- The schema of a loader. -/
def effectiveSchema (environment : Environment) (read : FileReader) (loader : Loader) :
    Except ConfigError Schema :=
  match loader.schema with
  | none => .error .schemaRequired
  | some (.built schema) => .ok schema
  | some (.text text) => Schema.ofFile environment loader.registry ⟨schemaTextPath, text⟩
  | some (.file path) => do
    let file ← fetch read path
    Schema.ofFile environment loader.registry file

/-- The layers above the files.  The variables are those of the process. -/
def runtimeLayers (environment : Environment) (loader : Loader) : RuntimeLayers :=
  ⟨loader.variableStart, environment.processVariables, loader.overrides⟩

/-- The configuration of a loader.  The schema is loaded first, and then all
    files are read before one of them is looked at. -/
def load (environment : Environment) (read : FileReader) (loader : Loader) :
    Except ConfigError Configuration := do
  let schema ← loader.effectiveSchema environment read
  -- a missing file shows before anything in another file is wrong
  let files ← loader.files.mapM (fetch read)
  Configuration.resolve environment schema loader.strict files (loader.runtimeLayers environment)

end Loader

/-! ## Actions -/

/-- What can be asked of a loader. -/
inductive Action where
  /-- Show the settings of a section. -/
  | list (sectionName : Option String)
  /-- Show the template of the schema, or write it to a file. -/
  | generate (output : Option String)
  /-- Show one setting. -/
  | get (key : String) (sectionName : Option String)
  deriving DecidableEq

/-- What comes of an action: what is shown, once the text that may come with it
    is written to its file. -/
structure ActionResult where
  report : Report
  output : Option ConfigFile

/-- Carries out an action but for writing to a file.  A template needs no
    configuration files. -/
def Loader.perform (environment : Environment) (read : FileReader) (loader : Loader) :
    Action → Except ConfigError ActionResult
  | .list sectionName => do
    let config ← loader.load environment read
    return ⟨← config.listReport sectionName, none⟩
  | .generate output => do
    -- only the schema is loaded, so faulty files do no harm here
    let schema ← loader.effectiveSchema environment read
    match output with
    | some path => return ⟨.templateWritten path, some ⟨path, schema.template⟩⟩
    | none => return ⟨.template schema.template, none⟩
  | .get key sectionName => do
    let config ← loader.load environment read
    return ⟨← config.getReport key sectionName, none⟩

/-- Carries out an action in a directory. -/
def Loader.performIn (environment : Environment) (tree : FileTree) (loader : Loader)
    (action : Action) : Except ConfigError (Report × FileTree) := do
  let result ← loader.perform environment tree.read action
  match result.output with
  | none => return (result.report, tree)
  | some file =>
    match tree.writeFile file.path file.content.toUTF8 with
    | .ok tree => return (result.report, tree)
    | .error (path, fault) => .error (.fileError path fault)

end LayeredConfig
