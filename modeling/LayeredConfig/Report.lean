/-
  LayeredConfig.Report

  What is shown about a configuration: the template of a schema, one setting,
  or the settings of a section.

  A template is a TOML text in which every setting stands with its doc string,
  its type and its guards, the assignment of its default behind a comment sign.
-/
import LayeredConfig.Configuration
import LayeredConfig.Toml.Literal

namespace LayeredConfig

/-! ## Templates -/

/-- The comment lines of a doc string. -/
def docComment (doc : String) : String :=
  String.join ((Text.linesOf doc).map fun line => "# " ++ line ++ "\n")

/-- The part of a template about one setting. -/
def Setting.template (setting : Setting) : String :=
  docComment setting.doc ++ "# type: " ++ setting.type.name ++ "\n"
    ++ String.join (setting.guards.map fun guard => "# guard: " ++ guard.message ++ "\n")
    ++ "#" ++ setting.name ++ " = " ++ Toml.defaultLiteral setting.default ++ "\n"

/-- The template of a schema: its settings with empty lines between them. -/
def Schema.template (schema : Schema) : String :=
  String.intercalate "\n" (schema.settings.map Setting.template)

/-! ## Reports -/

/-- The result of an operation as it is shown. -/
inductive Report where
  /-- The text of a template. -/
  | template (text : String)
  /-- A template was written to a file. -/
  | templateWritten (path : String)
  /-- The value of one setting, with its type and its doc string. -/
  | setting (key : String) (sectionName : Option String) (value typeName doc : String)
  /-- The values of the settings of a section. -/
  | listing (sectionName : Option String) (entries : List (String × String))

namespace Report

/-- An assignment as it is shown. -/
def assignment (key value : String) : String :=
  key ++ " = " ++ value

/-- The text of a report. -/
def display : Report → String
  | .template text => text
  | .templateWritten path => "Config template written to " ++ path
  | .setting key _ value typeName doc =>
    docComment doc ++ "# type: " ++ typeName ++ "\n" ++ assignment key value
  | .listing sectionName entries =>
    let header := match sectionName with
      | some name => "[" ++ name ++ "]\n"
      | none => ""
    header ++ String.intercalate "\n" (entries.map fun (key, value) => assignment key value)

end Report

namespace Configuration

/-- The report on one setting. -/
def getReport (config : Configuration) (key : String) (sectionName : Option String) :
    Except ConfigError Report := do
  let held ← config.held key sectionName
  let doc := match config.schema.find? key with
    | some setting => setting.doc
    | none => ""
  return .setting key sectionName held.value.display held.type.name doc

/-- The report on a section: its settings in the order of their declaration. -/
def listReport (config : Configuration) (sectionName : Option String) :
    Except ConfigError Report := do
  let data ← config.sectionData sectionName
  let entries := config.schema.settings.filterMap fun setting =>
    (data.find? setting.name).map fun held => (held.name, held.value.display)
  return .listing sectionName entries

end Configuration

end LayeredConfig
