/-
  LayeredConfig.Demo

  A small server tool that is configured by this library.

  It has six settings.  `echo` prints what they hold in a section and `config`
  is the command group for showing configurations.  Files, the environment
  variables that begin with `TYPEFIG_DEMO`, and options for port and host are
  the layers.
-/
import LayeredConfig.ConfigCommand

namespace LayeredConfig.Demo

/-! ## Schema and command line -/

/-- The settings of the tool. -/
def schemaText : String :=
  "
[port]
type = \"Int\"
default = 8080
doc = \"Port the server listens on.\"
guards = [
    \x7b message = \"port must not be privileged\", callable = \"unprivileged\" \x7d,
    \x7b message = \"port must fit in 16 bits\", callable = \". <= 65535\" \x7d,
]

[host]
type = \"String\"
default = \"localhost\"
doc = \"Host name to bind.\"

[nums]
type = \"List[Int]\"
default = \"1, 2, 3\"
doc = \"Worker ids, in start order.\"

[timeout]
type = \"Union[Float,String]\"
default = 2.5
doc = \"Request timeout in seconds, or \\\"never\\\".\"

[backup]
type = \"Optional[String]\"
default = \"None\"
doc = \"Address of the backup server, if any.\"

[verbose]
type = \"Bool\"
default = \"False\"
doc = \"Print extra detail.\"
"

/-- How the names of the variables begin that count. -/
def variableStart : String := "TYPEFIG_DEMO"

/-- The options that all commands of the tool have. -/
def options : List OptionSpec :=
  [⟨"file", none, some .path, true⟩, ⟨"port", none, some .integer, false⟩,
   ⟨"host", none, some .text, false⟩, ⟨"lenient", none, none, false⟩]

/-- The commands of the tool. -/
def spec : CommandSpec :=
  let shared := ConfigCommand.helpOption :: options
  .mk shared []
    [("echo", .mk (ConfigCommand.sectionOption :: shared) [] [] false),
     ("config", ConfigCommand.spec options)]
    true

/-- Whether a port may be used by everyone. -/
def isUnprivileged (v : Value) : Bool :=
  match v.int64? with
  | some port => 1024 ≤ port
  | none => false

/-- The integer that an option for integers was given. -/
def integerOption (line : CommandLine) (name : String) : Option Value := do
  let text ← line.value? name
  match readInteger text.toList with
  | .ok n => some (.int n)
  | .error _ => none

/-- The loader for a command line. -/
def loader (line : CommandLine) : Loader :=
  let loader := Loader.empty
    |>.withSchema (.text schemaText)
    |>.withGuard "unprivileged" isUnprivileged
    |>.withVariables variableStart
    |>.withStrict (!line.hasFlag "lenient")
    |>.withOverride "port" (integerOption line "port")
    |>.withOverride "host" ((line.value? "host").map Value.string)
  (line.values "file").foldl Loader.withFile loader

/-! ## Output -/

/-- The result of a run.  A text that goes to a file has to be written before
    anything is shown. -/
structure Run where
  exitCode : Nat
  output : String
  errors : String
  file : Option ConfigFile

/-- The run that fails with an error. -/
def Run.failure (headline : String) (e : ConfigError) : Run :=
  ⟨1, "", headline ++ e.message ++ "\n", none⟩

/-- A text with spaces behind it up to a width. -/
def padded (width : Nat) (s : String) : String :=
  s ++ String.ofList (List.replicate (width - s.length) ' ')

/-- What a section holds, one setting a line, and for the global section the
    names of the others. -/
def echo (config : Configuration) (sectionName : Option String) : Except ConfigError String := do
  let data ← config.sectionData sectionName
  let width := (data.names.map String.utf8ByteSize).foldl max 0
  let header := match sectionName with
    | some name => "[" ++ name ++ "]\n"
    | none => ""
  let rows := config.schema.settings.filterMap fun setting =>
    (data.find? setting.name).map fun held =>
      padded width held.name ++ "  " ++ held.value.text ++ "  (" ++ held.type.name ++ ")\n"
  let others := if sectionName.isNone && !config.sections.isEmpty then
      "\nsections: " ++ String.intercalate ", " config.sections ++ "\n"
    else ""
  return header ++ String.join rows ++ others

/-! ## Runs -/

/-- Prints what a section holds. -/
def runEcho (environment : Environment) (read : FileReader) (line : CommandLine) : Run :=
  match (loader line).load environment read with
  | .error e => .failure "Failed to load config:\n" e
  | .ok config =>
    match echo config (line.value? "section") with
    | .error e => .failure "" e
    | .ok text => ⟨0, text, "", none⟩

/-- How an error of the command group is announced. -/
def configHeadline : String := "Config error:\n"

/-- Carries out an action of the command group. -/
def runAction (environment : Environment) (read : FileReader) (line : CommandLine)
    (action : Action) : Run :=
  match (loader line).perform environment read action with
  | .error e => .failure configHeadline e
  | .ok result => ⟨0, result.report.display ++ "\n", "", result.output⟩

/-- What is said about the use of the tool. -/
def usage : String :=
  "Usage: demo [OPTIONS] <COMMAND>\n\nCommands:\n"
    ++ "  echo    Print the resolved settings of one section\n"
    ++ "  config  Inspect the configuration (list, get, gen)\n"

/-- Runs the tool. -/
def run (environment : Environment) (read : FileReader) (arguments : List String) : Run :=
  match CommandLine.read spec arguments with
  | .error .displayHelp => ⟨0, usage, "", none⟩
  | .error _ => ⟨2, "", usage, none⟩
  | .ok line =>
    match line.path with
    | "config" :: names => runAction environment read line (ConfigCommand.action line names)
    | _ => runEcho environment read line

/-- The paths of the files that a run reads. -/
def filesOf (arguments : List String) : List String :=
  match CommandLine.read spec arguments with
  | .ok line => line.values "file"
  | .error _ => []

/-- The run after its file could not be written. -/
def Run.afterFailedWrite (path : String) (fault : FileFault) : Run :=
  .failure configHeadline (.fileError path fault)

/-- Runs the tool in a directory. -/
def runIn (environment : Environment) (tree : FileTree) (arguments : List String) :
    Run × FileTree :=
  let result := run environment tree.read arguments
  match result.file with
  | none => (result, tree)
  | some file =>
    match tree.writeFile file.path file.content.toUTF8 with
    | .ok tree => (result, tree)
    | .error (path, fault) => (.afterFailedWrite path fault, tree)

end LayeredConfig.Demo
