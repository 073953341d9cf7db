/-
  LayeredConfig.ConfigCommand

  The command group that shows a configuration: `list` shows the settings of a
  section, `gen` the template, and `get` one setting.  Without a subcommand the
  settings are listed.
-/
import LayeredConfig.CommandLine
import LayeredConfig.Loader

namespace LayeredConfig.ConfigCommand

/-- The option that every command has. -/
def helpOption : OptionSpec := ⟨"help", some 'h', none, false⟩

/-- The option for the section that is read. -/
def sectionOption : OptionSpec := ⟨"section", none, some .text, false⟩

/-- The option for the file that a template is written to. -/
def outputOption : OptionSpec := ⟨"output", some 'o', some .path, false⟩

/-- The command group inside a command with the given options. -/
def spec (outer : List OptionSpec) : CommandSpec :=
  let shared := helpOption :: sectionOption :: outer
  .mk shared []
    [("list", .mk shared [] [] false),
     ("gen", .mk (outputOption :: shared) [] [] false),
     ("get", .mk shared ["key"] [] false)]
    false

/-- The action that a command line asks for; `names` are its subcommands inside
    the group. -/
def action (line : CommandLine) (names : List String) : Action :=
  match names with
  | "gen" :: _ => .generate (line.value? "output")
  | "get" :: _ => .get ((line.value? "key").getD "") (line.value? "section")
  | _ => .list (line.value? "section")

/-- The action that the arguments of the group ask for. -/
def read (arguments : List String) : Except UsageFault Action := do
  let line ← CommandLine.read (spec []) arguments
  return action line line.path

end LayeredConfig.ConfigCommand
