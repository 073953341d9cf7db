/-
  LayeredConfig.CommandLine

  Reading command lines.

  A command has options, positional arguments and subcommands, whose options
  include those of the command that they belong to.  An option that waits for
  its value takes the next argument unless that looks like an option.  What an
  option was given is looked at only when the next option or positional
  argument begins or the command ends, so of several faults the one that shows
  first on this way is reported; a subcommand is read before the faults of the
  command around it are looked at.
-/
import LayeredConfig.Number.Decimal
import LayeredConfig.Text.Split

namespace LayeredConfig

/-! ## Commands -/

/-- What may be given to an option or a positional argument. -/
inductive ArgumentKind where
  | text
  /-- A path is not empty. -/
  | path
  | integer
  deriving DecidableEq

/-- An option.  Without a kind of argument it is a flag. -/
structure OptionSpec where
  long : String
  short : Option Char
  argument : Option ArgumentKind
  /-- Whether the option may be given more than once. -/
  repeatable : Bool

/-- A command: its options, the names of its positional arguments, its
    subcommands, and whether one of them has to follow. -/
inductive CommandSpec where
  | mk (options : List OptionSpec) (positionals : List String)
      (subcommands : List (String × CommandSpec)) (needsSubcommand : Bool)

namespace CommandSpec

/-- The options of a command. -/
def options : CommandSpec → List OptionSpec
  | .mk options _ _ _ => options

/-- The names of the positional arguments of a command. -/
def positionals : CommandSpec → List String
  | .mk _ positionals _ _ => positionals

/-- The subcommands of a command by name. -/
def subcommands : CommandSpec → List (String × CommandSpec)
  | .mk _ _ subcommands _ => subcommands

/-- Whether a subcommand has to follow. -/
def needsSubcommand : CommandSpec → Bool
  | .mk _ _ _ needsSubcommand => needsSubcommand

/-- The subcommand of a name. -/
def subcommand? (spec : CommandSpec) (name : String) : Option CommandSpec :=
  (spec.subcommands.find? fun sub => sub.1 = name).map Prod.snd

/-- Whether a name is that of a subcommand.  A command with subcommands has one
    more that helps with the others. -/
def namesSubcommand (spec : CommandSpec) (name : String) : Bool :=
  !spec.subcommands.isEmpty && (name = "help" || (spec.subcommand? name).isSome)

/-- The option of a long name. -/
def long? (spec : CommandSpec) (name : String) : Option OptionSpec :=
  spec.options.find? fun option => option.long = name

/-- The option of a short name. -/
def short? (spec : CommandSpec) (name : Char) : Option OptionSpec :=
  spec.options.find? fun option => option.short = some name

end CommandSpec

/-! ## Faults -/

/-- Why a command line is not carried out. -/
inductive UsageFault where
  | invalidValue
  | valueValidation
  | unknownArgument
  | invalidSubcommand
  | argumentConflict
  | tooManyValues
  | missingRequiredArgument
  | missingSubcommand
  /-- The command line asks for help. -/
  | displayHelp
  deriving DecidableEq

/-! ## Reading one command -/

/-- What was given to a command: values by the long name of their option or by
    the name of their positional argument, in the order of the line. -/
abbrev Given := List (String × String)

/-- An option or a positional argument whose values were not looked at yet. -/
structure Pending where
  name : String
  kind : ArgumentKind
  repeatable : Bool
  value : Option String

/-- Where the reading of a command stands. -/
structure ReadState where
  given : Given
  pending : Option Pending
  /-- The positional arguments that are still to come. -/
  positionals : List String
  /-- Whether the pending option takes the next argument. -/
  awaiting : Bool
  /-- Whether all further arguments are positional. -/
  positionalOnly : Bool

namespace ReadState

/-- The state before the first argument of a command. -/
def start (spec : CommandSpec) : ReadState :=
  ⟨[], none, spec.positionals, false, false⟩

/-- Whether a text may be given where a kind of argument is called for. -/
def checkValue (kind : ArgumentKind) (text : String) : Except UsageFault Unit :=
  match kind with
  | .text => .ok ()
  | .path => if text = "" then .error .invalidValue else .ok ()
  | .integer =>
    match readInteger text.toList with
    | .ok _ => .ok ()
    | .error _ => .error .valueValidation

/-- Records what was given to an option, which only once is allowed unless it
    is repeatable. -/
def record (state : ReadState) (name : String) (repeatable : Bool) (text : String) :
    Except UsageFault ReadState :=
  if !repeatable && state.given.any (fun entry => entry.1 = name) then .error .argumentConflict
  else .ok { state with given := state.given ++ [(name, text)] }

/-- Looks at what is pending. -/
def settle (state : ReadState) : Except UsageFault ReadState :=
  match state.pending with
  | none => .ok state
  | some pending => do
    match pending.value with
    | none => .error .invalidValue
    | some text =>
      -- giving it twice is reported before a bad value
      let settled := { state with pending := none, awaiting := false }
      let settled ← settled.record pending.name pending.repeatable text
      checkValue pending.kind text
      return settled

/-- Begins an option with the value attached to it, if there is one. -/
def beginOption (state : ReadState) (option : OptionSpec) (attached : Option String) :
    Except UsageFault ReadState := do
  match option.argument, attached with
  | none, some _ => .error .tooManyValues
  -- a flag: what was pending before it comes first
  | none, none =>
    let state ← state.settle
    if option.long = "help" then .error .displayHelp
    else state.record option.long option.repeatable "true"
  | some kind, some text =>
    let state ← state.settle
    let state := { state with pending := some ⟨option.long, kind, option.repeatable, some text⟩ }
    state.settle
  | some kind, none =>
    let state ← state.settle
    let pending := some ⟨option.long, kind, option.repeatable, none⟩
    -- the value is the next argument, unless that looks like an option
    return { state with pending, awaiting := true }

/-- Reads short options that stand together.  The first one with a value takes
    the rest of the argument, after an equals sign if there is one. -/
def beginShort (spec : CommandSpec) : List Char → ReadState → Except UsageFault ReadState
  | [], state => .ok state
  | c :: rest, state =>
    match spec.short? c with
    | none => .error .unknownArgument
    | some option =>
      match option.argument, rest with
      | none, _ => do beginShort spec rest (← state.beginOption option none)
      | some _, [] => state.beginOption option none
      | some _, '=' :: text => state.beginOption option (some (String.ofList text))
      | some _, text => state.beginOption option (some (String.ofList text))

/-- Reads a long option, without the dashes before it. -/
def beginLong (spec : CommandSpec) (text : List Char) (state : ReadState) :
    Except UsageFault ReadState :=
  let name := text.takeWhile (· != '=')
  let attached := match text.dropWhile (· != '=') with
    | [] => none
    | _ :: value => some (String.ofList value)
  match spec.long? (String.ofList name) with
  | some option => state.beginOption option attached
  | none => .error .unknownArgument

/-- Takes an argument that is no option. -/
def takePositional (spec : CommandSpec) (argument : String) (state : ReadState) :
    Except UsageFault ReadState :=
  match state.positionals with
  | name :: others => do
    let state ← state.settle
    let pending := some ⟨name, .text, false, some argument⟩
    return { state with pending, positionals := others, awaiting := false }
  | [] =>
    -- behind two dashes the name of a subcommand is no subcommand any more
    if spec.subcommands.isEmpty
        || (state.positionalOnly && spec.namesSubcommand argument) then
      .error .unknownArgument
    else .error .invalidSubcommand

/-- What an argument does to a command, subcommands apart. -/
def step (spec : CommandSpec) (argument : String) (state : ReadState) :
    Except UsageFault ReadState :=
  if state.positionalOnly then state.takePositional spec argument
  else match argument.toList with
    | ['-', '-'] => .ok { state with positionalOnly := true }
    | '-' :: '-' :: text => state.beginLong spec text
    | '-' :: c :: text => beginShort spec (c :: text) state
    | _ =>
      match state.awaiting, state.pending with
      | true, some pending =>
        let pending := { pending with value := some argument }
        .ok { state with pending := some pending, awaiting := false }
      -- a single dash is an argument like any other
      | _, _ => state.takePositional spec argument

/-- Ends a command: its last faults, and what it misses. -/
def finish (spec : CommandSpec) (hasSubcommand : Bool) (state : ReadState) :
    Except UsageFault Given := do
  let state ← state.settle
  if spec.needsSubcommand && !hasSubcommand then .error .missingSubcommand
  else if !state.positionals.isEmpty then .error .missingRequiredArgument
  else return state.given

end ReadState

/-! ## Command lines -/

/-- A command and what was given to it. -/
structure Level where
  command : String
  given : Given

/-- Asks for help about a subcommand of a subcommand and so on. -/
def helpOn (spec : CommandSpec) : List String → UsageFault
  | [] => .displayHelp
  | name :: names =>
    match spec.subcommand? name with
    | some sub => helpOn sub names
    | none => if name = "help" && !spec.subcommands.isEmpty && names.isEmpty then .displayHelp
      else .invalidSubcommand

/-- Reads the arguments of a command and of the subcommands in it, the levels
    from the outermost command to the innermost. -/
def readLevels (command : String) (spec : CommandSpec) (state : ReadState) :
    (arguments : List String) → Except UsageFault (List Level)
  | [] => do return [⟨command, ← state.finish spec false⟩]
  | argument :: arguments =>
    let mayBeSubcommand := !state.positionalOnly && !state.awaiting
    if mayBeSubcommand && argument = "help" && !spec.subcommands.isEmpty then
      .error (helpOn spec arguments)
    else match if mayBeSubcommand then spec.subcommand? argument else none with
      | some sub => do
        -- faults inside the subcommand come before those around it
        let levels ← readLevels argument sub (.start sub) arguments
        return ⟨command, ← state.finish spec true⟩ :: levels
      | none => do readLevels command spec (← state.step spec argument) arguments

/-- A command line that was read: its levels from the outermost command to the
    innermost. -/
structure CommandLine where
  levels : List Level

namespace CommandLine

/-- Reads the arguments of a command. -/
def read (spec : CommandSpec) (arguments : List String) : Except UsageFault CommandLine :=
  (readLevels "" spec (.start spec) arguments).map CommandLine.mk

/-- The names of the subcommands in the line. -/
def path (line : CommandLine) : List String :=
  line.levels.tail.map Level.command

/-- What was given to an option or a positional argument: of the levels at
    which it was given the innermost counts. -/
def values (line : CommandLine) (name : String) : List String :=
  line.levels.foldl (fun found level =>
    match level.given.filter fun entry => entry.1 = name with
    | [] => found
    | given => given.map Prod.snd) []

/-- What was given to an option that is not repeatable. -/
def value? (line : CommandLine) (name : String) : Option String :=
  (line.values name).head?

/-- Whether a flag was given. -/
def hasFlag (line : CommandLine) (name : String) : Bool :=
  !(line.values name).isEmpty

end CommandLine

end LayeredConfig
