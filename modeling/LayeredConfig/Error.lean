/-
  LayeredConfig.Error

  What can go wrong with a schema or a configuration, each cause with the
  setting, the section or the file that it concerns, and the one text that is
  said about it.
-/
import LayeredConfig.Coercion
import LayeredConfig.Schema.Record

namespace LayeredConfig

/-! ## Causes -/

/-- Why a file cannot be read or written. -/
inductive FileFault where
  | notFound
  | alreadyExists
  | notADirectory
  | isADirectory
  | nameTooLong
  /-- The path holds the character that ends paths for the system. -/
  | nameHoldsZero
  | notText
  deriving DecidableEq

/-- What is said about a fault of a file. -/
def FileFault.message : FileFault → String
  | .notFound => "No such file or directory (os error 2)"
  | .alreadyExists => "File exists (os error 17)"
  | .notADirectory => "Not a directory (os error 20)"
  | .isADirectory => "Is a directory (os error 21)"
  | .nameTooLong => "File name too long (os error 36)"
  | .nameHoldsZero => "file name contained an unexpected NUL byte"
  | .notText => "stream did not contain valid UTF-8"

/-- Why an entry of a schema is rejected. -/
inductive SchemaFault where
  | declaredTwice
  | record (fault : RecordFault)

/-- What is said about a rejected entry. -/
def SchemaFault.message : SchemaFault → String
  | .declaredTwice => "declared more than once"
  | .record fault => fault.message

/-- A key of a file that no setting has, with the line where it stands.  Line 0
    stands for a line that is not known. -/
structure UnknownKey where
  key : String
  path : String
  line : Nat
  deriving DecidableEq

/-- What is said about an unknown key. -/
def UnknownKey.message (unknown : UnknownKey) : String :=
  "Unknown key '" ++ unknown.key ++ "' in " ++ unknown.path ++ " (line "
    ++ countText unknown.line ++ ")"

/-- Why an operation fails. -/
inductive ConfigError where
  /-- `name` names no type. -/
  | unknownType (name : String)
  /-- A value cannot be coerced into the type of the setting `key`. -/
  | invalidValue (key : String) (sectionName : Option String) (cause : CoercionError)
  /-- The default of the setting `key` cannot be coerced into its type. -/
  | invalidDefault (key : String) (cause : CoercionError)
  /-- The schema entry `key` is rejected. -/
  | invalidSchema (key : String) (fault : SchemaFault)
  /-- The guard `callable` of the setting `key` is neither registered nor an
      expression that can be run. -/
  | invalidGuard (key : String) (callable : String) (reason : String)
  /-- A guard of the setting `key` does not let the coerced value pass. -/
  | guardViolation (key : String) (sectionName : Option String) (message : String) (value : Value)
  /-- A guard of the setting `key` cannot be evaluated. -/
  | guardError (key : String) (message : String) (cause : CoercionError)
  /-- No setting is named `key`. -/
  | unknownSetting (key : String) (sectionName : Option String)
  /-- There is no section of that name. -/
  | unknownSection (name : String)
  /-- A file has keys that no setting has. -/
  | unknownKeys (keys : List UnknownKey)
  /-- The file at `path` is no TOML document. -/
  | parseError (path : String)
  /-- The file at `path` cannot be read or written. -/
  | fileError (path : String) (fault : FileFault)
  /-- A configuration is to be loaded without a schema. -/
  | schemaRequired

namespace ConfigError

/-! ## Messages -/

/-- The part of a message that names the section. -/
def inSectionText : Option String → String
  | some name => " in section '" ++ name ++ "'"
  | none => ""

/-- What is said about an error. -/
def message : ConfigError → String
  | .unknownType name => "Unknown type '" ++ name ++ "'"
  | .invalidValue key sectionName cause =>
    "Invalid value for '" ++ key ++ "'" ++ inSectionText sectionName ++ ": " ++ cause.message
  | .invalidDefault key cause =>
    "Default for '" ++ key ++ "' does not match its type: " ++ cause.message
  | .invalidSchema key fault => "Invalid schema entry '" ++ key ++ "': " ++ fault.message
  | .invalidGuard key callable reason =>
    "Invalid guard `" ++ callable ++ "` on '" ++ key ++ "': " ++ reason
  | .guardViolation key sectionName message value =>
    "Guard failed for '" ++ key ++ "'" ++ inSectionText sectionName ++ " (value " ++ value.text
      ++ "): " ++ message
  | .guardError key message cause =>
    "Guard '" ++ message ++ "' on '" ++ key ++ "' could not be evaluated: " ++ cause.message
  | .unknownSetting key sectionName =>
    "Unknown setting '" ++ key ++ "'" ++ inSectionText sectionName
  | .unknownSection name => "Unknown section '" ++ name ++ "'"
  | .unknownKeys _ => "Unknown keys in config file"
  | .parseError path => "Failed to parse " ++ path ++ ": invalid TOML"
  | .fileError path fault => "Failed to read " ++ path ++ ": " ++ fault.message
  | .schemaRequired =>
    "No schema configured, call .schema() or .schema_file() on the builder"

/-! ## Placing errors -/

/-- The error as it is reported from a section.  Only a value that cannot be
    coerced and a guard that does not let it pass are told apart by section. -/
def inSection (sectionName : Option String) : ConfigError → ConfigError
  | .invalidValue key _ cause => .invalidValue key sectionName cause
  | .guardViolation key _ message value => .guardViolation key sectionName message value
  | e => e

end ConfigError

end LayeredConfig
