/-
  LayeredConfig.Validation

  Validating values, and checking files for keys that no setting has.

  A raw value is coerced into the type of its setting and then has to pass the
  guards.  A key at the top of a document is a setting or names a section,
  which is a table; that much holds in lenient mode too.  In strict mode every
  key inside a section has to be a setting, and a file is searched for the
  lines on which the unknown ones stand.
-/
import LayeredConfig.Schema
import LayeredConfig.Text.Split

namespace LayeredConfig

/-! ## Values of settings -/

/-- What a setting holds in one section: a coerced value that has passed the
    guards, or the default. -/
structure Held where
  name : String
  type : TypeDesc
  value : Value

namespace Setting

/-- Coerces a raw value into the type of a setting and applies the guards to
    the result. -/
def validate (environment : Environment) (setting : Setting) (raw : Value) :
    Except ConfigError Held :=
  match setting.type.coerce environment raw with
  | .error cause => .error (.invalidValue setting.name none cause)
  | .ok value =>
    match Guard.checkAll environment setting.name value setting.guards with
    | .ok () => .ok ⟨setting.name, setting.type, value⟩
    | .error e => .error e

/-- What a setting holds when nothing sets it. -/
def held (setting : Setting) : Held :=
  ⟨setting.name, setting.type, setting.default⟩

end Setting

/-! ## Keys -/

namespace Schema

/-- Rejects a document with a key that is neither a setting nor bound to a
    table; the first such key is reported. -/
def checkTopLevel (schema : Schema) (doc : Document) : Except ConfigError Unit :=
  match List.find? (fun (key, v) => !schema.declares key && !v.isTable) doc with
  | some (key, _) => .error (.unknownSetting key none)
  | none => .ok ()

/-- The keys of one section that no setting has, each after the name of the
    section and a dot. -/
def unknownKeysOf (schema : Schema) (sectionName : String) (v : Value) : List String :=
  match v with
  | .table entries =>
    ((Document.keys entries).filter fun key => !schema.declares key).map fun key =>
      sectionName ++ "." ++ key
  | _ => []

/-- The keys in the sections of a document that no setting has. -/
def unknownKeys (schema : Schema) (doc : Document) : List String :=
  doc.flatMap fun (key, v) => if schema.declares key then [] else schema.unknownKeysOf key v

end Schema

/-! ## Lines of keys -/

/-- The name in a table header: what stands between the opening bracket and the
    next closing one, without white space and quotes around it. -/
def headerName (line : List Char) : List Char :=
  let name := (line.dropWhile (· == '[')).takeWhile (· != ']')
  Text.trimBy (· == '"') (Text.trim name)

/-- Whether a line opens a table. -/
def isHeaderLine : List Char → Bool
  | '[' :: '[' :: _ => false
  | '[' :: _ => true
  | _ => false

/-- Whether a line begins with `key` and an equals sign. -/
def assigns (key line : List Char) : Bool :=
  match Text.stripStart? key line with
  | some rest => (Text.trimStart rest).head? == some '='
  | none => false

/-- The number of the first line that assigns `key` under a header of the
    section, and 0 if there is none.  `current` is the name in the last header
    and `number` the number of the next line. -/
def lineOfKey (sectionName : Option (List Char)) (key : List Char) :
    (current : Option (List Char)) → (number : Nat) → (lines : List (List Char)) → Nat
  | _, _, [] => 0
  | current, number, line :: lines =>
    let line := Text.trim line
    -- the header of an array of tables opens no section
    if isHeaderLine line then
      lineOfKey sectionName key (some (headerName line)) (number + 1) lines
    -- before the first header the section is the global one
    else if current = sectionName ∧ assigns key line then number
    else lineOfKey sectionName key current (number + 1) lines

/-- The number of the line of a text that assigns a dotted key.  The section is
    everything before the last dot. -/
def findKeyLine (content dotted : String) : Nat :=
  let lines := Text.lines content.toList
  match Text.splitLast? '.' dotted.toList with
  | some (sectionName, key) => lineOfKey (some sectionName) key none 1 lines
  | none => lineOfKey none dotted.toList none 1 lines

/-- Rejects a document whose sections have keys that no setting has, each with
    its line in the text of the document. -/
def Schema.checkKeys (schema : Schema) (doc : Document) (content path : String) :
    Except ConfigError Unit :=
  match schema.unknownKeys doc with
  | [] => .ok ()
  | unknown =>
    .error (.unknownKeys (unknown.map fun key => ⟨key, path, findKeyLine content key⟩))

end LayeredConfig
