/-
  LayeredConfig.Schema.Record

  The record of one setting in a schema document.

  A record gives the default, the name of the type, the doc string and the
  guards of a setting; each guard is a record of its own, a message and the
  callable that judges.  A record is a table of exactly these fields or an
  array of them in their order, and only the guards may be left out.  Fields
  are read in document order and the first problem is the one reported; a
  missing field shows only after the whole record was read.
-/
import LayeredConfig.Value.Text

namespace LayeredConfig

/-! ## Shapes and faults -/

/-- The two kinds of record. -/
inductive RecordShape where
  | setting
  | guard
  deriving DecidableEq

namespace RecordShape

/-- How messages name a kind of record. -/
def description : RecordShape → String
  | .setting => "struct RawAtom"
  | .guard => "struct RawGuard"

/-- The fields of a kind of record in their order. -/
def fields : RecordShape → List String
  | .setting => ["default", "type", "doc", "guards"]
  | .guard => ["message", "callable"]

/-- How messages list the fields of a kind of record. -/
def fieldChoice : RecordShape → String
  | .setting => "one of `default`, `type`, `doc`, `guards`"
  | .guard => "`message` or `callable`"

end RecordShape

/-- What a place in a record calls for. -/
inductive RecordPart where
  | string
  | sequence
  | record (shape : RecordShape)
  deriving DecidableEq

/-- How messages name what a place calls for. -/
def RecordPart.description : RecordPart → String
  | .string => "a string"
  | .sequence => "a sequence"
  | .record shape => shape.description

/-- Why a value is no record. -/
inductive RecordFault where
  /-- The field `name` is missing. -/
  | missingField (name : String)
  /-- A table has a field that records of its kind do not have. -/
  | unknownField (name : String) (shape : RecordShape)
  /-- The value `found` stands where something else is called for. -/
  | wrongType (found : Value) (expected : RecordPart)
  /-- An array of `length` items leaves out what a record needs. -/
  | tooFew (length : Nat) (shape : RecordShape)
  /-- An array of `length` items goes on after the last field. -/
  | tooMany (length : Nat)

/-- How messages name a value that stands in the wrong place. -/
def Value.kindText : Value → String
  | .null => "null"
  | .bool b => "boolean `" ++ (if b then "true" else "false") ++ "`"
  | .number (.int n) => "integer `" ++ (Value.int n).text ++ "`"
  | .number (.float x) => "floating point `" ++ (Value.float x).text ++ "`"
  | .string s => "string " ++ Text.quoted s
  | .array _ => "sequence"
  | .table _ => "map"

/-- The decimal digits of a count. -/
def countText (n : Nat) : String :=
  String.ofList (Nat.toDigits 10 n)

/-- What is said about a fault in a record. -/
def RecordFault.message : RecordFault → String
  | .missingField name => "missing field `" ++ name ++ "`"
  | .unknownField name shape => "unknown field `" ++ name ++ "`, expected " ++ shape.fieldChoice
  | .wrongType found expected =>
    "invalid type: " ++ found.kindText ++ ", expected " ++ expected.description
  | .tooFew length shape =>
    "invalid length " ++ countText length ++ ", expected " ++ shape.description ++ " with "
      ++ countText shape.fields.length ++ " elements"
  | .tooMany length =>
    "invalid length " ++ countText length ++ ", expected fewer elements in array"

/-! ## Guard records -/

/-- The record of a guard. -/
structure GuardRecord where
  message : String
  callable : String
  deriving DecidableEq

/-- A string in a record. -/
def readString : Value → Except RecordFault String
  | .string s => .ok s
  | v => .error (.wrongType v .string)

/-- A field that has to be there. -/
def require {α : Type} (name : String) : Option α → Except RecordFault α
  | some a => .ok a
  | none => .error (.missingField name)

namespace GuardRecord

/-- The fields of a guard read so far. -/
structure Fields where
  message : Option String
  callable : Option String

/-- Reads one field of a table. -/
def Fields.read (fields : Fields) (name : String) (v : Value) : Except RecordFault Fields :=
  if name = "message" then do return { fields with message := some (← readString v) }
  else if name = "callable" then do return { fields with callable := some (← readString v) }
  else .error (.unknownField name .guard)

/-- The record of a guard, from a table or an array. -/
def ofValue : Value → Except RecordFault GuardRecord
  | .table entries => do
    let fields ← entries.foldlM (fun fields (name, v) => Fields.read fields name v) ⟨none, none⟩
    let message ← require "message" fields.message
    let callable ← require "callable" fields.callable
    return ⟨message, callable⟩
  | .array items =>
    match items with
    | [] => .error (.tooFew 0 .guard)
    -- what is there is looked at before the length
    | [message] => do
      let _ ← readString message
      .error (.tooFew 1 .guard)
    | message :: callable :: rest => do
      let message ← readString message
      let callable ← readString callable
      if rest.isEmpty then return ⟨message, callable⟩ else .error (.tooMany items.length)
  | v => .error (.wrongType v (.record .guard))

/-- A list of guards. -/
def listOfValue : Value → Except RecordFault (List GuardRecord)
  | .array items => items.mapM ofValue
  | v => .error (.wrongType v .sequence)

end GuardRecord

/-! ## Setting records -/

/-- The record of a setting. -/
structure SettingRecord where
  default : Value
  typeName : String
  doc : String
  guards : List GuardRecord

namespace SettingRecord

/-- The fields of a setting read so far. -/
structure Fields where
  default : Option Value
  typeName : Option String
  doc : Option String
  guards : Option (List GuardRecord)

/-- Reads one field of a table. -/
def Fields.read (fields : Fields) (name : String) (v : Value) : Except RecordFault Fields :=
  if name = "default" then .ok { fields with default := some v }
  else if name = "type" then do return { fields with typeName := some (← readString v) }
  else if name = "doc" then do return { fields with doc := some (← readString v) }
  else if name = "guards" then do
    return { fields with guards := some (← GuardRecord.listOfValue v) }
  else .error (.unknownField name .setting)

/-- The record of a setting, from a table or an array. -/
def ofValue : Value → Except RecordFault SettingRecord
  | .table entries => do
    let fields ←
      entries.foldlM (fun fields (name, v) => Fields.read fields name v) ⟨none, none, none, none⟩
    let default ← require "default" fields.default
    let typeName ← require "type" fields.typeName
    let doc ← require "doc" fields.doc
    return ⟨default, typeName, doc, fields.guards.getD []⟩
  | .array items =>
    match items with
    | [] => .error (.tooFew 0 .setting)
    | [_] => .error (.tooFew 1 .setting)
    | [_, typeName] => do
      let _ ← readString typeName
      .error (.tooFew 2 .setting)
    | default :: typeName :: doc :: rest => do
      let typeName ← readString typeName
      let doc ← readString doc
      match rest with
      -- an array may end before the guards
      | [] => return ⟨default, typeName, doc, []⟩
      | guards :: rest =>
        let guards ← GuardRecord.listOfValue guards
        if rest.isEmpty then return ⟨default, typeName, doc, guards⟩
        else .error (.tooMany items.length)
  | v => .error (.wrongType v (.record .setting))

end SettingRecord

end LayeredConfig
