import LockDiscipline.Check.Options
import LockDiscipline.Json.Token
import LockDiscipline.Text.Quotation
/-!
# Configuration files

A configuration file holds the options of checks as JSON: a record, or a list of the values of its
fields in their order. Fields may be missing, and nothing else may be there. A text is read from
left to right, so the first problem decides what is reported.
-/

namespace LockDiscipline

/-- The options that a configuration file gives. -/
structure Config where
  rules : List String
  exclude : List String
  unresolvedAsError : Bool
deriving DecidableEq, Repr, Inhabited

/-- The fields of a configuration, in their order. -/
inductive ConfigField where
  | rules | exclude | unresolvedAsError
deriving DecidableEq, Repr, Inhabited

namespace ConfigField

/-- All fields, in their order. -/
def all : List ConfigField := [.rules, .exclude, .unresolvedAsError]

/-- The name of a field. -/
def name : ConfigField → String
  | .rules => "rules"
  | .exclude => "exclude"
  | .unresolvedAsError => "unresolved_as_error"

/-- The field with a name. -/
def ofName? (name : String) : Option ConfigField :=
  all.find? (·.name == name)

end ConfigField

/-- What is wrong with the text of a configuration. -/
inductive ConfigFault where
  /-- The text is not JSON. -/
  | malformed
  /-- A value of another kind is expected. -/
  | wrongKind (found expected : String)
  | unknownField (name : String)
  | duplicateField (field : ConfigField)
deriving DecidableEq, Repr, Inhabited

namespace ConfigFault

/-- The text of a fault. -/
def message : ConfigFault → String
  | .malformed => "malformed JSON"
  | .wrongKind found expected => "invalid type: " ++ found ++ ", expected " ++ expected
  | .unknownField name =>
      "unknown field `" ++ name ++ "`, expected one of " ++
        Text.join ", " (ConfigField.all.map fun field => "`" ++ field.name ++ "`")
  | .duplicateField field => "duplicate field `" ++ field.name ++ "`"

end ConfigFault

/-- A fault with the place behind what shows it. -/
structure ConfigError where
  fault : ConfigFault
  position : TextPosition
deriving DecidableEq, Repr, Inhabited

/-- The text of an error. -/
def ConfigError.message (error : ConfigError) : String :=
  error.fault.message ++ " at line " ++ toString error.position.line ++ " column " ++
    toString error.position.column

namespace JsonToken

/-- A value that begins with a token, as messages call it. -/
def valueText? (token : JsonToken) : Option String :=
  match token.kind with
  | .null => some "null"
  | .bool value => some ("boolean `" ++ (if value then "true" else "false") ++ "`")
  | .number (.integer value) => some ("integer `" ++ (JsonNumber.integer value).text ++ "`")
  | .number value => some ("floating point `" ++ value.text ++ "`")
  | .string text => some ("string " ++ Text.quotation text)
  | .openList => some "sequence"
  | .openRecord => some "map"
  | _ => none

/-- Whether a token opens a value that goes on behind it. -/
def opens (token : JsonToken) : Bool :=
  token.kind == .openList || token.kind == .openRecord

/-- The error that a token does not begin a value of the kind that is expected. -/
def mismatch (token : JsonToken) (expected : String) : ConfigError :=
  match token.valueText? with
  | some found =>
      ⟨.wrongKind found expected, if token.opens then token.start else token.stop⟩
  | none => ⟨.malformed, token.start⟩

/-- The error that a token stands where it cannot. -/
def misplaced (token : JsonToken) : ConfigError :=
  ⟨.malformed, token.start⟩

end JsonToken

namespace Config

/-- The configuration without any options. -/
def default : Config := ⟨[], [], false⟩

/-- The options for a check. -/
def options (config : Config) : CheckOptions :=
  ⟨config.rules, config.exclude, config.unresolvedAsError⟩

/-- The error that a text ends too early, for tokens that do not even have an end. -/
def cutOff : ConfigError := ⟨.malformed, .start⟩

/-- The error at the first token. -/
def failAt : List JsonToken → (JsonToken → ConfigError) → ConfigError
  | token :: _, error => error token
  | [], _ => cutOff

/-- The items of a list of texts. -/
def readItems : List JsonToken → Except ConfigError (List String × List JsonToken)
  | ⟨.string text, _, _⟩ :: ⟨.closeList, _, _⟩ :: rest => return ([text], rest)
  | ⟨.string text, _, _⟩ :: ⟨.comma, _, _⟩ :: rest => do
      let (more, rest) ← readItems rest
      return (text :: more, rest)
  | ⟨.string _, _, _⟩ :: rest => throw (failAt rest (·.misplaced))
  | token :: _ => throw (token.mismatch "a string")
  | [] => throw cutOff

/-- A list of texts. -/
def readTexts : List JsonToken → Except ConfigError (List String × List JsonToken)
  | ⟨.openList, _, _⟩ :: ⟨.closeList, _, _⟩ :: rest => return ([], rest)
  | ⟨.openList, _, _⟩ :: rest => readItems rest
  | tokens => throw (failAt tokens (·.mismatch "a sequence"))

/-- A truth value. -/
def readBool : List JsonToken → Except ConfigError (Bool × List JsonToken)
  | ⟨.bool value, _, _⟩ :: rest => return (value, rest)
  | tokens => throw (failAt tokens (·.mismatch "a boolean"))

/-- The value of a field. -/
def readValue (config : Config) (tokens : List JsonToken) :
    ConfigField → Except ConfigError (Config × List JsonToken)
  | .rules => do
      let (rules, rest) ← readTexts tokens
      return ({ config with rules }, rest)
  | .exclude => do
      let (exclude, rest) ← readTexts tokens
      return ({ config with exclude }, rest)
  | .unresolvedAsError => do
      let (unresolvedAsError, rest) ← readBool tokens
      return ({ config with unresolvedAsError }, rest)

/-- The place behind a field name that cannot stand where it is: what follows has been looked at,
and the end of the record has been passed. -/
def placeBehindName : List JsonToken → TextPosition
  | ⟨.closeRecord, _, stop⟩ :: _ => stop
  | token :: _ => token.start
  | [] => .start

/-- A field by its name. It may not have been read before. -/
def readFieldName (seen : List ConfigField) (name : String) (rest : List JsonToken) :
    Except ConfigError ConfigField :=
  match ConfigField.ofName? name with
  | none => throw ⟨.unknownField name, placeBehindName rest⟩
  | some field =>
      if seen.contains field then throw ⟨.duplicateField field, placeBehindName rest⟩
      else return field

/-- The fields of a record from the name of one on, of which at most a number are read. -/
def readFields : (most : Nat) → Config → List ConfigField → List JsonToken →
    Except ConfigError (Config × List JsonToken)
  | most + 1, config, seen, ⟨.string name, _, _⟩ :: rest => do
      let field ← readFieldName seen name rest
      match rest with
      | ⟨.colon, _, _⟩ :: rest =>
          let (config, rest) ← config.readValue rest field
          match rest with
          | ⟨.closeRecord, _, _⟩ :: rest => return (config, rest)
          | ⟨.comma, _, _⟩ :: rest => readFields most config (field :: seen) rest
          | rest => throw (failAt rest (·.misplaced))
      | rest => throw (failAt rest (·.misplaced))
  | _, _, _, tokens => throw (failAt tokens (·.misplaced))

/-- The values of fields in a list, from one on. -/
def readValues (config : Config) : List ConfigField → List JsonToken →
    Except ConfigError (Config × List JsonToken)
  | [], tokens => throw (failAt tokens (·.misplaced))
  | field :: fields, tokens => do
      let (config, rest) ← config.readValue tokens field
      match rest with
      | ⟨.closeList, _, _⟩ :: rest => return (config, rest)
      | ⟨.comma, _, _⟩ :: rest => readValues config fields rest
      | rest => throw (failAt rest (·.misplaced))

/-- A configuration. A record has each field at most once, so one reading more than there are fields
is enough to meet any fault. -/
def read : List JsonToken → Except ConfigError (Config × List JsonToken)
  | ⟨.openRecord, _, _⟩ :: ⟨.closeRecord, _, _⟩ :: rest => return (default, rest)
  | ⟨.openRecord, _, _⟩ :: rest => readFields (ConfigField.all.length + 1) default [] rest
  | ⟨.openList, _, _⟩ :: ⟨.closeList, _, _⟩ :: rest => return (default, rest)
  | ⟨.openList, _, _⟩ :: rest => readValues default ConfigField.all rest
  | tokens => throw (failAt tokens (·.mismatch "struct Config"))

/-- The configuration that a text holds. -/
def ofText (text : String) : Except ConfigError Config := do
  match ← read (JsonToken.ofText text) with
  | (config, ⟨.ending, _, _⟩ :: _) => return config
  | (_, rest) => throw (failAt rest (·.misplaced))

end Config
end LockDiscipline
