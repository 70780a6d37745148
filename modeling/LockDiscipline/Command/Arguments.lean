import LockDiscipline.Check.Options
/-!
# Arguments of a check

The arguments are read from left to right, and the first one that cannot be used is reported.
Patterns add up; of other options the last one counts.
-/

namespace LockDiscipline

/-- The forms of a report. -/
inductive ReportForm where
  | terminal | json
deriving DecidableEq, Repr, Inhabited

/-- Why arguments cannot be used. -/
inductive ArgumentError where
  | missingPath
  | missingValue (option : String)
  | unknownForm (name : String)
  | unknownOption (option : String)
  | unexpected (argument : String)
deriving DecidableEq, Repr, Inhabited

/-- The text of an error. -/
def ArgumentError.message : ArgumentError → String
  | .missingPath => "missing <file|dir>"
  | .missingValue option => option ++ " expects a value"
  | .unknownForm name => "unknown format `" ++ name ++ "` (expected human or json)"
  | .unknownOption option => "unknown option `" ++ option ++ "`"
  | .unexpected argument => "unexpected argument `" ++ argument ++ "`"

/-- The form with a name. -/
def ReportForm.ofName (name : String) : Except ArgumentError ReportForm :=
  if name == "human" then .ok .terminal
  else if name == "json" then .ok .json
  else .error (.unknownForm name)

/-- The options that have a value. -/
inductive ValueOption where
  | format | rule | exclude | config
deriving DecidableEq, Repr, Inhabited

namespace ValueOption

/-- All options that have a value. -/
def all : List ValueOption := [.format, .rule, .exclude, .config]

/-- The word for an option. -/
def word : ValueOption → String
  | .format => "--format"
  | .rule => "--rule"
  | .exclude => "--exclude"
  | .config => "--config"

/-- The option with a word. -/
def ofWord? (word : String) : Option ValueOption :=
  all.find? (·.word == word)

end ValueOption

/-- How a check is to be done. -/
structure CheckSettings where
  form : ReportForm
  options : CheckOptions
  /-- The configuration file to read, instead of the one beside the sources. -/
  config : Option String
deriving DecidableEq, Repr, Inhabited

namespace CheckSettings

/-- The settings without any arguments. -/
def default : CheckSettings := ⟨.terminal, .default, none⟩

/-- The settings with an option that has a value. -/
def set (settings : CheckSettings) (value : String) :
    ValueOption → Except ArgumentError CheckSettings
  | .format => do return { settings with form := ← ReportForm.ofName value }
  | .rule => return { settings with options.rules := settings.options.rules ++ [value] }
  | .exclude => return { settings with options.excludes := settings.options.excludes ++ [value] }
  | .config => return { settings with config := some value }

/-- The settings with an option that has no value, if a word is such an option. -/
def flag? (settings : CheckSettings) (word : String) : Option CheckSettings :=
  if word == "--json" then some { settings with form := .json }
  else if word == "--unresolved-as-error" then
    some { settings with options.unresolvedAsError := true }
  else none

end CheckSettings

/-- What is to be checked, and how. -/
structure CheckRequest where
  path : String
  settings : CheckSettings
deriving DecidableEq, Repr, Inhabited

namespace CheckRequest

/-- Whether a word can only be an option. -/
def looksLikeOption (word : String) : Bool :=
  "--".toList.isPrefixOf word.toList

/-- Read arguments behind those that gave a path and settings. -/
def readFrom (path : Option String) (settings : CheckSettings) :
    List String → Except ArgumentError CheckRequest
  | [] =>
      match path with
      | none => throw .missingPath
      | some path => return ⟨path, settings⟩
  | word :: rest =>
      match ValueOption.ofWord? word, rest with
      | some _, [] => throw (.missingValue word)
      | some option, value :: rest => do readFrom path (← settings.set value option) rest
      | none, rest =>
          match settings.flag? word with
          | some settings => readFrom path settings rest
          | none =>
              if looksLikeOption word then throw (.unknownOption word)
              else if path.isSome then throw (.unexpected word)
              else readFrom (some word) settings rest

/-- Read the arguments of a check. -/
def read (words : List String) : Except ArgumentError CheckRequest :=
  readFrom none .default words

end CheckRequest
end LockDiscipline
