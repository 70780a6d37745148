import LockDiscipline.Check.Config
import LockDiscipline.Check.Run
import LockDiscipline.Command.Arguments
import LockDiscipline.Command.Files
import LockDiscipline.Command.Output
import LockDiscipline.Report.Json
import LockDiscipline.Report.Terminal
/-!
# The command that checks

Check a source file, or all source files below a directory, under the options of a configuration
file and of the arguments. A file that cannot be read counts as an error and does not end the check.
-/

namespace LockDiscipline

/-- Why a configuration file gives no options. -/
inductive ConfigFileError where
  | unreadable (path : String) (reason : FileError)
  | invalid (path : String) (reason : ConfigError)
deriving DecidableEq, Repr, Inhabited

/-- The text of an error. -/
def ConfigFileError.message : ConfigFileError → String
  | .unreadable path reason => "failed to read " ++ path ++ ": " ++ reason.message
  | .invalid path reason => "invalid config " ++ path ++ ": " ++ reason.message

namespace ConfigFile

/-- The name of the configuration file of a directory. -/
def name : String := "guardcheck.json"

variable {m : Type → Type} [Monad m] (files : FileAccess m)

/-- The configuration that a file holds. -/
def load (path : String) : m (Except ConfigFileError Config) := do
  match ← files.read path with
  | .error reason => return .error (.unreadable path reason)
  | .ok text =>
      match Config.ofText text with
      | .error reason => return .error (.invalid path reason)
      | .ok config => return .ok config

/-- The configuration of a directory, which need not have one. -/
def discover (directory : String) : m (Except ConfigFileError Config) := do
  let path := Path.child directory name
  if ← files.isFile path then load files path else return .ok .default

/-- The configuration for a check: the one that the arguments name, or else the one of the directory
that is checked or that the checked file is in. -/
def forRequest (request : CheckRequest) : m (Except ConfigFileError Config) := do
  match request.settings.config with
  | some path => load files path
  | none =>
      if ← files.isDirectory request.path then discover files request.path
      else match Path.parent? request.path with
        | some directory => discover files directory
        | none => return .ok .default

end ConfigFile

namespace CheckOptions

/-- Options with those of the arguments added. -/
def extend (options more : CheckOptions) : CheckOptions :=
  ⟨options.rules ++ more.rules, options.excludes ++ more.excludes,
    options.unresolvedAsError || more.unresolvedAsError⟩

end CheckOptions

/-- What became of a file that was to be checked. -/
inductive CheckedFile where
  | unreadable (path : String) (reason : FileError)
  | checked (report : FileReport)

namespace CheckedFile

/-- Check the text that was read from a file. -/
def ofText (options : CheckOptions) (path : String) : Except FileError String → CheckedFile
  | .error reason => .unreadable path reason
  | .ok text => .checked (checkSource path text.toList options)

/-- The report on a file that was read. -/
def report? : CheckedFile → Option FileReport
  | .unreadable .. => none
  | .checked report => some report

/-- The number of errors. -/
def errorCount : CheckedFile → Nat
  | .unreadable .. => 1
  | .checked report => report.errorCount

/-- The number of warnings. -/
def warningCount : CheckedFile → Nat
  | .unreadable .. => 0
  | .checked report => report.warningCount

/-- The lines for a file. Reports for other programs are not written file by file. -/
def lines (palette : Palette) (form : ReportForm) : CheckedFile → List OutputLine
  | .unreadable path reason => [unreadableLine palette path reason.message]
  | .checked report =>
      match form with
      | .terminal => (report.terminalTexts palette).map .problem
      | .json => []

end CheckedFile

namespace CheckCommand

/-- The closing line for people. -/
def summary (palette : Palette) (errors warnings : Nat) : OutputLine :=
  if errors = 0 ∧ warnings = 0 then
    .result (palette.paint (.of .green) "✓" ++ " No lock discipline issues found")
  else
    let look := TextStyle.of (if errors = 0 then .yellow else .red)
    .problem (palette.paint look "✗" ++ " " ++ toString errors ++ " error(s), " ++
      toString warnings ++ " warning(s)")

/-- The sum of what is counted in files. -/
def total (count : CheckedFile → Nat) (checked : List CheckedFile) : Nat :=
  checked.foldl (fun sum file => sum + count file) 0

/-- The output for the files that were checked. -/
def output (palette : Palette) (form : ReportForm) (checked : List CheckedFile) : CommandOutput :=
  let errors := total (·.errorCount) checked
  let warnings := total (·.warningCount) checked
  let closing := match form with
    | .terminal => summary palette errors warnings
    | .json => .result (FileReport.jsonText (checked.filterMap (·.report?)))
  ⟨checked.flatMap (·.lines palette form) ++ [closing], errors != 0⟩

variable {m : Type → Type} [Monad m] (files : FileAccess m)

/-- The files to check: all sources of a directory, or the file itself. -/
def targets (path : String) : m (List String) := do
  if ← files.isDirectory path then files.sources path else return [path]

/-- Check what the arguments ask for. -/
def run (palette : Palette) (request : CheckRequest) : m CommandOutput := do
  let paths ← targets files request.path
  if paths.isEmpty then
    return .failure
      [errorLine palette ("no .java files found in " ++ palette.path request.path)]
  else match ← ConfigFile.forRequest files request with
    | .error reason => return .failure [errorLine palette reason.message]
    | .ok config =>
        let options := config.options.extend request.settings.options
        let checked ← paths.mapM fun path => do
          return CheckedFile.ofText options path (← files.read path)
        return output palette request.settings.form checked

end CheckCommand
end LockDiscipline
