import LockDiscipline.Grammar.Error
/-!
# Diagnostics

A `Diagnostic` is a finding with everything that a report shows of it: a severity, a code, labels on
the source, notes and advice. Lexical and syntactic errors become diagnostics here.
-/

namespace LockDiscipline

/-- How grave a finding is. -/
inductive Severity where
  | error | warning | note
deriving DecidableEq, Repr, Inhabited

/-- The word for a severity. -/
def Severity.text : Severity → String
  | .error => "error"
  | .warning => "warning"
  | .note => "note"

/-- Whether a label marks the place of a finding or a place related to it. -/
inductive LabelStyle where
  | primary | secondary
deriving DecidableEq, Repr, Inhabited

/-- The word for a label style. -/
def LabelStyle.text : LabelStyle → String
  | .primary => "primary"
  | .secondary => "secondary"

/-- A marked part of the source. -/
structure Label where
  span : Span
  style : LabelStyle
  message : Option String
deriving DecidableEq, Repr, Inhabited

/-- A finding as it is reported. -/
structure Diagnostic where
  severity : Severity
  code : Option String
  message : String
  labels : List Label
  notes : List String
  help : Option String
deriving DecidableEq, Repr, Inhabited

namespace Label

/-- A label at the place of a finding. -/
def primary (span : Span) (message : String) : Label :=
  ⟨span, .primary, some message⟩

/-- A label at a related place. -/
def secondary (span : Span) (message : String) : Label :=
  ⟨span, .secondary, some message⟩

end Label

namespace Diagnostic

/-- Whether the finding is an error. -/
def isError (diagnostic : Diagnostic) : Bool :=
  diagnostic.severity == .error

/-- The span of the first primary label, or of the first label if none is primary. -/
def primarySpan? (diagnostic : Diagnostic) : Option Span :=
  ((diagnostic.labels.find? (·.style == .primary)).or diagnostic.labels.head?).map (·.span)

/-- How many of the diagnostics have a severity. -/
def count (severity : Severity) (diagnostics : List Diagnostic) : Nat :=
  (diagnostics.filter (·.severity == severity)).length

end Diagnostic

/-- The diagnostic for a lexical error. -/
def LexError.diagnostic (error : LexError) : Diagnostic where
  severity := .error
  code := some "E0001"
  message := error.message
  labels := [.primary error.span "invalid token"]
  notes := []
  help := error.hint?

/-- The diagnostic for a syntax error. -/
def SyntaxError.diagnostic (error : SyntaxError) : Diagnostic where
  severity := .error
  code := some "E0100"
  message := error.message
  labels := [.primary error.span "here"]
  notes := []
  help := error.hint?

/-! ### Reports on files

What there is to say about one file. A file passes when nothing in its report is an error. -/

/-- The diagnostics for a file, with its name and its source. -/
structure FileReport where
  file : String
  source : List Char
  diagnostics : List Diagnostic

namespace FileReport

/-- The number of errors. -/
def errorCount (report : FileReport) : Nat :=
  Diagnostic.count .error report.diagnostics

/-- The number of warnings. -/
def warningCount (report : FileReport) : Nat :=
  Diagnostic.count .warning report.diagnostics

/-- Whether there is no error. -/
def passes (report : FileReport) : Bool :=
  report.errorCount == 0

end FileReport
end LockDiscipline
