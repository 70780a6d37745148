import LockDiscipline.Report.Diagnostic
import LockDiscipline.Report.Excerpt
/-!
# Reports for terminals

The form of a diagnostic for people: a heading, the place, an excerpt of the source, and notes and
advice behind it.
-/

namespace LockDiscipline

/-- The look of the word for a severity. -/
def Severity.look : Severity → TextStyle
  | .error => .strong .red
  | .warning => .strong .yellow
  | .note => .strong .blue

namespace Diagnostic

/-- The heading of a report: severity, code and message. -/
def heading (palette : Palette) (diagnostic : Diagnostic) : String :=
  let look := diagnostic.severity.look
  let code := match diagnostic.code with
    | none => ""
    | some code => "[" ++ palette.paint look code ++ "]"
  palette.paint look diagnostic.severity.text ++ code ++ ": " ++
    palette.paint { bold := true } diagnostic.message

/-- The row that says where a diagnostic is. -/
def placeRow (palette : Palette) (file : String) (mapped : MappedSource) (span : Span) : String :=
  let (line, column) := mapped.lines.lineCol span.start
  "  " ++ palette.paint (.of .blue) "-->" ++ " " ++ file ++ ":" ++ toString line ++ ":" ++
    toString column

/-- The rows of notes and advice. -/
def remarks (diagnostic : Diagnostic) : List ReportRow :=
  diagnostic.notes.map (.remark "note") ++ (diagnostic.help.map (.remark "help")).toList

/-- The rows between the place and the remarks, and those of the remarks. -/
def rows (mapped : MappedSource) (diagnostic : Diagnostic) : List ReportRow :=
  MarkedLine.excerptRows (mapped.markedLines diagnostic.labels) ++
    (if diagnostic.remarks.isEmpty then [] else [.separator]) ++ diagnostic.remarks

/-- The rows of a report below its heading, as texts. Without labels there is no excerpt. -/
def bodyRows (palette : Palette) (file : String) (mapped : MappedSource)
    (diagnostic : Diagnostic) : List String :=
  let gutter := MarkedLine.gutter (mapped.markedLines diagnostic.labels)
  match diagnostic.primarySpan? with
  | none => diagnostic.remarks.map (·.text palette gutter)
  | some span =>
      placeRow palette file mapped span ::
        (diagnostic.rows mapped).map (·.text palette gutter)

/-- The report of a diagnostic. Every row ends with a newline. -/
def report (palette : Palette) (file : String) (mapped : MappedSource)
    (diagnostic : Diagnostic) : String :=
  String.join ((diagnostic.heading palette :: diagnostic.bodyRows palette file mapped).map
    (· ++ "\n"))

end Diagnostic

namespace FileReport

/-- The name under which a source without a file is reported. -/
def unnamed : String := "<source>"

/-- The reports of the diagnostics for a file. -/
def terminalTexts (palette : Palette) (report : FileReport) : List String :=
  let mapped := MappedSource.of report.source
  report.diagnostics.map (·.report palette report.file mapped)

end FileReport
end LockDiscipline
