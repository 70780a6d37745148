import LockDiscipline.Json.Text
import LockDiscipline.Report.Code
import LockDiscipline.Report.Diagnostic
import LockDiscipline.Source.LineMap
/-!
# Reports as JSON

The form of reports for other programs. Every place is given by line, column and offset, and a
finding brings the source line that it points at, so that nobody needs to read the file again.
-/

namespace LockDiscipline

namespace JsonValue

/-- The field of a value that may be missing. -/
def optionField (name : String) : Option JsonValue → List (String × JsonValue)
  | none => []
  | some value => [(name, value)]

/-- A text that may be missing, as a field. -/
def optionText (name : String) (text : Option String) : List (String × JsonValue) :=
  optionField name (text.map .string)

end JsonValue

namespace MappedSource

/-- The line, column and offset of a place. -/
def placeFields (mapped : MappedSource) (offset : Nat) : List (String × JsonValue) :=
  let (line, column) := mapped.lines.lineCol offset
  [("line", .nat line), ("column", .nat column), ("byte_offset", .nat offset)]

/-- A place with the line that it is in. -/
def location (mapped : MappedSource) (offset : Nat) : JsonValue :=
  let line := (mapped.lines.lineCol offset).1
  .record (mapped.placeFields offset ++
    [("source_line", .string (String.ofList (mapped.lineText line)))])

end MappedSource

/-- A label as JSON. -/
def Label.json (mapped : MappedSource) (label : Label) : JsonValue :=
  .record <|
    [("role", .string label.style.text)] ++
    JsonValue.optionText "message" label.message ++
    [("start", .record (mapped.placeFields label.span.start)),
      ("end", .record (mapped.placeFields label.span.stop))]

namespace Diagnostic

/-- The category of a diagnostic with a known code. -/
def category? (diagnostic : Diagnostic) : Option String := do
  return (← CodeInfo.find? (← diagnostic.code)).category.text

/-- A diagnostic as JSON. Notes are left out if there are none. -/
def json (mapped : MappedSource) (diagnostic : Diagnostic) : JsonValue :=
  .record <|
    [("severity", .string diagnostic.severity.text)] ++
    JsonValue.optionText "code" diagnostic.code ++
    JsonValue.optionText "category" diagnostic.category? ++
    [("message", .string diagnostic.message)] ++
    JsonValue.optionField "location"
      (diagnostic.primarySpan?.map fun span => mapped.location span.start) ++
    [("labels", .list (diagnostic.labels.map (·.json mapped)))] ++
    (if diagnostic.notes.isEmpty then []
      else [("notes", .list (diagnostic.notes.map .string))]) ++
    JsonValue.optionText "help" diagnostic.help

end Diagnostic

namespace FileReport

/-- The version of the form of reports. -/
def formVersion : Nat := 1

/-- A report as JSON. -/
def json (report : FileReport) : JsonValue :=
  let mapped := MappedSource.of report.source
  .record [
    ("version", .nat formVersion),
    ("file", .string report.file),
    ("success", .bool report.passes),
    ("diagnostics", .list (report.diagnostics.map (·.json mapped))),
    ("error_count", .nat report.errorCount),
    ("warning_count", .nat report.warningCount)]

/-- The text of reports: a single one stands alone, others are in a list. -/
def jsonText : List FileReport → String
  | [report] => report.json.text
  | reports => (JsonValue.list (reports.map (·.json))).text

end FileReport
end LockDiscipline
