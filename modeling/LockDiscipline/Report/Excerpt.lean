import LockDiscipline.Report.Diagnostic
import LockDiscipline.Report.Style
import LockDiscipline.Source.LineMap
import LockDiscipline.Text.Pad
/-!
# Excerpts of the source

An excerpt shows the lines that the labels of a diagnostic start in, each with marks below it and
with the messages of its labels. It is a list of rows; a row becomes text only when the width of the
line numbers is known. Columns count bytes, as everywhere.
-/

namespace LockDiscipline

/-- The part of a line that a label marks, from column `start` up to and not including column
`stop`. -/
structure LineMark where
  start : Nat
  stop : Nat
  style : LabelStyle
  message : Option String
deriving DecidableEq, Repr, Inhabited

namespace LabelStyle

/-- The sign with which a label marks its columns. -/
def sign : LabelStyle → Char
  | .primary => '^'
  | .secondary => '-'

/-- The look of what belongs to a label. -/
def look : LabelStyle → TextStyle
  | .primary => .strong .red
  | .secondary => .of .blue

end LabelStyle

namespace LineMark

/-- Whether a mark comes no later than another in the order of drawing: primary ones first, and
those of one style by their columns. -/
def drawnBefore (first second : LineMark) : Bool :=
  match first.style, second.style with
  | .primary, .secondary => true
  | .secondary, .primary => false
  | _, _ => first.start ≤ second.start

/-- Whether a mark takes a column. -/
def covers (column : Nat) (mark : LineMark) : Bool :=
  mark.start ≤ column && column < mark.stop

/-- The sign in a column below marks in the order of drawing, where later ones hide earlier ones. -/
def signAt (marks : List LineMark) (column : Nat) : Char :=
  match marks.reverse.find? (covers column) with
  | some mark => mark.style.sign
  | none => ' '

end LineMark

/-- A line of the source with the marks of the labels that start in it, in the order of drawing. -/
structure MarkedLine where
  number : Nat
  text : List Char
  marks : List LineMark
deriving DecidableEq, Repr, Inhabited

namespace MarkedLine

/-- How far marks may go beyond the end of a line. -/
def overhang : Nat := 10

/-- The columns below a line in which marks are drawn. -/
def width (line : MarkedLine) : Nat :=
  Text.byteLength line.text + overhang

/-- The signs below a line, without blanks at the end. -/
def underline (line : MarkedLine) : List Char :=
  Text.dropRightWhile (· == ' ') ((List.range line.width).map (LineMark.signAt line.marks))

/-- The marks with a message, in the order of drawing. -/
def messages (line : MarkedLine) : List (LineMark × String) :=
  line.marks.filterMap fun mark => mark.message.map (mark, ·)

end MarkedLine

namespace MappedSource

/-- The mark of a label in the line that it starts in. A label over several lines marks its first
line to the end; every mark takes a column at least. -/
def mark (mapped : MappedSource) (label : Label) : LineMark :=
  let (line, column) := mapped.lines.lineCol label.span.start
  let (lastLine, lastColumn) := mapped.lines.lineCol label.span.stop
  let stop := if lastLine = line then lastColumn - 1 else Text.byteLength (mapped.lineText line)
  ⟨column - 1, max stop column, label.style, label.message⟩

/-- The number of the line that a label starts in. -/
def labelLine (mapped : MappedSource) (label : Label) : Nat :=
  (mapped.lines.lineCol label.span.start).1

/-- A line with the marks of those labels that start in it. -/
def markedLine (mapped : MappedSource) (labels : List Label) (number : Nat) : MarkedLine :=
  let marks := (labels.filter (mapped.labelLine · == number)).map mapped.mark
  ⟨number, mapped.lineText number, marks.mergeSort LineMark.drawnBefore⟩

/-- The lines that labels start in, in their order. -/
def markedLines (mapped : MappedSource) (labels : List Label) : List MarkedLine :=
  let numbers := ((labels.map mapped.labelLine).mergeSort (· ≤ ·)).eraseDups
  numbers.map (mapped.markedLine labels)

end MappedSource

/-- A row of a report below its heading. -/
inductive ReportRow where
  | separator
  /-- Lines between the one above and the one below are left out. -/
  | gap
  | sourceLine (number : Nat) (text : List Char)
  | underline (signs : List Char) (message : Option (LabelStyle × String))
  /-- The message of a label on a row of its own, below the first column of the label. -/
  | message (column : Nat) (style : LabelStyle) (text : String)
  /-- A note or advice at the end. -/
  | remark (word text : String)
deriving DecidableEq, Repr, Inhabited

namespace MarkedLine

/-- The rows of the marks of a line. A single message stands beside the signs; several stand below
them, the last one drawn first. -/
def markRows (line : MarkedLine) : List ReportRow :=
  if line.underline.isEmpty then []
  else match line.messages with
    | [] => [.underline line.underline none]
    | [(mark, text)] => [.underline line.underline (some (mark.style, text))]
    | several => .underline line.underline none ::
        several.reverse.map fun (mark, text) => .message mark.start mark.style text

/-- The rows of a line. -/
def rows (line : MarkedLine) : List ReportRow :=
  .sourceLine line.number line.text :: line.markRows

/-- The rows of the lines behind the line with a number. -/
def rowsBehind (number : Nat) : List MarkedLine → List ReportRow
  | [] => []
  | line :: rest =>
      (if number + 1 < line.number then [.gap] else []) ++ line.rows ++
        rowsBehind line.number rest

/-- The rows of the lines of an excerpt. -/
def excerptRows : List MarkedLine → List ReportRow
  | [] => []
  | line :: rest => .separator :: line.rows ++ rowsBehind line.number rest

/-- The width of the column of line numbers. -/
def gutter (lines : List MarkedLine) : Nat :=
  max 2 (toString ((lines.getLast?.map (·.number)).getD 1)).length

end MarkedLine

namespace ReportRow

/-- The width of the column in front of notes and advice. -/
def remarkGutter : Nat := 2

/-- The bar between the line numbers and the source. -/
def bar (palette : Palette) : String :=
  palette.paint (.of .blue) "|"

/-- Signs below a line, each run of one sign in its look. -/
def paintSigns (palette : Palette) (signs : List Char) : String :=
  String.join <| (signs.splitBy (· == ·)).map fun run =>
    let text := String.ofList run
    match run with
    | '^' :: _ => palette.paint LabelStyle.primary.look text
    | '-' :: _ => palette.paint LabelStyle.secondary.look text
    | _ => text

/-- The start of a row without a line number. -/
def blankStart (palette : Palette) (gutter : Nat) : String :=
  Text.blank (gutter + 1) ++ " " ++ bar palette

/-- The text of a row beside line numbers of a given width. -/
def text (palette : Palette) (gutter : Nat) : ReportRow → String
  | .separator => blankStart palette gutter
  | .gap => Text.blank gutter ++ " " ++ palette.paint (.of .blue) "..."
  | .sourceLine number line =>
      palette.paint (.strong .blue) (Text.padLeft (gutter + 1) (toString number)) ++ " " ++
        bar palette ++ " " ++ String.ofList line
  | .underline signs none => blankStart palette gutter ++ " " ++ paintSigns palette signs
  | .underline signs (some (style, text)) =>
      blankStart palette gutter ++ " " ++ paintSigns palette signs ++ " " ++
        palette.paint style.look text
  | .message column style text =>
      blankStart palette gutter ++ " " ++ Text.blank column ++ palette.paint style.look "|" ++
        " " ++ palette.paint style.look text
  | .remark word text =>
      Text.blank (remarkGutter + 1) ++ " " ++ palette.paint (.of .cyan) "=" ++ " " ++
        palette.paint (.strong .cyan) word ++ ": " ++ text

end ReportRow
end LockDiscipline
