import LockDiscipline.Report.Style
/-!
# Output of commands

What a command writes, line by line, and whether it failed. Results go to the standard output;
reports on problems go to the error output.
-/

namespace LockDiscipline

/-- A line of output. Texts that end in a newline are followed by an empty line. -/
inductive OutputLine where
  | result (text : String)
  | problem (text : String)
deriving DecidableEq, Repr, Inhabited

/-- What a command has written, and whether it failed. -/
structure CommandOutput where
  lines : List OutputLine
  failed : Bool
deriving DecidableEq, Repr, Inhabited

namespace OutputLine

/-- What a line adds to the standard output. -/
def resultText : OutputLine → String
  | .result text => text ++ "\n"
  | .problem _ => ""

/-- What a line adds to the error output. -/
def problemText : OutputLine → String
  | .result _ => ""
  | .problem text => text ++ "\n"

end OutputLine

namespace CommandOutput

/-- The output of a command that did what it was asked to. -/
def done (lines : List OutputLine) : CommandOutput :=
  ⟨lines, false⟩

/-- The output of a command that failed. -/
def failure (lines : List OutputLine) : CommandOutput :=
  ⟨lines, true⟩

/-- The whole standard output. -/
def results (output : CommandOutput) : String :=
  String.join (output.lines.map (·.resultText))

/-- The whole error output. -/
def problems (output : CommandOutput) : String :=
  String.join (output.lines.map (·.problemText))

/-- The status with which the program ends. -/
def status (output : CommandOutput) : Nat :=
  if output.failed then 1 else 0

end CommandOutput

/-- The line of an error that no diagnostic describes. -/
def errorLine (palette : Palette) (message : String) : OutputLine :=
  .problem (palette.paint (.strong .red) "error" ++ ": " ++ message)

/-- A path as messages show it. -/
def Palette.path (palette : Palette) (path : String) : String :=
  palette.paint { underlined := true } path

/-- The line of the error that a file cannot be read. -/
def unreadableLine (palette : Palette) (path reason : String) : OutputLine :=
  errorLine palette ("reading " ++ palette.path path ++ ": " ++ reason)

end LockDiscipline
