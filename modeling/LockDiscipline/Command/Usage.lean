import LockDiscipline.Check.Options
import LockDiscipline.Command.Output
import LockDiscipline.Text.Pad
/-!
# Usage

The texts that say how the program is used.
-/

namespace LockDiscipline.Usage

/-- The name of the program. -/
def programName : String := "guardcheck"

/-- The version of the program. -/
def version : String := "0.1.0"

/-- The heading of a section. -/
def heading (palette : Palette) (text : String) : String :=
  palette.paint (.strong .yellow) text

/-- A word to be typed as it is. -/
def word (palette : Palette) (text : String) : String :=
  palette.paint (.of .green) text

/-- A placeholder for an argument. -/
def argument (palette : Palette) (text : String) : String :=
  palette.paint (.of .cyan) text

/-- A row of a table: a word, its argument, and what it is for. -/
def commandRow (palette : Palette) (name placeholder gap purpose : String) : String :=
  let placeholder := if placeholder.isEmpty then "" else " " ++ argument palette placeholder
  "  " ++ word palette name ++ placeholder ++ gap ++ purpose

/-- A row of a table: an argument and what it is for. -/
def argumentRow (palette : Palette) (text gap purpose : String) : String :=
  "  " ++ argument palette text ++ gap ++ purpose

/-- The row of a rule. -/
def ruleRow (palette : Palette) (rule : CheckRule) : String :=
  "  " ++ word palette (Text.padRight 30 rule.id) ++ " " ++ rule.summary

/-- The lines that describe the whole program. -/
def lines (palette : Palette) : List String := [
  palette.paint { bold := true } programName ++ " " ++ palette.paint { dimmed := true } version ++
    " - @GuardedBy lock discipline checker",
  "",
  heading palette "Usage" ++ ": " ++ word palette programName ++ " " ++
    argument palette "<command>" ++ " " ++ argument palette "[args]",
  "",
  heading palette "Commands:",
  commandRow palette "check" "<file|dir>" "  " "Check lock discipline of Java sources",
  commandRow palette "locks" "<file>" "       "
    "Show required and held locks at each guarded access",
  commandRow palette "parse" "<file>" "       " "Parse a file and print its AST",
  commandRow palette "explain" "<code>" "     " "Explain a diagnostic code",
  commandRow palette "help" "" "              " "Show this help",
  commandRow palette "version" "" "           " "Show version",
  "",
  heading palette "Check options:",
  argumentRow palette "--format human|json" "   " "Output format (default: human)",
  argumentRow palette "--rule <pattern>" "     " "Only run rules matching a pattern (repeatable)",
  argumentRow palette "--exclude <pattern>" "  " "Skip rules matching a pattern (repeatable)",
  argumentRow palette "--config <file>" "      " "Read options from a config file",
  argumentRow palette "--unresolved-as-error" "    " "Report unusable guards as errors",
  "",
  heading palette "Rules:"] ++
  CheckRule.all.map (ruleRow palette) ++ [
  "",
  heading palette "Environment:",
  argumentRow palette "GUARDCHECK_LOG" "   " "Log filter, e.g. `debug` (default: warn)",
  argumentRow palette "NO_COLOR" "         " "Disable colored output",
  argumentRow palette "FORCE_COLOR" "      " "Force colored output"]

/-- The line that describes the arguments of a check. -/
def checkLine (palette : Palette) : String :=
  heading palette "Usage" ++ ": " ++ word palette (programName ++ " check") ++ " " ++
    argument palette "<file|dir>" ++ " " ++
    argument palette ("[--format human|json] [--rule <pattern>]... [--exclude <pattern>]... " ++
      "[--config <file>]")

end LockDiscipline.Usage
