import LockDiscipline.Command.Check
import LockDiscipline.Command.Inspect
import LockDiscipline.Command.Usage
/-!
# Running commands

The first argument names a command. Without arguments the usage is shown.
-/

namespace LockDiscipline

namespace Palette

/-- The palette for an environment: `NO_COLOR` turns color off, else `FORCE_COLOR` turns it on, and
else it depends on whether the output is a terminal. What the variables are set to does not matter.
-/
def ofEnvironment (noColor forceColor : Option String) (terminal : Bool) : Palette :=
  if noColor.isSome then ⟨false⟩ else if forceColor.isSome then ⟨true⟩ else ⟨terminal⟩

end Palette

namespace Command

variable {m : Type → Type} [Monad m] (files : FileAccess m)

/-- The output that describes the program. -/
def usage (palette : Palette) : CommandOutput :=
  .done ((Usage.lines palette).map .result)

/-- The output for a command without its argument. -/
def missingArgument (palette : Palette) (command : String) : CommandOutput :=
  .failure [errorLine palette "missing argument",
    .problem ("Usage: " ++ Usage.programName ++ " " ++ command ++ " <arg>")]

/-- Check what the arguments ask for. -/
def check (palette : Palette) (arguments : List String) : m CommandOutput :=
  match CheckRequest.read arguments with
  | .ok request => CheckCommand.run files palette request
  | .error error =>
      pure (.failure [errorLine palette error.message, .problem (Usage.checkLine palette)])

/-- Show something of the source in a file. -/
def inspect (palette : Palette) (path : String)
    (shown : (path : String) → (source : List Char) → CommandOutput) : m CommandOutput := do
  match ← files.read path with
  | .error reason => return .failure [unreadableLine palette path reason.message]
  | .ok text => return shown path text.toList

/-- Run the program with arguments. -/
def run (palette : Palette) : (arguments : List String) → m CommandOutput
  | [] => pure (usage palette)
  | command :: arguments =>
      match command, arguments with
      | "check", _ => check files palette arguments
      | "locks", path :: _ => inspect files palette path (Inspect.locks palette)
      | "parse", path :: _ => inspect files palette path (Inspect.tree palette)
      | "explain", code :: _ => pure (Inspect.explain palette code)
      | "locks", [] | "parse", [] | "explain", [] => pure (missingArgument palette command)
      | "help", _ | "--help", _ | "-h", _ => pure (usage palette)
      | "version", _ | "--version", _ | "-V", _ =>
          pure (.done [.result (Usage.programName ++ " " ++ Usage.version)])
      | _, _ => pure (.failure [
          errorLine palette ("unknown command `" ++ command ++ "`"),
          .problem ("Run `" ++ Usage.programName ++ " help` for available commands.")])

end Command
end LockDiscipline
