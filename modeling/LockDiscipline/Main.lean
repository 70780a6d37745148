import LockDiscipline.Command.Run
/-!
# The program

The files of the machine, the environment, and the streams that output goes to. All decisions are
made by `Command.run`.
-/

namespace LockDiscipline

namespace MachineFiles

/-- The reason why a file cannot be read, from the error of the machine. -/
def reason : IO.Error → FileError
  | .noFileOrDirectory .. => .notFound
  | .inappropriateType .. => .notADirectory
  | error => .other (toString error)

/-- Whether there is a directory at a path. -/
def isDirectory (path : String) : IO Bool :=
  (System.mkFilePath [path]).isDir

/-- Whether there is something else than a directory at a path. -/
def isFile (path : String) : IO Bool := do
  return (← (System.mkFilePath [path]).pathExists) && !(← isDirectory path)

/-- The text of the file at a path. -/
def read (path : String) : IO (Except FileError String) := do
  if ← isDirectory path then return .error .isADirectory
  try
    match String.fromUTF8? (← IO.FS.readBinFile path) with
    | some text => return .ok text
    | none => return .error .notText
  catch error => return .error (reason error)

/-- The names in the directory at a path. A directory that cannot be read is taken to be empty. -/
def names (path : String) : IO (List String) := do
  try
    return ((← (System.mkFilePath [path]).readDir).map (·.fileName)).toList
  catch _ => return []

/-- Access to the files of the machine. -/
def access : FileAccess IO := ⟨isDirectory, isFile, read, names⟩

end MachineFiles

/-- Write a line to its stream. -/
def OutputLine.write : OutputLine → IO Unit
  | .result text => IO.println text
  | .problem text => IO.eprintln text

/-- The palette that the environment asks for. -/
def Palette.get : IO Palette := do
  return .ofEnvironment (← IO.getEnv "NO_COLOR") (← IO.getEnv "FORCE_COLOR")
    (← (← IO.getStdout).isTty)

end LockDiscipline

open LockDiscipline in
/-- Run the program with the arguments of its command line. -/
def main (arguments : List String) : IO UInt32 := do
  let output ← Command.run MachineFiles.access (← Palette.get) arguments
  output.lines.forM OutputLine.write
  return UInt32.ofNat output.status
