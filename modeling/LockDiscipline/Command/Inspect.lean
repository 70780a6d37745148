import LockDiscipline.Check.Access
import LockDiscipline.Command.Output
import LockDiscipline.Program.Resolve
import LockDiscipline.Report.Code
import LockDiscipline.Report.Terminal
import LockDiscipline.Syntax.Outline
/-!
# Commands that show

Show the syntax tree of a source, its guarded accesses with the locks that they require, or the
meaning of a code. A source that cannot be read without errors is only reported on.
-/

namespace LockDiscipline

namespace Inspect

/-- A word between two marks, as a heading. -/
def framed (palette : Palette) (mark text : String) : String :=
  let sides := palette.paint { dimmed := true } mark
  sides ++ " " ++ text ++ " " ++ sides

/-- The reports of diagnostics for people. -/
def problemLines (palette : Palette) (path : String) (source : List Char)
    (diagnostics : List Diagnostic) : List OutputLine :=
  (FileReport.terminalTexts palette ⟨path, source, diagnostics⟩).map .problem

/-- The closing line for a source with errors. -/
def failedLine (palette : Palette) (errors : Nat) : OutputLine :=
  let count := if errors = 1 then "1 error" else toString errors ++ " errors"
  .problem (framed palette "===" (palette.paint (.strong .red) ("Parse FAILED: " ++ count)))

/-- The closing line for a source without errors. -/
def passedLine (palette : Palette) (types : Nat) : OutputLine :=
  .result (framed palette "==="
    (palette.paint (.strong .green) ("Parse: " ++ toString types ++ " types OK")))

/-- What is to be shown of a source, if it can be read without errors. -/
def ofSource (palette : Palette) (path : String) (source : List Char)
    (shown : CompilationUnit → List OutputLine) : CommandOutput :=
  let parsed := ParsedUnit.ofSource source
  if parsed.errors.isEmpty then .done (shown parsed.unit)
  else .failure (problemLines palette path source (parsed.errors.map (·.diagnostic)) ++
    [failedLine palette parsed.errors.length])

/-- The lines of a type with its number. -/
def typeLines (palette : Palette) (decl : ClassDecl) (number : Nat) : List OutputLine := [
  .result (framed palette "---" ("Type " ++ toString number ++ ": " ++ decl.name)),
  .result decl.outline.text,
  .result ""]

/-- The lines of the syntax tree of a unit. -/
def treeLines (palette : Palette) (unit : CompilationUnit) : List OutputLine :=
  (unit.package.map fun name => OutputLine.result ("package " ++ name)).toList ++
    unit.imports.map (fun decl => .result ("import " ++ decl.path)) ++
    (unit.types.zipIdx 1).flatMap (fun (decl, number) => typeLines palette decl number) ++
    [passedLine palette unit.types.length]

/-- The name of a unit of code. -/
def unitTitle (program : Program) (unit : CodeUnit) : String :=
  let name := ((program.symbol? unit.self).map (·.name)).getD "<unknown>"
  match unit.body with
  | .method decl => name ++ "." ++ decl.name ++ "()"
  | .initializer _ => name ++ " initializer"
  | .lambda _ => "lambda in " ++ name

/-- The line of a guarded access. -/
def accessLine (palette : Palette) (mapped : MappedSource) (access : Access) : OutputLine :=
  let sign := if access.isSatisfied then palette.paint (.of .green) "✓"
    else palette.paint (.of .red) "✗"
  let (line, column) := mapped.lines.lineCol access.expr.span.start
  let text := (Text.slice? mapped.source access.expr.span.start access.expr.span.stop).getD ['?']
  .result ("  " ++ sign ++ " " ++ toString line ++ ":" ++ toString column ++ " " ++
    String.ofList text ++ " requires " ++ palette.paint (.of .cyan) access.required.text ++
    ", held " ++ access.held.text)

/-- The lines of a unit of code. -/
def unitLines (palette : Palette) (mapped : MappedSource) (program : Program) (unit : CodeUnit) :
    List OutputLine :=
  .result (palette.paint { bold := true } (unitTitle program unit)) ::
    (unit.accesses program).map (accessLine palette mapped)

/-- The lines of the guarded accesses of a unit, with the problems of its names before them. -/
def lockLines (palette : Palette) (path : String) (source : List Char) (unit : CompilationUnit) :
    List OutputLine :=
  let program := Program.ofUnit unit
  let units := CodeUnits.ofUnit program unit
  let accesses := units.bodies.flatMap (·.accesses program)
  problemLines palette path source (program.problems.map (·.diagnostic)) ++
    units.bodies.flatMap (unitLines palette (.of source) program) ++ [
    .result "",
    .result (toString accesses.length ++ " guarded accesses, " ++
      toString (accesses.filter (!·.isSatisfied)).length ++ " without their lock")]

/-- Show the syntax tree of a source. -/
def tree (palette : Palette) (path : String) (source : List Char) : CommandOutput :=
  ofSource palette path source (treeLines palette)

/-- Show the guarded accesses of a source. -/
def locks (palette : Palette) (path : String) (source : List Char) : CommandOutput :=
  ofSource palette path source (lockLines palette path source)

/-- Explain a code. -/
def explain (palette : Palette) (code : String) : CommandOutput :=
  match CodeInfo.find? code with
  | some info => .done [
      .result (palette.paint { bold := true } info.code ++ ": " ++ info.title),
      .result "",
      .result ("  Category: " ++ info.category.text),
      .result "",
      .result "  Run `guardcheck check <file>` to see it in context."]
  | none => .failure [
      errorLine palette ("unknown code `" ++ code ++ "`"),
      .problem "",
      .problem ("Known codes: " ++ Text.join ", " (CodeInfo.all.map (·.code)))]

end Inspect
end LockDiscipline
