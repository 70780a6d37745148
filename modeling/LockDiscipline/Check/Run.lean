import LockDiscipline.Check.InvalidGuard
import LockDiscipline.Check.UnguardedAccess
import LockDiscipline.Grammar.Program
import LockDiscipline.Program.Resolve
import LockDiscipline.Report.Diagnostic
/-!
# Checking a source

A check reads a source, resolves its names and runs the selected rules over its units of code.
Errors in reading end the check, since the tree is then a guess; problems with names do not. What
the rules find is reported in the order of the places that it is found at.
-/

namespace LockDiscipline

/-- A source that was read without errors, ready for the rules. -/
structure CheckSubject where
  program : Program
  units : CodeUnits

namespace CheckSubject

/-- A unit ready for the rules. -/
def ofUnit (unit : CompilationUnit) : CheckSubject :=
  let program := Program.ofUnit unit
  ⟨program, .ofUnit program unit⟩

/-- What a rule finds. -/
def findings (subject : CheckSubject) (options : CheckOptions) : CheckRule → List Diagnostic
  | .unguardedAccess => subject.units.bodies.flatMap (·.findings subject.program)
  | .invalidGuard =>
      subject.units.classes.flatMap (·.guardFindings subject.program options.guardSeverity)

/-- The events of a rule. -/
def events (subject : CheckSubject) : CheckRule → List TraceEvent
  | .unguardedAccess => subject.units.bodies.flatMap (·.events subject.program)
  | .invalidGuard => subject.units.classes.flatMap (·.guardEvents subject.program)

/-- The position in the order of reports: findings without a place come first. -/
def sortKey (finding : Diagnostic) : Nat :=
  match finding.primarySpan? with
  | none => 0
  | some span => span.start + 1

/-- What the selected rules find, in the order of the places. Findings at one place stay in the
order of their rules. -/
def ruleFindings (subject : CheckSubject) (options : CheckOptions) : List Diagnostic :=
  ((CheckRule.all.filter (options.runs ·.id)).flatMap (subject.findings options)).mergeSort
    fun first second => sortKey first ≤ sortKey second

/-- The events of a rule, which may not be selected. -/
def ruleEvents (subject : CheckSubject) (options : CheckOptions) (rule : CheckRule) :
    List TraceEvent :=
  if options.runs rule.id then subject.events rule else [.ruleDisabled rule.id]

end CheckSubject

/-- Everything that a check finds in a source. -/
def checkFindings (source : List Char) (options : CheckOptions) : List Diagnostic :=
  let parsed := ParsedUnit.ofSource source
  if parsed.errors.isEmpty then
    let subject := CheckSubject.ofUnit parsed.unit
    subject.program.problems.map (·.diagnostic) ++ subject.ruleFindings options
  else parsed.errors.map (·.diagnostic)

/-- Check a source under the name of its file. -/
def checkSource (file : String) (source : List Char) (options : CheckOptions) : FileReport :=
  ⟨file, source, checkFindings source options⟩

/-- The events of the search for units of code. -/
def unitEvents (program : Program) (unit : CompilationUnit) : List TraceEvent :=
  let found := CodeUnits.findings program unit
  let units := CodeUnits.ofUnit program unit
  (found.filterMap (·.unresolved?)).map .classSkipped ++
    [.unitsFound units.classes.length units.bodies.length]

/-- The events of a check, in order. -/
def checkEvents (file : String) (source : List Char) (options : CheckOptions) : List TraceEvent :=
  let parsed := ParsedUnit.ofSource source
  .parsed parsed.unit.types.length parsed.errors.length ::
    if parsed.errors.isEmpty then
      let subject := CheckSubject.ofUnit parsed.unit
      (Program.resolve parsed.unit).2 ++ unitEvents subject.program parsed.unit ++
        CheckRule.all.flatMap (subject.ruleEvents options)
    else [.rulesSkipped file parsed.errors.length]

end LockDiscipline
