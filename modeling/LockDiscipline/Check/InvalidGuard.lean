import LockDiscipline.Check.CodeUnit
import LockDiscipline.Check.Options
import LockDiscipline.Lock.Guard
import LockDiscipline.Report.Suggestion
import LockDiscipline.Text.Word
import LockDiscipline.Trace
/-!
# Guards that do not name a lock

The second rule: every guard that is declared on a field or a method of a class is bound from that
class, and one that is not a lock is reported, for accesses to its member are not checked. The
variables of one declaration share its guard and give one report.
-/

namespace LockDiscipline

/-- A guard as it is declared in a class body. -/
structure DeclaredGuard where
  guard : String
  /-- The annotation that declares the guard. -/
  declaration : AnnotationUse

namespace DeclaredGuard

/-- The modifiers of a member that can have a guard, and the node that its symbol belongs to. -/
def carrier? : MemberKind → Option (Modifiers × NodeId)
  | .field modifiers _ (declarator :: _) => some (modifiers, declarator.id)
  | .method decl => some (decl.modifiers, decl.id)
  | _ => none

/-- The guard that is declared on a member with a symbol. -/
def ofMember? (program : Program) (member : Member) : Option DeclaredGuard := do
  let (modifiers, node) ← carrier? member.kind
  let declaration ← modifiers.guardUse?
  let guard ← declaration.value?
  if (program.use? node).isSome then return ⟨guard, declaration⟩ else none

/-- The name that a guard would have to be if it were a field of the class: the guard itself, or
what follows `this.`. -/
def plainName (declared : DeclaredGuard) : List Char :=
  let trimmed := Text.trim declared.guard.toList
  (Text.dropStart? "this.".toList trimmed).getD trimmed

end DeclaredGuard

namespace Viewpoint

/-- The names of the fields of the class and of the classes around it, in the order of their
declaration. -/
def fieldNames (view : Viewpoint) : List String :=
  (view.program.symbols.toList.filter fun symbol =>
    symbol.isField && symbol.owner?.any view.enclosing.contains).map (·.name)

/-- The advice on a guard that does not name a lock. -/
def guardAdvice? (view : Viewpoint) (declared : DeclaredGuard) : Option String :=
  if Text.isName declared.plainName then
    Suggestion.advice? (String.ofList declared.plainName) view.fieldNames
  else none

end Viewpoint

namespace ClassUnit

/-- The class seen from its own code. -/
def view (program : Program) (unit : ClassUnit) : Viewpoint :=
  ⟨program, unit.id⟩

/-- The guards that are declared in a class. -/
def guards (program : Program) (unit : ClassUnit) : List DeclaredGuard :=
  unit.decl.members.filterMap (DeclaredGuard.ofMember? program)

/-- The name of a class. -/
def name (program : Program) (unit : ClassUnit) : String :=
  ((program.symbol? unit.id).map (·.name)).getD unit.decl.name

/-- The finding that a guard does not name a lock. -/
def guardDiagnostic (program : Program) (unit : ClassUnit) (severity : Severity)
    (declared : DeclaredGuard) (error : NotALock) : Diagnostic where
  severity
  code := some CheckRule.invalidGuard.id
  message := "invalid @GuardedBy expression: `" ++ error.text ++ "`"
  labels := [.primary declared.declaration.span
    ("does not name a lock visible from `" ++ unit.name program ++ "`")]
  notes := ["a guard is `this`, `Outer.this`, `Type.class`, or a chain of fields and " ++
    "no-argument methods"]
  help := (unit.view program).guardAdvice? declared

/-- The findings on the guards that are declared in a class. -/
def guardFindings (program : Program) (severity : Severity) (unit : ClassUnit) :
    List Diagnostic :=
  (unit.guards program).filterMap fun declared =>
    match (unit.view program).bindGuard declared.guard with
    | .ok _ => none
    | .error error => some (unit.guardDiagnostic program severity declared error)

/-- The events of binding the guards that are declared in a class. -/
def guardEvents (program : Program) (unit : ClassUnit) : List TraceEvent :=
  (unit.guards program).filterMap fun declared =>
    match (unit.view program).bindGuard declared.guard with
    | .ok lock => some (.guardBound declared.guard lock.text)
    | .error _ => none

end ClassUnit

/-- How grave a guard is that does not name a lock. -/
def CheckOptions.guardSeverity (options : CheckOptions) : Severity :=
  if options.unresolvedAsError then .error else .warning

end LockDiscipline
