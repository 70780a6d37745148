import LockDiscipline.Check.Access
import LockDiscipline.Check.Options
import LockDiscipline.Report.Diagnostic
import LockDiscipline.Trace
/-!
# Unguarded accesses

The first rule: every access to a guarded member whose lock is not held is an error. The finding
shows the declaration of the guard, if the member is declared in the source, and the locks that are
held.
-/

namespace LockDiscipline

namespace Access

/-- The word for what an access does with its member. -/
def word (access : Access) : String :=
  if access.member.isMethod then "call" else "access"

/-- The member as messages show it. -/
def memberText (access : Access) : String :=
  if access.member.isMethod then access.member.name ++ "()" else access.member.name

/-- The label at the declaration of the guard. -/
def guardLabels (access : Access) : List Label :=
  if access.member.span.isEmpty then []
  else [.secondary access.member.span
    ("guarded by \"" ++ access.member.guard.getD "" ++ "\"")]

/-- The note that says which locks are held. -/
def heldNote (access : Access) : String :=
  if access.held.isEmpty then "no locks are held here"
  else "locks held here: " ++ access.held.text

/-- The finding that the required lock of an access is not held. -/
def diagnostic (access : Access) : Diagnostic where
  severity := .error
  code := some CheckRule.unguardedAccess.id
  message := access.word ++ " to `" ++ access.memberText ++ "` requires holding `" ++
    access.required.text ++ "`"
  labels := .primary access.expr.span ("`" ++ access.required.text ++ "` is not held here") ::
    access.guardLabels
  notes := [access.heldNote]
  help := some ("acquire `" ++ access.required.text ++ "` before this " ++ access.word)

end Access

/-- The event of a call that looks like a release of something that is not a lock. -/
def Release.events : Release → List TraceEvent
  | .ignored method => [.releaseIgnored method]
  | .locks _ => []

namespace ScanStep

/-- The events of a step of the analysis. -/
def events : ScanStep → List TraceEvent
  | .access found =>
      .accessChecked found.member.name found.required.text found.held.text ::
        if found.isSatisfied then [.lockHeld found.required.text found.expr.span.text] else []
  | .skipped member error => [.accessSkipped member error.message]
  | .unboundOperand error => [.operandUnbound error.message]
  | .released releases locks =>
      releases.flatMap Release.events ++
        if locks.isEmpty then []
        else [.locksReleased (Text.join ", " (locks.toList.map (·.text)))]
  | .unknownMethod name => [.methodUnknown name]
  | .skippedMethodGuard name error => [.methodGuardSkipped name error.message]

end ScanStep

namespace CodeUnit

/-- The event that the analysis of a unit begins. -/
def entered (unit : CodeUnit) : TraceEvent :=
  match unit.body with
  | .method decl => .methodEntered decl.name
  | .initializer _ => .initializerEntered
  | .lambda _ => .lambdaEntered

/-- The events of the analysis of a unit. -/
def events (program : Program) (unit : CodeUnit) : List TraceEvent :=
  unit.entered :: (unit.scan program).flatMap (·.events)

/-- The findings in a unit. -/
def findings (program : Program) (unit : CodeUnit) : List Diagnostic :=
  ((unit.accesses program).filter (!·.isSatisfied)).map (·.diagnostic)

end CodeUnit
end LockDiscipline
