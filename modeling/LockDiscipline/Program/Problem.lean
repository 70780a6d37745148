import LockDiscipline.Report.Diagnostic
/-!
# Problems with names

What can be wrong with the declarations of a unit. Problems never end the analysis; each is reported
as a warning.
-/

namespace LockDiscipline

/-- A problem with a declaration at the given span. -/
inductive NameProblem where
  | duplicateClass (name : String) (span previous : Span)
  | duplicateField (name : String) (span previous : Span)
  | cyclicInheritance (name : String) (span : Span)
deriving DecidableEq, Repr, Inhabited

/-- A span as messages write it. -/
def Span.text (span : Span) : String :=
  "Span \x7b start: " ++ toString span.start ++ ", end: " ++ toString span.stop ++ " \x7d"

namespace NameProblem

/-- The declaration that the problem is with. -/
def span : NameProblem → Span
  | .duplicateClass _ span _ | .duplicateField _ span _ | .cyclicInheritance _ span => span

/-- The text of a problem. -/
def message : NameProblem → String
  | .duplicateClass name _ previous =>
      "duplicate class: " ++ name ++ " (previously defined at " ++ previous.text ++ ")"
  | .duplicateField name _ previous =>
      "duplicate field: " ++ name ++ " (previously defined at " ++ previous.text ++ ")"
  | .cyclicInheritance name _ => "cyclic inheritance involving " ++ name

/-- The diagnostic for a problem. -/
def diagnostic : NameProblem → Diagnostic
  | .duplicateClass name span previous =>
      { severity := .warning, code := some "E0201", message := "duplicate class: `" ++ name ++ "`"
        labels := [.primary span "redefined here", .secondary previous "previously defined here"]
        notes := [], help := none }
  | .duplicateField name span previous =>
      { severity := .warning, code := some "E0202", message := "duplicate field: `" ++ name ++ "`"
        labels := [.primary span "redefined here", .secondary previous "previously defined here"]
        notes := ["accesses resolve to the first declaration"], help := none }
  | .cyclicInheritance name span =>
      { severity := .warning, code := some "E0203"
        message := "cyclic inheritance involving `" ++ name ++ "`"
        labels := [.primary span "cycle detected here"]
        notes := ["the supertype closing the cycle is ignored"], help := none }

end NameProblem
end LockDiscipline
