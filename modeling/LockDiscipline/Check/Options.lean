import LockDiscipline.Text.Dotted
/-!
# Rules and their selection

The rules that a check runs, and the options that select among them. A pattern selects the rule of
that name, all rules of a category, or all rules.
-/

namespace LockDiscipline

/-- The rules of a check, in the order in which they run. -/
inductive CheckRule where
  /-- Accesses to guarded members whose lock is not held. -/
  | unguardedAccess
  /-- Guards that do not name a lock. -/
  | invalidGuard
deriving DecidableEq, Repr, Inhabited

namespace CheckRule

/-- All rules, in the order in which they run. -/
def all : List CheckRule := [.unguardedAccess, .invalidGuard]

/-- The name of a rule: its category, a slash and a name of its own. -/
def id : CheckRule → String
  | .unguardedAccess => "guarded-by/unguarded-access"
  | .invalidGuard => "guarded-by/invalid"

/-- What a rule finds. -/
def summary : CheckRule → String
  | .unguardedAccess => "guarded member accessed without holding its lock"
  | .invalidGuard => "@GuardedBy expression that does not name a lock"

end CheckRule

/-- What a check is asked to do. -/
structure CheckOptions where
  /-- The patterns of the rules to run. Without any, all rules run. -/
  rules : List String
  /-- The patterns of the rules not to run. They win over the patterns of the rules to run. -/
  excludes : List String
  /-- Whether a guard that does not name a lock is an error, and not just a warning. -/
  unresolvedAsError : Bool
deriving DecidableEq, Repr, Inhabited

namespace RulePattern

/-- The part of a rule name before its first slash. -/
def category (id : String) : List Char :=
  id.toList.takeWhile (· != '/')

/-- Whether a pattern selects a rule: by its name, by its category with a slash and a star, or by a
star alone. -/
def selects (id pattern : String) : Bool :=
  pattern == id || pattern == "*" || pattern.toList == category id ++ ['/', '*']

end RulePattern

namespace CheckOptions

/-- The options of a check of which nothing special is asked. -/
def default : CheckOptions := ⟨[], [], false⟩

/-- Whether the rule with a name runs. -/
def runs (options : CheckOptions) (id : String) : Bool :=
  !options.excludes.any (RulePattern.selects id) &&
    (options.rules.isEmpty || options.rules.any (RulePattern.selects id))

end CheckOptions
end LockDiscipline
