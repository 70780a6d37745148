/-!
# Codes of diagnostics

Every kind of finding has a code, a title and a category. The rules use their own names as codes.
-/

namespace LockDiscipline

/-- The stage of the analysis that a kind of finding comes from. -/
inductive CodeCategory where
  | reading | resolution | locking
deriving DecidableEq, Repr, Inhabited

/-- The name under which a category is reported. -/
def CodeCategory.text : CodeCategory → String
  | .reading => "Syntax"
  | .resolution => "Resolution"
  | .locking => "Locking"

/-- What is known of a code. -/
structure CodeInfo where
  code : String
  title : String
  category : CodeCategory
deriving DecidableEq, Repr, Inhabited

namespace CodeInfo

/-- All codes, in their order. -/
def all : List CodeInfo := [
  ⟨"E0001", "invalid token", .reading⟩,
  ⟨"E0100", "unexpected token", .reading⟩,
  ⟨"E0201", "duplicate class", .resolution⟩,
  ⟨"E0202", "duplicate field", .resolution⟩,
  ⟨"E0203", "cyclic inheritance", .resolution⟩,
  ⟨"guarded-by/invalid", "guard expression does not name a lock", .locking⟩,
  ⟨"guarded-by/unguarded-access", "guarded member accessed without its lock", .locking⟩]

/-- What is known of a code, if it is one. -/
def find? (code : String) : Option CodeInfo :=
  all.find? (·.code == code)

end CodeInfo
end LockDiscipline
