import LockDiscipline.Program.Symbol
/-!
# Lock expressions

A `LockExpr` says which object a lock is, as seen from the code of one class: an instance, a class
object, a variable, or a member reached from one of these. Two lock expressions are the same lock
when they agree up to the names that they display; `LockExpr.same` decides that, and is an
equivalence because it compares the expressions with their names erased.
-/

namespace LockDiscipline

/-- A symbol inside a lock expression: its number, and its name for display. -/
structure LockSymbol where
  id : SymbolId
  name : String
deriving DecidableEq, Repr, Inhabited

/-- The symbol as lock expressions show it. Methods have parentheses behind their name. -/
def LockSymbol.ofSymbol (symbol : NamedSymbol) : LockSymbol :=
  ⟨symbol.id, if symbol.isMethod then symbol.name ++ "()" else symbol.name⟩

/-- Which object a lock is. -/
inductive LockExpr where
  /-- The innermost enclosing instance. -/
  | this
  /-- An enclosing instance other than the innermost. -/
  | outer (type : LockSymbol)
  /-- The class object of a class. -/
  | classLiteral (type : LockSymbol)
  /-- A type before one of its static members. -/
  | typeLiteral (type : LockSymbol)
  /-- A local variable or parameter. -/
  | localVar (var : LockSymbol)
  /-- A field, or the result of a method without parameters. -/
  | select (base : LockExpr) (member : LockSymbol)
deriving DecidableEq, Repr, Inhabited

namespace LockExpr

/-- The expression without the names that it displays. -/
def erase : LockExpr → LockExpr
  | .this => .this
  | .outer type => .outer ⟨type.id, ""⟩
  | .classLiteral type => .classLiteral ⟨type.id, ""⟩
  | .typeLiteral type => .typeLiteral ⟨type.id, ""⟩
  | .localVar var => .localVar ⟨var.id, ""⟩
  | .select base member => .select base.erase ⟨member.id, ""⟩

/-- Whether two expressions are the same lock: they are equal up to displayed names. -/
def same (first second : LockExpr) : Bool :=
  first.erase == second.erase

@[simp] theorem same_iff {first second : LockExpr} :
    first.same second = true ↔ first.erase = second.erase := by
  simp [same]

/-- The expression at the bottom of a chain of members. -/
def root : LockExpr → LockExpr
  | .select base _ => base.root
  | lock => lock

/-- Whether the lock depends on how the guarded member is reached: it is rooted at the innermost
instance. -/
def isRelative (lock : LockExpr) : Bool :=
  lock.root == .this

/-- The lock as messages show it. -/
def text : LockExpr → String
  | .this => "this"
  | .outer type => type.name ++ ".this"
  | .classLiteral type => type.name ++ ".class"
  | .typeLiteral type => type.name
  | .localVar var => var.name
  | .select base member => base.text ++ "." ++ member.name

end LockExpr
end LockDiscipline
