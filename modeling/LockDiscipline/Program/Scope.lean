import LockDiscipline.Program.Symbol
/-!
# Scopes

Names of variables are looked up in nested scopes, the innermost first. A class scope binds no
variables itself; the fields of its class take part in the lookup, so that a field of an inner class
hides a variable of the code around the class.
-/

namespace LockDiscipline

/-- What a scope is the scope of. -/
inductive ScopeKind where
  | classBody (symbol : SymbolId)
  | method (symbol : Option SymbolId)
  | block
  | lambda
deriving DecidableEq, Repr, Inhabited

/-- A scope with the names that it binds, the last binding first. -/
structure Scope where
  kind : ScopeKind
  bindings : List (String × SymbolId)
deriving DecidableEq, Repr, Inhabited

/-- The scopes around a place, innermost first, inside the scope of the file. -/
structure ScopeStack where
  inner : List Scope
  file : Scope
  /-- How many scopes were opened so far. -/
  opened : Nat
deriving DecidableEq, Repr, Inhabited

namespace ScopeStack

/-- The scope of a file, with nothing inside. -/
def empty : ScopeStack :=
  ⟨[], ⟨.block, []⟩, 0⟩

/-- Enter a new scope. -/
def push (kind : ScopeKind) (scopes : ScopeStack) : ScopeStack :=
  { scopes with inner := ⟨kind, []⟩ :: scopes.inner, opened := scopes.opened + 1 }

/-- Leave the innermost scope; the scope of the file is never left. -/
def pop (scopes : ScopeStack) : ScopeStack :=
  { scopes with inner := scopes.inner.tail }

/-- Bind a name in the innermost scope. -/
def define (name : String) (symbol : SymbolId) (scopes : ScopeStack) : ScopeStack :=
  let bind (scope : Scope) : Scope := { scope with bindings := (name, symbol) :: scope.bindings }
  match scopes.inner with
  | [] => { scopes with file := bind scopes.file }
  | scope :: rest => { scopes with inner := bind scope :: rest }

/-- The scopes around a place, the scope of the file last. -/
def toList (scopes : ScopeStack) : List Scope :=
  scopes.inner ++ [scopes.file]

/-- What a name means in a single scope. -/
def lookupIn (name : String) (field? : SymbolId → Option SymbolId) (scope : Scope) :
    Option SymbolId :=
  (scope.bindings.lookup name).or <|
    match scope.kind with
    | .classBody symbol => field? symbol
    | _ => none

/-- The variable or field that a name means: the one bound by the innermost scope that binds it.
The fields of a class are given by a function. -/
def lookup (name : String) (field? : SymbolId → Option SymbolId) (scopes : ScopeStack) :
    Option SymbolId :=
  scopes.toList.findSome? (lookupIn name field?)

/-- The classes around a place, innermost first. -/
def enclosingClasses (scopes : ScopeStack) : List SymbolId :=
  scopes.toList.filterMap fun scope =>
    match scope.kind with
    | .classBody symbol => some symbol
    | _ => none

/-- The innermost class around a place. -/
def currentClass? (scopes : ScopeStack) : Option SymbolId :=
  scopes.enclosingClasses.head?

end ScopeStack
end LockDiscipline
