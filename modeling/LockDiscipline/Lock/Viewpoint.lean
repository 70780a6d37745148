import LockDiscipline.Lock.Expr
import LockDiscipline.Program.Basic
/-!
# Locks as a class sees them

A lock expression is bound from the code of one class, its `Viewpoint`: `this` is an instance of
that class, and a bare member name belongs to the innermost class around that declares or inherits
it. Both ways of binding, of guard texts and of source expressions, select members by
`Viewpoint.select`, so they agree on what a member of a lock is.
-/

namespace LockDiscipline

/-- Why an expression is not a lock: a text that shows what could not be bound. -/
structure NotALock where
  text : String
deriving DecidableEq, Repr, Inhabited

/-- The message for an expression that is not a lock. -/
def NotALock.message (error : NotALock) : String :=
  "invalid @GuardedBy expression: " ++ error.text

/-- What a part of an expression is bound to: a lock, or a type before a member. -/
inductive Bound where
  | lock (lock : LockExpr)
  | type (id : SymbolId)
deriving DecidableEq, Repr, Inhabited

/-- A class of a program from whose code locks are seen. -/
structure Viewpoint where
  program : Program
  self : SymbolId

namespace Viewpoint

/-- The same program seen from another class. -/
def withSelf (view : Viewpoint) (self : SymbolId) : Viewpoint :=
  { view with self }

/-- The viewpoint from which the guard of a member is bound: the class that declares it. -/
def ofMember? (view : Viewpoint) (member : NamedSymbol) : Option Viewpoint :=
  member.owner?.map view.withSelf

/-- The symbol with a number. -/
def symbol (view : Viewpoint) (id : SymbolId) : Except NotALock NamedSymbol :=
  match view.program.symbol? id with
  | some symbol => .ok symbol
  | none => .error ⟨s!"unknown symbol {id}"⟩

/-- A symbol as lock expressions show it. -/
def lockSymbol (view : Viewpoint) (id : SymbolId) : Except NotALock LockSymbol :=
  return .ofSymbol (← view.symbol id)

/-- The class and the classes around it, innermost first. -/
def enclosing (view : Viewpoint) : List SymbolId :=
  view.program.enclosing view.self

/-- The enclosing instance of a class. -/
def enclosingInstance (view : Viewpoint) (type : SymbolId) : Except NotALock LockExpr := do
  if type = view.self then return .this
  else if view.enclosing.contains type then return .outer (← view.lockSymbol type)
  else throw ⟨(← view.symbol type).name ++ ".this"⟩

/-- The object that a bare member name is selected from: the instance of the innermost class around
that declares or inherits the member. -/
def implicitReceiver (view : Viewpoint) (member : NamedSymbol) (owner : SymbolId) :
    Except NotALock LockExpr :=
  match view.enclosing.find? fun type => view.program.isSubclass type owner with
  | some type => view.enclosingInstance type
  | none => .error ⟨member.name⟩

/-- The static class of the object that a lock is. -/
def staticClass? (view : Viewpoint) : LockExpr → Option SymbolId
  | .this => some view.self
  | .outer type => some type.id
  | .localVar symbol | .select _ symbol => view.program.typeOf? symbol.id
  | .classLiteral _ | .typeLiteral _ => none

/-- The lock from which a field or method is selected. A static member is selected from its class,
whatever is written before it. -/
def selectBase (view : Viewpoint) (base : Option Bound) (member : NamedSymbol)
    (owner : SymbolId) : Except NotALock LockExpr :=
  if member.isStatic then return .typeLiteral (← view.lockSymbol owner)
  else match base with
    | some (.lock lock) => return lock
    | some (.type _) => throw ⟨"instance member " ++ member.name ++ " selected from a type"⟩
    | none => view.implicitReceiver member owner

/-- Select a member from what is bound before it, or from where its bare name belongs. -/
def select (view : Viewpoint) (base : Option Bound) (id : SymbolId) : Except NotALock Bound := do
  let member ← view.symbol id
  if member.isClass then return .type id
  else match member.owner? with
    | none => throw ⟨member.name⟩
    | some owner =>
        return .lock (.select (← view.selectBase base member owner) (.ofSymbol member))

/-- The lock that a bound expression is. A type alone is its class object. -/
def finish (view : Viewpoint) : Bound → Except NotALock LockExpr
  | .lock lock => return lock
  | .type id => return .classLiteral (← view.lockSymbol id)

end Viewpoint
end LockDiscipline
