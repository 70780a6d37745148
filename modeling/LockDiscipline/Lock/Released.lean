import LockDiscipline.Lock.Held
import LockDiscipline.Lock.Source
import LockDiscipline.Program.Library
import LockDiscipline.Syntax.Traversal
/-!
# Locks released by a final block

A `try` statement whose final block releases a lock is taken to hold that lock in its body and its
handlers. A release is a call of `unlock` on a lock or of `leave` on a monitor, without arguments.
Releasing one half of a lock for readers and writers releases the lock as well.
-/

namespace LockDiscipline

/-- What a call that looks like a release amounts to. -/
inductive Release where
  /-- The receiver is not a lock expression. -/
  | ignored (method : String)
  | locks (released : List LockExpr)
deriving Repr, Inhabited

/-- The locks that are released. -/
def Release.released : Release → List LockExpr
  | .ignored _ => []
  | .locks released => released

namespace Viewpoint

/-- Whether the static class of a lock inherits from a class of the library. -/
def isA (view : Viewpoint) (lock : LockExpr) (libraryName : String) : Bool :=
  (view.staticClass? lock).any (view.program.isSubtype · libraryName)

/-- Whether a member selects one half of a lock for readers and writers. -/
def selectsHalf (view : Viewpoint) (member : LockSymbol) : Bool :=
  (view.program.symbol? member.id).any fun symbol =>
    symbol.isMethodOfArity 0 && (symbol.name == "readLock" || symbol.name == "writeLock")

/-- The lock of which a lock is one half. -/
def whole? (view : Viewpoint) : LockExpr → Option LockExpr
  | .select base member =>
      if view.selectsHalf member && view.isA base Library.readWriteLockName then some base
      else none
  | _ => none

/-- The library class whose instances a method releases. -/
def releaserOf? (method : String) : Option String :=
  if method == "unlock" then some Library.lockName
  else if method == "leave" then some Library.monitorName
  else none

/-- What a call on a receiver releases, if it looks like a release. -/
def releaseOf? (view : Viewpoint) (receiver : Expr) (method : String) : Option Release := do
  let libraryName ← releaserOf? method
  match view.bindExpr receiver with
  | .error _ => some (.ignored method)
  | .ok lock =>
      if view.isA lock libraryName then some (.locks (lock :: (view.whole? lock).toList)) else none

/-- What an expression releases, if it looks like a release. -/
def releaseAt? (view : Viewpoint) (expr : Expr) : Option Release :=
  match expr.kind with
  | .call (some receiver) method [] => view.releaseOf? receiver method
  | _ => none

/-- The calls in a final block that look like releases. -/
def releases (view : Viewpoint) (finallyBody : List Stmt) : List Release :=
  (exprsIn finallyBody).filterMap view.releaseAt?

/-- The locks that a final block releases, in the order of their discovery. -/
def releasedLocks (view : Viewpoint) (finallyBody : Option (List Stmt)) : LockSet :=
  .ofList ((view.releases (finallyBody.getD [])).flatMap (·.released))

end Viewpoint
end LockDiscipline
