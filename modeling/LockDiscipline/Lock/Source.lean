import LockDiscipline.Lock.Viewpoint
import LockDiscipline.Syntax.Basic
/-!
# Binding source expressions

An expression of the source is bound through what its names were resolved to. A relative guard is
carried over to the receiver of an access by `LockExpr.rebase`; so the lock that an access requires
is told in terms of the code that accesses.
-/

namespace LockDiscipline

/-- The error for an expression that is no lock: its dotted name, or what kind of expression it
is. -/
def NotALock.ofExpr (expr : Expr) : NotALock :=
  match expr.dottedName? with
  | some name => ⟨name⟩
  | none =>
      match expr.kind with
      | .call _ method _ => ⟨method ++ "(...)"⟩
      | .string text => ⟨"\"" ++ text ++ "\""⟩
      | .int value => ⟨toString value.toInt⟩
      | .new type _ _ => ⟨"new " ++ type ++ "(...)"⟩
      | .qualifiedThis type => ⟨type ++ ".this"⟩
      | .classLiteral type => ⟨type ++ ".class"⟩
      | _ => ⟨"expression"⟩

namespace Viewpoint

/-- What an expression was resolved to. -/
def resolved (view : Viewpoint) (expr : Expr) : Except NotALock SymbolId :=
  match view.program.use? expr.id with
  | some id => .ok id
  | none => .error (.ofExpr expr)

/-- Bind a bare name: a variable is a lock of its own, a member belongs where it is found. -/
def bindSourceName (view : Viewpoint) (expr : Expr) : Except NotALock Bound := do
  let id ← view.resolved expr
  let symbol ← view.symbol id
  if symbol.isVariable then return .lock (.localVar (.ofSymbol symbol))
  else view.select none id

mutual

/-- Bind an expression of the source. Only a call that is itself the access may have arguments. -/
def bindSource (view : Viewpoint) (allowArgs : Bool) : Expr → Except NotALock Bound
  | ⟨_, .paren inner, _⟩ => bindSource view allowArgs inner
  | ⟨_, .this, _⟩ | ⟨_, .super, _⟩ => return .lock .this
  | ⟨id, .qualifiedThis type, span⟩ => do
      return .lock (← view.enclosingInstance (← view.resolved ⟨id, .qualifiedThis type, span⟩))
  | ⟨id, .classLiteral type, span⟩ => do
      let type ← view.resolved ⟨id, .classLiteral type, span⟩
      return .lock (.classLiteral (← view.lockSymbol type))
  | ⟨id, .name name, span⟩ => view.bindSourceName ⟨id, .name name, span⟩
  | ⟨id, .select object name, span⟩ => do
      let member ← view.resolved ⟨id, .select object name, span⟩
      let symbol ← view.symbol member
      if symbol.isClass || symbol.isStatic then view.select none member
      else view.select (some (← bindSource view false object)) member
  | ⟨id, .call receiver method args, span⟩ => do
      if !allowArgs && !args.isEmpty then
        throw (.ofExpr ⟨id, .call receiver method args, span⟩)
      let member ← view.resolved ⟨id, .call receiver method args, span⟩
      if (← view.symbol member).isStatic then view.select none member
      else view.select (← bindReceiver view receiver) member
  | expr => throw (.ofExpr expr)

/-- Bind the receiver of a call, if it has one. -/
def bindReceiver (view : Viewpoint) : Option Expr → Except NotALock (Option Bound)
  | none => return none
  | some receiver => return some (← bindSource view false receiver)

end

/-- The lock that a source expression is, such as the operand of a `synchronized` statement. -/
def bindExpr (view : Viewpoint) (expr : Expr) : Except NotALock LockExpr := do
  view.finish (← view.bindSource false expr)

/-- The lock expression for an access to a member, which may be a call with arguments. -/
def bindAccess (view : Viewpoint) (access : Expr) : Except NotALock LockExpr := do
  view.finish (← view.bindSource true access)

end Viewpoint

namespace LockExpr

/-- The lock with its root `this` replaced by a receiver. Only a relative lock has such a root. -/
def rebase (receiver : LockExpr) : LockExpr → Except NotALock LockExpr
  | .this => .ok receiver
  | .select base member =>
      match rebase receiver base with
      | .ok lock => .ok (.select lock member)
      | .error error => .error error
  | lock => .error ⟨lock.text⟩

end LockExpr

namespace Viewpoint

/-- The lock that an access to a member with the given guard requires. An absolute guard is the same
lock for every access; a relative one is carried over to the receiver of the access. -/
def requiredLock (view : Viewpoint) (guard : LockExpr) (access : Expr) :
    Except NotALock LockExpr := do
  if guard.isRelative then
    match ← view.bindAccess access with
    | .select base _ => LockExpr.rebase base guard
    | other => throw ⟨other.text⟩
  else return guard

end Viewpoint
end LockDiscipline
