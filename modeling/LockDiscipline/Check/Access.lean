import LockDiscipline.Check.CodeUnit
import LockDiscipline.Lock.Guard
import LockDiscipline.Lock.Released
/-!
# Guarded accesses

The analysis of a unit of code follows its statements with the set of locks that are held and finds
every access to a guarded member, with the lock that it requires. A `synchronized` statement adds
its lock for its body; a `try` statement adds the locks that its final block releases for its body
and its handlers. The operand of `synchronized` is evaluated before the lock is taken and is not
analysed.
-/

namespace LockDiscipline

/-- An access to a guarded member: what it requires and what is held. -/
structure Access where
  expr : Expr
  member : NamedSymbol
  required : LockExpr
  held : LockSet

/-- Whether the required lock is held. -/
def Access.isSatisfied (access : Access) : Bool :=
  access.held.contains access.required

/-- What the analysis of a unit meets on its way. -/
inductive ScanStep where
  | access (found : Access)
  /-- An access whose required lock could not be told. -/
  | skipped (member : String) (error : NotALock)
  /-- The operand of a `synchronized` statement is not a lock expression. -/
  | unboundOperand (error : NotALock)
  /-- The calls in a final block that look like releases, and the locks released. -/
  | released (releases : List Release) (locks : LockSet)
  /-- The method has no symbol and so no locks on entry. -/
  | unknownMethod (name : String)
  /-- The guard of the method itself is not a lock expression. -/
  | skippedMethodGuard (name : String) (error : NotALock)

/-- The step as an access. -/
def ScanStep.access? : ScanStep → Option Access
  | .access found => some found
  | _ => none

namespace Viewpoint

/-- Whether an expression of this kind can be an access to a member. -/
def mayAccess : ExprKind → Bool
  | .name _ | .select .. | .call .. => true
  | _ => false

/-- The guarded member that an expression accesses, with the text of its guard. -/
def guardedMember? (view : Viewpoint) (expr : Expr) : Option (NamedSymbol × String) := do
  if mayAccess expr.kind then
    let member ← view.program.usedSymbol? expr.id
    if member.isField || member.isMethod then return (member, ← member.guard) else none
  else none

/-- The lock that an access to a member requires: its guard, bound where the member is declared and
carried over to the access. -/
def lockFor (view : Viewpoint) (access : Expr) (member : NamedSymbol) (guard : String) :
    Except NotALock LockExpr :=
  match view.ofMember? member with
  | none => .error ⟨guard⟩
  | some declaring => do view.requiredLock (← declaring.bindGuard guard) access

/-- What the analysis meets at a single expression. -/
def scanNode (view : Viewpoint) (held : LockSet) (expr : Expr) : List ScanStep :=
  match view.guardedMember? expr with
  | none => []
  | some (member, guard) =>
      match view.lockFor expr member guard with
      | .ok required => [.access ⟨expr, member, required, held⟩]
      | .error error => [.skipped member.name error]

/-- What the analysis meets in expressions, all evaluated with the same locks held. -/
def scanExprs (view : Viewpoint) (held : LockSet) (exprs : List Expr) : List ScanStep :=
  (visitedExprs exprs).flatMap (view.scanNode held)

/-- What the analysis meets in an expression. -/
def scanExpr (view : Viewpoint) (held : LockSet) (expr : Expr) : List ScanStep :=
  view.scanExprs held [expr]

mutual

/-- What the analysis meets in a statement that is reached with locks held. -/
def scanStmt (view : Viewpoint) (held : LockSet) : Stmt → List ScanStep
  | ⟨_, .expr value, _⟩ | ⟨_, .throw value, _⟩ => view.scanExpr held value
  | ⟨_, .localVars _ declarators, _⟩ => view.scanExprs held (declarators.filterMap (·.init))
  | ⟨_, .block body, _⟩ => scanStmts view held body
  | ⟨_, .ifElse cond whenTrue none, _⟩ =>
      view.scanExpr held cond ++ scanStmt view held whenTrue
  | ⟨_, .ifElse cond whenTrue (some whenFalse), _⟩ =>
      view.scanExpr held cond ++ scanStmt view held whenTrue ++ scanStmt view held whenFalse
  | ⟨_, .whileLoop cond body, _⟩ | ⟨_, .doWhile body cond, _⟩ =>
      view.scanExpr held cond ++ scanStmt view held body
  | ⟨_, .forLoop init cond update body, _⟩ =>
      scanStmts view held init ++ view.scanExprs held (cond.toList ++ update) ++
        scanStmt view held body
  | ⟨_, .forEach _ _ iterated body, _⟩ =>
      view.scanExpr held iterated ++ scanStmt view held body
  | ⟨_, .return value, _⟩ => view.scanExprs held value.toList
  | ⟨_, .tryCatch resources body catches none, _⟩ =>
      view.scanExprs held (resources.map (·.init)) ++ scanStmts view held body ++
        scanCatches view held catches
  | ⟨_, .tryCatch resources body catches (some finallyBody), _⟩ =>
      let locks := view.releasedLocks (some finallyBody)
      let inside := held.insertAll locks.toList
      view.scanExprs held (resources.map (·.init)) ++
        .released (view.releases finallyBody) locks :: scanStmts view inside body ++
        scanCatches view inside catches ++ scanStmts view held finallyBody
  | ⟨_, .synchronized lock body, _⟩ =>
      match view.bindExpr lock with
      | .ok lock => scanStmts view (held.insert lock) body
      | .error error => .unboundOperand error :: scanStmts view held body
  | ⟨_, .switch selector cases, _⟩ =>
      view.scanExpr held selector ++ scanCases view held cases
  | ⟨_, .labeled _ body, _⟩ => scanStmt view held body
  | ⟨_, .assert cond message, _⟩ => view.scanExprs held (cond :: message.toList)
  | ⟨_, .localClass _, _⟩ | ⟨_, .break _, _⟩ | ⟨_, .continue _, _⟩ | ⟨_, .empty, _⟩ => []

/-- What the analysis meets in statements. -/
def scanStmts (view : Viewpoint) (held : LockSet) : List Stmt → List ScanStep
  | [] => []
  | stmt :: rest => scanStmt view held stmt ++ scanStmts view held rest

/-- What the analysis meets in handlers. -/
def scanCatches (view : Viewpoint) (held : LockSet) : List CatchClause → List ScanStep
  | [] => []
  | ⟨_, _, _, body, _⟩ :: rest => scanStmts view held body ++ scanCatches view held rest

/-- What the analysis meets in cases, whose labels are not analysed. -/
def scanCases (view : Viewpoint) (held : LockSet) : List SwitchCase → List ScanStep
  | [] => []
  | ⟨_, _, body⟩ :: rest => scanStmts view held body ++ scanCases view held rest

end

/-- The monitor that a method holds on entry because it is declared `synchronized`. -/
def entryMonitor? (view : Viewpoint) (method : NamedSymbol) : Option LockExpr :=
  match method.kind with
  | .method owner true true _ =>
      (view.program.symbol? owner).map fun type => .classLiteral (.ofSymbol type)
  | .method _ false true _ => some .this
  | _ => none

/-- The lock that the guard of a method names. The guard is trusted to be held for its body. -/
def entryGuard? (view : Viewpoint) (method : NamedSymbol) :
    Option (Except NotALock LockExpr) :=
  method.guard.map ((view.ofMember? method).getD view).bindGuard

/-- The locks held on entry to a method, and what was met in finding them. -/
def entryLocks (view : Viewpoint) (decl : MethodDecl) : List ScanStep × LockSet :=
  match view.program.usedSymbol? decl.id with
  | none => ([.unknownMethod decl.name], .empty)
  | some method =>
      let monitors := LockSet.ofList (view.entryMonitor? method).toList
      match view.entryGuard? method with
      | none => ([], monitors)
      | some (.ok lock) => ([], monitors.insert lock)
      | some (.error error) => ([.skippedMethodGuard decl.name error], monitors)

end Viewpoint

namespace CodeUnit

/-- What the analysis of a unit meets, in order. -/
def scan (program : Program) (unit : CodeUnit) : List ScanStep :=
  let view : Viewpoint := ⟨program, unit.self⟩
  match unit.body with
  | .method decl =>
      let (steps, held) := view.entryLocks decl
      steps ++ view.scanStmts held (decl.body.getD [])
  | .initializer body => view.scanStmts .empty body
  | .lambda (.expr value) => view.scanExpr .empty value
  | .lambda (.block body) => view.scanStmts .empty body

/-- The guarded accesses of a unit, in the order in which they are visited. -/
def accesses (program : Program) (unit : CodeUnit) : List Access :=
  (unit.scan program).filterMap (·.access?)

end CodeUnit
end LockDiscipline
