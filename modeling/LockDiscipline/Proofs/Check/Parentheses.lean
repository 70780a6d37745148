import LockDiscipline.Proofs.Check.Monitors
import LockDiscipline.Proofs.Lock.Parentheses
/-!
# Code without extra parentheses

Parentheses around an expression make no difference to the analysis. The units of code without the parentheses
are the same ones, their names refer to the same symbols, their expressions are the same locks, and the same
accesses are met in them in the same order, with the same locks required and held. Two things may change. A
dotted name that is only found as a whole is not found if a part of it stands in parentheses, so that such
parentheses are left out here; and the error for an expression that is no lock may show less of it.
-/

namespace LockDiscipline

/-- A unit of code without extra parentheses. -/
def CodeUnit.strip (extra : NodeId → Bool) (unit : CodeUnit) : CodeUnit :=
  { unit with body := unit.body.strip extra }

/-- A class without extra parentheses. -/
def ClassUnit.strip (extra : NodeId → Bool) (unit : ClassUnit) : ClassUnit :=
  { unit with decl := unit.decl.strip extra }

/-- A finding without extra parentheses. -/
def UnitFinding.strip (extra : NodeId → Bool) : UnitFinding → UnitFinding
  | .classUnit unit => .classUnit (unit.strip extra)
  | .codeUnit unit => .codeUnit (unit.strip extra)
  | .unresolved name => .unresolved name

/-! ### What the search for units finds -/

namespace CodeUnits

variable (program : Program) (extra : NodeId → Bool)

mutual

private theorem inExpr_strip (self : SymbolId) : ∀ expr : Expr,
    inExpr program self (expr.strip extra) = (inExpr program self expr).map (·.strip extra)
  | ⟨id, .paren inner, span⟩ => by
      rw [Expr.strip, ExprKind.strip, Expr.shed, inExpr, inExprKind]
      split <;> exact inExpr_strip self inner
  | ⟨_, .select object _, _⟩ | ⟨_, .unary _ object, _⟩ | ⟨_, .instanceOf object _, _⟩ | ⟨_, .cast _ object, _⟩
  | ⟨_, .methodRef object _, _⟩ => inExpr_strip self object
  | ⟨_, .call none _ args, _⟩ | ⟨_, .new _ args none, _⟩ | ⟨_, .newArray _ args none, _⟩
  | ⟨_, .arrayInit args, _⟩ => inExprs_strip self args
  | ⟨_, .call (some receiver) _ args, _⟩ => by
      simp only [Expr.strip, ExprKind.strip, stripOption, Expr.shed, inExpr, inExprKind,
        inExpr_strip self receiver, inExprs_strip self args, List.map_append]
  | ⟨_, .new _ args (some body), _⟩ => by
      simp only [Expr.strip, ExprKind.strip, stripClass?, Expr.shed, inExpr, inExprKind,
        inExprs_strip self args, inClass_strip body, List.map_append]
  | ⟨_, .newArray _ dims (some items), _⟩ => by
      simp only [Expr.strip, ExprKind.strip, stripExprs?, Expr.shed, inExpr, inExprKind,
        inExprs_strip self dims, inExprs_strip self items, List.map_append]
  | ⟨_, .index left right, _⟩ | ⟨_, .binary _ left right, _⟩ | ⟨_, .assign _ left right, _⟩ => by
      simp only [Expr.strip, ExprKind.strip, Expr.shed, inExpr, inExprKind, inExpr_strip self left,
        inExpr_strip self right, List.map_append]
  | ⟨_, .conditional cond whenTrue whenFalse, _⟩ => by
      simp only [Expr.strip, ExprKind.strip, Expr.shed, inExpr, inExprKind, inExpr_strip self cond,
        inExpr_strip self whenTrue, inExpr_strip self whenFalse, List.map_append]
  | ⟨_, .lambda _ body, _⟩ => congrArg (_ :: ·) (inLambda_strip self body)
  | ⟨_, .int _, _⟩ | ⟨_, .float _, _⟩ | ⟨_, .string _, _⟩ | ⟨_, .char _, _⟩ | ⟨_, .bool _, _⟩
  | ⟨_, .null, _⟩ | ⟨_, .name _, _⟩ | ⟨_, .this, _⟩ | ⟨_, .super, _⟩ | ⟨_, .qualifiedThis _, _⟩
  | ⟨_, .classLiteral _, _⟩ => rfl

private theorem inExprs_strip (self : SymbolId) : ∀ exprs : List Expr,
    inExprs program self (stripExprs extra exprs) = (inExprs program self exprs).map (·.strip extra)
  | [] => rfl
  | expr :: rest => by
      simp only [stripExprs, inExprs, inExpr_strip self expr, inExprs_strip self rest, List.map_append]

private theorem inOption_strip (self : SymbolId) : ∀ expr : Option Expr,
    inOption program self (stripOption extra expr) = (inOption program self expr).map (·.strip extra)
  | none => rfl
  | some expr => inExpr_strip self expr

private theorem inLambda_strip (self : SymbolId) : ∀ body : LambdaBody,
    inLambda program self (body.strip extra) = (inLambda program self body).map (·.strip extra)
  | .expr value => inExpr_strip self value
  | .block body => inStmts_strip self body

private theorem inStmts_strip (self : SymbolId) : ∀ stmts : List Stmt,
    inStmts program self (stripStmts extra stmts) = (inStmts program self stmts).map (·.strip extra)
  | [] => rfl
  | stmt :: rest => by
      simp only [stripStmts, inStmts, inStmt_strip self stmt, inStmts_strip self rest, List.map_append]

private theorem inStmt_strip (self : SymbolId) : ∀ stmt : Stmt,
    inStmt program self (stmt.strip extra) = (inStmt program self stmt).map (·.strip extra)
  | ⟨_, .expr value, _⟩ | ⟨_, .throw value, _⟩ => inExpr_strip self value
  | ⟨_, .localVars _ declarators, _⟩ => inDeclarators_strip self declarators
  | ⟨_, .block body, _⟩ => inStmts_strip self body
  | ⟨_, .ifElse cond whenTrue none, _⟩ => by
      simp only [Stmt.strip, StmtKind.strip, stripStmt?, inStmt, inExpr_strip self cond,
        inStmt_strip self whenTrue, List.map_append]
  | ⟨_, .ifElse cond whenTrue (some whenFalse), _⟩ => by
      simp only [Stmt.strip, StmtKind.strip, stripStmt?, inStmt, inExpr_strip self cond,
        inStmt_strip self whenTrue, inStmt_strip self whenFalse, List.map_append]
  | ⟨_, .whileLoop cond body, _⟩ | ⟨_, .doWhile body cond, _⟩ | ⟨_, .forEach _ _ cond body, _⟩ => by
      simp only [Stmt.strip, StmtKind.strip, inStmt, inExpr_strip self cond, inStmt_strip self body,
        List.map_append]
  | ⟨_, .forLoop init cond update body, _⟩ => by
      simp only [Stmt.strip, StmtKind.strip, inStmt, inStmts_strip self init, inOption_strip self cond,
        inExprs_strip self update, inStmt_strip self body, List.map_append]
  | ⟨_, .return value, _⟩ => inOption_strip self value
  | ⟨_, .tryCatch resources body catches none, _⟩ => by
      simp only [Stmt.strip, StmtKind.strip, stripStmts?, inStmt, inResources_strip self resources,
        inStmts_strip self body, inCatches_strip self catches, List.map_append]
  | ⟨_, .tryCatch resources body catches (some finallyBody), _⟩ => by
      simp only [Stmt.strip, StmtKind.strip, stripStmts?, inStmt, inResources_strip self resources,
        inStmts_strip self body, inCatches_strip self catches, inStmts_strip self finallyBody, List.map_append]
  | ⟨_, .synchronized lock body, _⟩ => by
      simp only [Stmt.strip, StmtKind.strip, inStmt, inExpr_strip self lock, inStmts_strip self body,
        List.map_append]
  | ⟨_, .switch selector cases, _⟩ => by
      simp only [Stmt.strip, StmtKind.strip, inStmt, inExpr_strip self selector, inCases_strip self cases,
        List.map_append]
  | ⟨_, .labeled _ body, _⟩ => inStmt_strip self body
  | ⟨_, .localClass decl, _⟩ => inClass_strip decl
  | ⟨_, .assert cond message, _⟩ => by
      simp only [Stmt.strip, StmtKind.strip, inStmt, inExpr_strip self cond, inOption_strip self message,
        List.map_append]
  | ⟨_, .break _, _⟩ | ⟨_, .continue _, _⟩ | ⟨_, .empty, _⟩ => rfl

private theorem inDeclarators_strip (self : SymbolId) : ∀ declarators : List Declarator,
    inDeclarators program self (stripDeclarators extra declarators) =
      (inDeclarators program self declarators).map (·.strip extra)
  | [] => rfl
  | ⟨_, _, init, _⟩ :: rest => by
      simp only [stripDeclarators, inDeclarators, inOption_strip self init, inDeclarators_strip self rest,
        List.map_append]

private theorem inResources_strip (self : SymbolId) : ∀ resources : List Resource,
    inResources program self (stripResources extra resources) =
      (inResources program self resources).map (·.strip extra)
  | [] => rfl
  | ⟨_, _, _, init⟩ :: rest => by
      simp only [stripResources, inResources, inExpr_strip self init, inResources_strip self rest,
        List.map_append]

private theorem inCatches_strip (self : SymbolId) : ∀ catches : List CatchClause,
    inCatches program self (stripCatches extra catches) =
      (inCatches program self catches).map (·.strip extra)
  | [] => rfl
  | ⟨_, _, _, body, _⟩ :: rest => by
      simp only [stripCatches, inCatches, inStmts_strip self body, inCatches_strip self rest, List.map_append]

private theorem inCases_strip (self : SymbolId) : ∀ cases : List SwitchCase,
    inCases program self (stripCases extra cases) = (inCases program self cases).map (·.strip extra)
  | [] => rfl
  | ⟨_, _, body⟩ :: rest => by
      simp only [stripCases, inCases, inStmts_strip self body, inCases_strip self rest, List.map_append]

private theorem inClass_strip : ∀ decl : ClassDecl,
    inClass program (decl.strip extra) = (inClass program decl).map (·.strip extra)
  | ⟨node, _, _, _, _, _, _, members, _⟩ => by
      rw [ClassDecl.strip, inClass, inClass]
      cases program.use? node with
      | none => rfl
      | some id => exact congrArg (_ :: ·) (inMembers_strip id members)

private theorem inMembers_strip (self : SymbolId) : ∀ members : List Member,
    inMembers program self (stripMembers extra members) = (inMembers program self members).map (·.strip extra)
  | [] => rfl
  | ⟨_, kind, _⟩ :: rest => by
      simp only [stripMembers, inMembers, inMember_strip self kind, inMembers_strip self rest, List.map_append]

private theorem inMember_strip (self : SymbolId) : ∀ kind : MemberKind,
    inMember program self (kind.strip extra) = (inMember program self kind).map (·.strip extra)
  | .field _ _ declarators => inDeclarators_strip self declarators
  | .method decl => congrArg (_ :: ·) (inMethod_strip self decl)
  | .initializer _ body => congrArg (_ :: ·) (inStmts_strip self body)
  | .classDecl decl => inClass_strip decl
  | .enumConstant _ args none => inExprs_strip self args
  | .enumConstant _ args (some body) => by
      simp only [MemberKind.strip, stripClass?, inMember, inExprs_strip self args, inClass_strip body,
        List.map_append]

private theorem inMethod_strip (self : SymbolId) : ∀ decl : MethodDecl,
    inMethod program self (decl.strip extra) = (inMethod program self decl).map (·.strip extra)
  | ⟨_, _, _, _, _, _, _, none, _⟩ => rfl
  | ⟨_, _, _, _, _, _, _, some body, _⟩ => inStmts_strip self body

end

theorem findings_strip (unit : CompilationUnit) :
    findings program (unit.strip extra) = (findings program unit).map (·.strip extra) := by
  simp only [findings, CompilationUnit.strip, List.flatMap_map, List.map_flatMap, inClass_strip]

/-- The units of code are the same ones without extra parentheses. -/
theorem bodies_strip (unit : CompilationUnit) :
    (ofUnit program (unit.strip extra)).bodies = (ofUnit program unit).bodies.map (·.strip extra) := by
  simp only [ofUnit, findings_strip, List.filterMap_map, List.map_filterMap]
  congr 1
  funext finding
  cases finding <;> rfl

theorem classes_strip (unit : CompilationUnit) :
    (ofUnit program (unit.strip extra)).classes = (ofUnit program unit).classes.map (·.strip extra) := by
  simp only [ofUnit, findings_strip, List.filterMap_map, List.map_filterMap]
  congr 1
  funext finding
  cases finding <;> rfl

end CodeUnits

/-! ### What the analysis meets -/

/-- An access without extra parentheses in what is accessed. -/
def Access.strip (extra : NodeId → Bool) (access : Access) : Access :=
  { access with expr := access.expr.strip extra }

/-- The accesses among some steps are those among others without extra parentheses. -/
def ScanStep.Sheds (extra : NodeId → Bool) (steps steps' : List ScanStep) : Prop :=
  steps'.filterMap (·.access?) = (steps.filterMap (·.access?)).map (·.strip extra)

namespace ScanStep.Sheds

variable {extra : NodeId → Bool} {steps steps' more more' : List ScanStep}

theorem nil : Sheds extra [] [] := rfl

theorem append (h : Sheds extra steps steps') (hmore : Sheds extra more more') :
    Sheds extra (steps ++ more) (steps' ++ more') := by
  rw [Sheds, List.filterMap_append, List.filterMap_append, List.map_append, h, hmore]

theorem cons_of_none {step step' : ScanStep} (hstep : step.access? = none) (hstep' : step'.access? = none)
    (h : Sheds extra steps steps') : Sheds extra (step :: steps) (step' :: steps') := by
  rw [Sheds, List.filterMap_cons_none hstep, List.filterMap_cons_none hstep']
  exact h

end ScanStep.Sheds

namespace Viewpoint

open ScanStep (Sheds)

variable (view : Viewpoint) (extra : NodeId → Bool)

theorem scanNode_of_mayAccess_eq_false (held : LockSet) {expr : Expr} (haccess : mayAccess expr.kind = false) :
    view.scanNode held expr = [] := by
  have hmember : view.guardedMember? expr = none := by rw [guardedMember?, haccess]; rfl
  rw [scanNode, hmember]

/-- What can be an access is not in parentheses itself, and it stays. -/
theorem kept?_of_mayAccess {expr : Expr} (haccess : mayAccess expr.kind) :
    expr.kept? extra = some (expr.strip extra) ∧ (expr.strip extra).id = expr.id ∧
      mayAccess (expr.strip extra).kind := by
  obtain ⟨id, kind, span⟩ := expr
  cases kind with
  | name | select | call => exact ⟨rfl, rfl, rfl⟩
  | _ => cases haccess

theorem mayAccess_of_kept? {expr expr' : Expr} (haccess : mayAccess expr.kind = false)
    (hkept : expr.kept? extra = some expr') : mayAccess expr'.kind = false := by
  obtain ⟨id, kind, span⟩ := expr
  cases kind with
  | name | select | call => cases haccess
  | paren inner =>
      rw [Expr.kept?] at hkept
      split at hkept
      · cases hkept
      · obtain rfl := Option.some.inj hkept
        rfl
  | _ =>
      obtain rfl := Option.some.inj hkept
      rfl

theorem sheds_scanNode (held : LockSet) (expr : Expr) :
    Sheds extra (view.scanNode held expr) ((expr.kept? extra).toList.flatMap (view.scanNode held)) := by
  cases haccess : mayAccess expr.kind with
  | false =>
      rw [view.scanNode_of_mayAccess_eq_false held haccess]
      cases hkept : expr.kept? extra with
      | none => exact .nil
      | some expr' =>
          rw [Option.toList_some, List.flatMap_singleton,
            view.scanNode_of_mayAccess_eq_false held (mayAccess_of_kept? extra haccess hkept)]
          exact .nil
  | true =>
      obtain ⟨hkept, hid, haccess'⟩ := kept?_of_mayAccess extra haccess
      have hmember : view.guardedMember? (expr.strip extra) = view.guardedMember? expr := by
        rw [guardedMember?, haccess', hid, guardedMember?, haccess]
      rw [hkept, Option.toList_some, List.flatMap_singleton, scanNode, scanNode, hmember]
      rcases view.guardedMember? expr with _ | ⟨member, guard⟩
      · exact .nil
      · have hlock := view.blurs_lockFor extra expr member guard
        dsimp only
        generalize view.lockFor expr member guard = bound,
          view.lockFor (expr.strip extra) member guard = bound' at hlock ⊢
        cases hlock with
        | refl => cases bound <;> rfl
        | hidden hname => rfl

theorem sheds_scanExprs (held : LockSet) (exprs : List Expr) :
    Sheds extra (view.scanExprs held exprs) (view.scanExprs held (stripExprs extra exprs)) := by
  rw [scanExprs, scanExprs, visited_strip_exprs]
  induction visitedExprs exprs with
  | nil => exact .nil
  | cons expr rest ih =>
      have hrest : ((expr :: rest).filterMap (·.kept? extra)).flatMap (view.scanNode held) =
          (expr.kept? extra).toList.flatMap (view.scanNode held) ++
            (rest.filterMap (·.kept? extra)).flatMap (view.scanNode held) := by
        cases hkept : expr.kept? extra <;> simp [hkept]
      rw [List.flatMap_cons, hrest]
      exact (view.sheds_scanNode extra held expr).append ih

theorem sheds_scanExpr (held : LockSet) (expr : Expr) :
    Sheds extra (view.scanExpr held expr) (view.scanExpr held (expr.strip extra)) :=
  view.sheds_scanExprs extra held [expr]

mutual

/-- The same accesses are met in a statement without extra parentheses. -/
theorem sheds_scanStmt (held : LockSet) : ∀ stmt : Stmt,
    Sheds extra (view.scanStmt held stmt) (view.scanStmt held (stmt.strip extra))
  | ⟨_, .expr value, _⟩ | ⟨_, .throw value, _⟩ => view.sheds_scanExpr extra held value
  | ⟨_, .localVars _ declarators, _⟩ => by
      rw [Stmt.strip, StmtKind.strip, scanStmt, scanStmt, stripDeclarators_init]
      exact view.sheds_scanExprs extra held _
  | ⟨_, .block body, _⟩ => sheds_scanStmts held body
  | ⟨_, .ifElse cond whenTrue none, _⟩ =>
      (view.sheds_scanExpr extra held cond).append (sheds_scanStmt held whenTrue)
  | ⟨_, .ifElse cond whenTrue (some whenFalse), _⟩ =>
      ((view.sheds_scanExpr extra held cond).append (sheds_scanStmt held whenTrue)).append
        (sheds_scanStmt held whenFalse)
  | ⟨_, .whileLoop cond body, _⟩ | ⟨_, .doWhile body cond, _⟩ | ⟨_, .forEach _ _ cond body, _⟩ =>
      (view.sheds_scanExpr extra held cond).append (sheds_scanStmt held body)
  | ⟨_, .forLoop init cond update body, _⟩ => by
      have hheader : (stripOption extra cond).toList ++ stripExprs extra update =
          stripExprs extra (cond.toList ++ update) := by
        cases cond <;> rfl
      rw [Stmt.strip, StmtKind.strip, scanStmt, scanStmt, hheader]
      exact ((sheds_scanStmts held init).append (view.sheds_scanExprs extra held _)).append
        (sheds_scanStmt held body)
  | ⟨_, .return value, _⟩ => by
      have hvalue : (stripOption extra value).toList = stripExprs extra value.toList := by
        cases value <;> rfl
      rw [Stmt.strip, StmtKind.strip, scanStmt, scanStmt, hvalue]
      exact view.sheds_scanExprs extra held _
  | ⟨_, .tryCatch resources body catches none, _⟩ => by
      rw [Stmt.strip, StmtKind.strip, stripStmts?, scanStmt, scanStmt, stripResources_init]
      exact ((view.sheds_scanExprs extra held _).append (sheds_scanStmts held body)).append
        (sheds_scanCatches held catches)
  | ⟨_, .tryCatch resources body catches (some finallyBody), _⟩ => by
      have hlocks := view.releasedLocks_strip extra (some finallyBody)
      rw [stripStmts?] at hlocks
      simp only [Stmt.strip, StmtKind.strip, stripStmts?, scanStmt, stripResources_init, hlocks]
      exact (((view.sheds_scanExprs extra held _).append
        (.cons_of_none rfl rfl (sheds_scanStmts _ body))).append (sheds_scanCatches _ catches)).append
          (sheds_scanStmts held finallyBody)
  | ⟨_, .synchronized lock body, _⟩ => by
      have hlock := view.blurs_bindExpr extra lock
      rw [Stmt.strip, StmtKind.strip, scanStmt, scanStmt]
      generalize view.bindExpr lock = bound, view.bindExpr (lock.strip extra) = bound' at hlock ⊢
      cases hlock with
      | refl =>
          cases bound with
          | ok lock => exact sheds_scanStmts (held.insert lock) body
          | error error => exact .cons_of_none rfl rfl (sheds_scanStmts held body)
      | hidden hname => exact .cons_of_none rfl rfl (sheds_scanStmts held body)
  | ⟨_, .switch selector cases, _⟩ =>
      (view.sheds_scanExpr extra held selector).append (sheds_scanCases held cases)
  | ⟨_, .labeled _ body, _⟩ => sheds_scanStmt held body
  | ⟨_, .assert cond message, _⟩ => by
      have hparts : cond.strip extra :: (stripOption extra message).toList =
          stripExprs extra (cond :: message.toList) := by
        cases message <;> rfl
      rw [Stmt.strip, StmtKind.strip, scanStmt, scanStmt, hparts]
      exact view.sheds_scanExprs extra held _
  | ⟨_, .localClass _, _⟩ | ⟨_, .break _, _⟩ | ⟨_, .continue _, _⟩ | ⟨_, .empty, _⟩ => .nil

theorem sheds_scanStmts (held : LockSet) : ∀ stmts : List Stmt,
    Sheds extra (view.scanStmts held stmts) (view.scanStmts held (stripStmts extra stmts))
  | [] => .nil
  | stmt :: rest => (sheds_scanStmt held stmt).append (sheds_scanStmts held rest)

theorem sheds_scanCatches (held : LockSet) : ∀ catches : List CatchClause,
    Sheds extra (view.scanCatches held catches) (view.scanCatches held (stripCatches extra catches))
  | [] => .nil
  | ⟨_, _, _, body, _⟩ :: rest => (sheds_scanStmts held body).append (sheds_scanCatches held rest)

theorem sheds_scanCases (held : LockSet) : ∀ cases : List SwitchCase,
    Sheds extra (view.scanCases held cases) (view.scanCases held (stripCases extra cases))
  | [] => .nil
  | ⟨_, _, body⟩ :: rest => (sheds_scanStmts held body).append (sheds_scanCases held rest)

end

end Viewpoint

namespace CodeUnit

variable (program : Program) (extra : NodeId → Bool)

/-- The same accesses are met in a unit of code without extra parentheses. -/
theorem accesses_strip (unit : CodeUnit) :
    (unit.strip extra).accesses program = (unit.accesses program).map (·.strip extra) := by
  obtain ⟨body, self⟩ := unit
  let view : Viewpoint := ⟨program, self⟩
  cases body with
  | method decl =>
      obtain ⟨id, name, modifiers, typeParams, returnType, params, throws, body, span⟩ := decl
      let decl : MethodDecl := ⟨id, name, modifiers, typeParams, returnType, params, throws, body, span⟩
      have hentry : ScanStep.Sheds extra (view.entryLocks decl).1 (view.entryLocks (decl.strip extra)).1 := by
        change ScanStep.Sheds extra (view.entryLocks decl).1 (view.entryLocks decl).1
        rw [Viewpoint.entryLocks]
        split
        · rfl
        · split <;> rfl
      have hbody : (decl.strip extra).body.getD [] = stripStmts extra (decl.body.getD []) := by
        cases body <;> rfl
      have hscan := hentry.append (view.sheds_scanStmts extra (view.entryLocks decl).2 (decl.body.getD []))
      rw [← hbody] at hscan
      exact hscan
  | initializer body => exact view.sheds_scanStmts extra .empty body
  | lambda body =>
      cases body with
      | expr value => exact view.sheds_scanExpr extra .empty value
      | block body => exact view.sheds_scanStmts extra .empty body

end CodeUnit

/-! ### Two programs -/

/-- What is told of an access: what is accessed, the lock that this requires and the locks that are held. -/
def Access.told (access : Access) : Expr × LockExpr × LockSet :=
  (access.expr, access.required, access.held)

/-- Which units of code there are depends on a program only by what the nodes refer to. -/
theorem CodeUnits.ofUnit_congr {program program' : Program}
    (huse : ∀ node, program'.use? node = program.use? node) (unit : CompilationUnit) :
    ofUnit program' unit = ofUnit program unit := by
  have henter : enterClass program' = enterClass program := by
    funext self role
    cases role <;> first | rfl | exact huse _
  have hbodies : (ofUnit program' unit).bodies = (ofUnit program unit).bodies := by
    have hunit : unitAt? program' = unitAt? program := by
      funext place
      simp only [unitAt?, henter]
    rw [bodies_ofUnit, bodies_ofUnit, hunit]
  have hclasses : (ofUnit program' unit).classes = (ofUnit program unit).classes := by
    have hclass : classAt? program' = classAt? program := by
      funext place
      simp only [classAt?, henter, huse]
    rw [classes_ofUnit, classes_ofUnit, hclass]
  exact congrArg₂ CodeUnits.mk hclasses hbodies

section Twins

variable {retouch : Retouch} {program program' other : Program}
  (h : program.Matches retouch.span other) (h' : program'.Matches retouch.span other)
include h h'

/-- Of two programs that match a third one, what is told of the accesses in one unit of code is the same if it
holds the same locks on entry. -/
theorem CodeUnit.told_accesses_eq [retouch.KeepsNames] (unit : CodeUnit)
    (hentry : unit.entryLocks program' = unit.entryLocks program) :
    (unit.accesses program').map (·.told) = (unit.accesses program).map (·.told) := by
  have hview := unit.view_retouch h
  have hview' := unit.view_retouch h'
  rw [accesses_eq_filterMap_sites, accesses_eq_filterMap_sites, List.map_filterMap, List.map_filterMap]
  congr 1
  funext ⟨path, node⟩
  cases node with
  | expr expr =>
      have hheld := hview.heldAlong_eq (unit.entryLocks program) path
      rw [hview'.heldAlong_eq] at hheld
      simp only [accessAt?, hentry]
      rcases hview.guardedMember?_cases expr with
        ⟨hnone, hother⟩ | ⟨member, otherMember, guard, hsome, hother, hmember⟩ <;>
      rcases hview'.guardedMember?_cases expr with
        ⟨hnone', hother'⟩ | ⟨member', otherMember', guard', hsome', hother', hmember'⟩
      · rw [hnone, hnone']
        rfl
      · cases hother.symm.trans hother'
      · cases hother.symm.trans hother'
      · obtain ⟨rfl, rfl⟩ := Prod.mk.inj (Option.some.inj (hother.symm.trans hother'))
        have hlock := (hview'.lockFor_eq expr hmember' guard).symm.trans (hview.lockFor_eq expr hmember guard)
        simp only [hsome, hsome', Option.bind_eq_bind, Option.bind_some, hlock]
        cases (Viewpoint.lockFor (unit.view program) expr member guard).toOption with
        | none => rfl
        | some required => simp [Access.told, hheld]
  | _ => rfl

theorem Program.isMethod_usedSymbol?_eq {node : NodeId} {symbol symbol' : NamedSymbol}
    (hsymbol : program.usedSymbol? node = some symbol) (hsymbol' : program'.usedSymbol? node = some symbol') :
    symbol'.isMethod = symbol.isMethod := by
  have hview : Viewpoint.Matches retouch.span ⟨program, 0⟩ ⟨other, 0⟩ := ⟨h, rfl⟩
  have hview' : Viewpoint.Matches retouch.span ⟨program', 0⟩ ⟨other, 0⟩ := ⟨h', rfl⟩
  obtain ⟨hnone, -⟩ | ⟨_, _, otherSymbol, -, hused, hother, hmatches⟩ := hview.usedSymbol?_cases node
  · cases hsymbol.symm.trans hnone
  obtain ⟨hnone, -⟩ | ⟨_, _, otherSymbol', -, hused', hother', hmatches'⟩ := hview'.usedSymbol?_cases node
  · cases hsymbol'.symm.trans hnone
  obtain rfl := Option.some.inj (hsymbol.symm.trans hused)
  obtain rfl := Option.some.inj (hsymbol'.symm.trans hused')
  obtain rfl := Option.some.inj (hother.symm.trans hother')
  rw [← hmatches.isMethod_eq, hmatches'.isMethod_eq]

end Twins

/-! ### Extra parentheses -/

theorem Retouch.regular_blank : Retouch.blank.Regular :=
  fun _ _ => rfl

theorem CompilationUnit.matches_blank (unit : CompilationUnit) :
    (Program.ofUnit unit).Matches Retouch.blank.span (.ofUnit (unit.retouch .blank)) :=
  Program.matches_ofUnit Retouch.regular_blank unit

theorem mem_stripMembers (extra : NodeId → Bool) {members : List Member} {number : NodeId} {kind : MemberKind}
    {span : Span} (h : ⟨number, kind, span⟩ ∈ members) :
    ⟨number, kind.strip extra, span⟩ ∈ stripMembers extra members := by
  induction members with
  | nil => cases h
  | cons member rest ih =>
      obtain ⟨id, inner, place⟩ := member
      rw [stripMembers]
      rcases List.mem_cons.mp h with hfirst | hrest
      · obtain ⟨rfl, rfl, rfl⟩ := Member.mk.inj hfirst
        exact List.mem_cons_self
      · exact List.mem_cons_of_mem _ (ih hrest)

/-- The second unit is the first one with extra parentheses put around expressions, under numbers of their own,
and no name that these hide is found as a whole in the first one. -/
structure CompilationUnit.Parenthesized (extra : NodeId → Bool) (unit unit' : CompilationUnit) : Prop where
  strip_eq : unit'.strip extra = unit
  nodup : unit.numbers.Nodup
  nodup' : unit'.numbers.Nodup
  spared : ∀ decl ∈ unit'.types,
    (TreeNode.classDecl decl).HidesOnly extra fun node => ¬(Program.draftOf unit).NamesWhole node

namespace CompilationUnit.Parenthesized

variable {extra : NodeId → Bool} {unit unit' : CompilationUnit} (h : unit.Parenthesized extra unit')
include h

/-- Up to places, both programs are the same one. -/
theorem matches_blank : (Program.ofUnit unit').Matches Retouch.blank.span (.ofUnit (unit.retouch .blank)) := by
  have hdraft := Program.matches_draftOf Retouch.regular_blank unit
  have hstrip : (unit'.retouch .blank).strip extra = unit.retouch .blank := by
    rw [CompilationUnit.strip_retouch, h.strip_eq]
  let shedding : Shedding :=
    { retouch := .blank
      extra
      hidden node := ¬(Program.draftOf unit).NamesWhole node
      span_strip := Retouch.span_strip_blank extra }
  have hnames : shedding.retouch.KeepsNames := Retouch.keepsNames_blank
  have hspared (node : NodeId) (hnode : shedding.hidden node) :
      ¬(Program.draftOf ((unit'.retouch .blank).strip extra)).NamesWhole node := by
    rintro ⟨hreceiver, huse⟩
    rw [hstrip] at hreceiver huse
    rw [hdraft.receivers] at hreceiver
    rw [hdraft.program.use?_eq] at huse
    exact hnode ⟨hreceiver, huse⟩
  have hadmits : ∀ decl ∈ unit'.types, shedding.Admits (.classDecl decl) :=
    fun decl hdecl => ⟨h.spared decl hdecl, fun _ _ _ _ _ => trivial⟩
  have hmatches := Program.matches_ofUnit_strip Retouch.regular_blank unit' hadmits hspared
  rwa [hstrip] at hmatches

/-- Every node refers to what it refers to without extra parentheses. -/
theorem use?_eq (node : NodeId) : (Program.ofUnit unit').use? node = (Program.ofUnit unit).use? node := by
  rw [← h.matches_blank.use?_eq, unit.matches_blank.use?_eq]

theorem bodies_eq : unit.bodies = unit'.bodies.map (·.strip extra) := by
  rw [CompilationUnit.bodies, ← CodeUnits.ofUnit_congr h.use?_eq, ← h.strip_eq, CodeUnits.bodies_strip]
  rfl

theorem classes_eq : (CodeUnits.ofUnit (.ofUnit unit) unit).classes =
    (CodeUnits.ofUnit (.ofUnit unit') unit').classes.map (·.strip extra) := by
  rw [← CodeUnits.ofUnit_congr h.use?_eq, ← h.strip_eq, CodeUnits.classes_strip]

/-- A method takes its monitor if it does so without extra parentheses. -/
theorem isSynchronized_eq {visiting : CodeUnit} (hvisiting : visiting ∈ unit'.bodies) {decl : MethodDecl}
    (hbody : visiting.body = .method decl) {method method' : NamedSymbol}
    (hmethod : (Program.ofUnit unit).usedSymbol? decl.id = some method)
    (hmethod' : (Program.ofUnit unit').usedSymbol? decl.id = some method')
    (hkind : method'.isMethod = method.isMethod) : method'.isSynchronized = method.isSynchronized := by
  obtain ⟨declaring, hdeclaring, ⟨number, kind, span⟩, hmember, rfl⟩ :=
    CompilationUnit.exists_declaring_of_mem_bodies hvisiting hbody
  have hdeclaring' : declaring.strip extra ∈ (CodeUnits.ofUnit (.ofUnit unit) unit).classes := by
    rw [h.classes_eq]
    exact List.mem_map_of_mem hdeclaring
  have hmember' : (⟨number, .method (decl.strip extra), span⟩ : Member) ∈ (declaring.strip extra).decl.members := by
    rw [ClassUnit.strip, ClassDecl.members_strip]
    exact mem_stripMembers extra hmember
  obtain ⟨id', symbol', huse', hsymbol', -, -, hflag', -⟩ :=
    CompilationUnit.carries_of_mem_classes h.nodup' hdeclaring hmember (List.mem_singleton_self _)
  obtain ⟨id, symbol, huse, hsymbol, -, -, hflag, -⟩ :=
    CompilationUnit.carries_of_mem_classes h.nodup hdeclaring' hmember' (List.mem_singleton_self _)
  have hsymbol : method = symbol := by
    rw [MethodDecl.id_strip] at huse
    rw [Program.usedSymbol?, huse, Option.bind_some, hsymbol] at hmethod
    exact (Option.some.inj hmethod).symm
  have hsymbol' : method' = symbol' := by
    rw [Program.usedSymbol?, huse', Option.bind_some, hsymbol'] at hmethod'
    exact (Option.some.inj hmethod').symm
  rw [hsymbol, hsymbol'] at hkind ⊢
  rw [hflag', hflag, hkind, MethodDecl.modifiers_strip, ClassUnit.strip, ClassDecl.kind_strip]

/-- A unit of code holds the same locks on entry without extra parentheses. -/
theorem entryLocks_eq {visiting : CodeUnit} (hvisiting : visiting ∈ unit'.bodies) :
    (visiting.strip extra).entryLocks (.ofUnit unit') = (visiting.strip extra).entryLocks (.ofUnit unit) := by
  have hvisiting' : visiting.strip extra ∈ unit.bodies := by
    rw [h.bodies_eq]
    exact List.mem_map_of_mem hvisiting
  have hentry := CompilationUnit.entryLocks_retouch h.nodup Retouch.regular_blank hvisiting' fun _ _ => rfl
  rw [← hentry]
  have hview := (visiting.strip extra).view_retouch unit.matches_blank
  have hview' := (visiting.strip extra).view_retouch h.matches_blank
  obtain ⟨body, self⟩ := visiting
  cases body with
  | initializer body | lambda body => rfl
  | method decl =>
      symm
      apply hview'.entryLocks_eq (decl.strip extra)
      intro method' other hmethod' hother
      obtain ⟨inInterface, method, other', hmethod, hother', hflag, hflag'⟩ :=
        CompilationUnit.exists_monitors h.nodup Retouch.regular_blank hvisiting' rfl
      obtain rfl := Option.some.inj (hother.symm.trans hother')
      have hkind : method'.isMethod = method.isMethod :=
        Program.isMethod_usedSymbol?_eq unit.matches_blank h.matches_blank hmethod hmethod'
      rw [MethodDecl.id_strip] at hmethod hmethod'
      rw [h.isSynchronized_eq hvisiting rfl hmethod hmethod' hkind]
      exact hflag'.trans hflag.symm

/-- The same is told of the accesses in a unit of code. -/
theorem told_accesses_eq {visiting : CodeUnit} (hvisiting : visiting ∈ unit'.bodies) :
    ((visiting.strip extra).accesses (.ofUnit unit)).map (·.told) =
      (visiting.accesses (.ofUnit unit')).map fun access => (access.strip extra).told := by
  have htold := CodeUnit.told_accesses_eq unit.matches_blank h.matches_blank _
    (h.entryLocks_eq hvisiting)
  rw [← htold, CodeUnit.accesses_strip, List.map_map]
  rfl

end CompilationUnit.Parenthesized

open NotALock (Blurs) in
/-- Parentheses are transparent. With extra parentheses put around expressions, every node refers to what it
referred to, every expression is the lock that it was and requires the lock that it required, and in every unit
of code the same is told of the accesses. Only an error may show less of its expression. -/
theorem CompilationUnit.parentheses_transparent {extra : NodeId → Bool} {unit unit' : CompilationUnit}
    (h : unit.Parenthesized extra unit') :
    (∀ node, (Program.ofUnit unit').use? node = (Program.ofUnit unit).use? node) ∧
      (∀ (self : SymbolId) (expr : Expr),
        let view : Viewpoint := ⟨.ofUnit unit, self⟩
        let view' : Viewpoint := ⟨.ofUnit unit', self⟩
        Blurs extra (view'.bindExpr expr) (view.bindExpr (expr.strip extra)) ∧
          ∀ guard, Blurs extra (view'.requiredLock guard expr) (view.requiredLock guard (expr.strip extra))) ∧
      unit.bodies = unit'.bodies.map (·.strip extra) ∧
      ∀ visiting ∈ unit'.bodies,
        ((visiting.strip extra).accesses (.ofUnit unit)).map (·.told) =
          (visiting.accesses (.ofUnit unit')).map fun access => (access.strip extra).told := by
  refine ⟨h.use?_eq, fun self expr => ?_, h.bodies_eq, fun _ => h.told_accesses_eq⟩
  let other : Viewpoint := ⟨.ofUnit (unit.retouch .blank), self⟩
  have hview : Viewpoint.Matches Retouch.blank.span ⟨.ofUnit unit, self⟩ other := ⟨unit.matches_blank, rfl⟩
  have hview' : Viewpoint.Matches Retouch.blank.span ⟨.ofUnit unit', self⟩ other := ⟨h.matches_blank, rfl⟩
  refine ⟨?_, fun guard => ?_⟩
  · rw [← hview'.bindExpr_eq, hview.bindExpr_eq]
    exact Viewpoint.blurs_bindExpr _ extra expr
  · rw [← hview'.requiredLock_eq, hview.requiredLock_eq]
    exact Viewpoint.blurs_requiredLock _ extra guard expr

/-- Some parentheses in a source are extra if the code without them keeps its numbers apart and finds none of
the names that they hide as a whole. -/
theorem ParsedUnit.parenthesized_ofSource {source : List Char} {extra : NodeId → Bool}
    (hnodup : ((ofSource source).unit.strip extra).numbers.Nodup)
    (hspared : ∀ decl ∈ (ofSource source).unit.types, ∀ node ∈ (TreeNode.classDecl decl).hiding extra,
      ¬(Program.draftOf ((ofSource source).unit.strip extra)).NamesWhole node) :
    ((ofSource source).unit.strip extra).Parenthesized extra (ofSource source).unit where
  strip_eq := rfl
  nodup := hnodup
  nodup' := nodup_numbers_ofTokens (Lexer.tokenize source).tokens
  spared decl hdecl := .of_hiding (hspared decl hdecl)

/-- Code with parentheses around a lock, around the receiver of an access and around a value. -/
def parenthesizedSource : List Char :=
  ("class A \x7b @GuardedBy(\"this\") int x; A o; " ++
    "void f() \x7b synchronized ((o)) \x7b (o).x = (1); \x7d \x7d \x7d").toList

theorem CompilationUnit.parentheses_transparent_parenthesizedSource :
    let extra : NodeId → Bool := fun id => [8, 10, 13].contains id
    let unit' := (ParsedUnit.ofSource parenthesizedSource).unit
    let unit := unit'.strip extra
    unit.Parenthesized extra unit' ∧ ∀ visiting ∈ unit'.bodies,
      ((visiting.strip extra).accesses (.ofUnit unit)).map (·.told) =
        (visiting.accesses (.ofUnit unit')).map fun access => (access.strip extra).told := by
  intro extra unit' unit
  have hunit : unit.numbers.Nodup ∧ ∀ decl ∈ unit'.types, ∀ node ∈ (TreeNode.classDecl decl).hiding extra,
      ¬(Program.draftOf unit).NamesWhole node := by
    decide +kernel
  have h : unit.Parenthesized extra unit' := ParsedUnit.parenthesized_ofSource hunit.1 hunit.2
  exact ⟨h, (parentheses_transparent h).2.2.2⟩

/-- A selection from a name in parentheses that is no lock. -/
def hiddenNameSource : List Char :=
  "class A \x7b void f() \x7b synchronized ((a).b) \x7b \x7d \x7d \x7d".toList

/-- Which expression an error shows is not the same with extra parentheses. -/
theorem CompilationUnit.bindExpr_hiddenNameSource :
    let extra : NodeId → Bool := fun id => id == 3
    let unit' := (ParsedUnit.ofSource hiddenNameSource).unit
    let unit := unit'.strip extra
    unit.Parenthesized extra unit' ∧ ∃ visiting ∈ unit'.bodies, ∃ expr ∈ visiting.visited.filterMap (·.expr?),
      (⟨.ofUnit unit', visiting.self⟩ : Viewpoint).bindExpr expr = .error ⟨"expression"⟩ ∧
        (⟨.ofUnit unit, visiting.self⟩ : Viewpoint).bindExpr (expr.strip extra) = .error ⟨"a.b"⟩ := by
  intro extra unit' unit
  have hunit : unit.numbers.Nodup ∧ ∀ decl ∈ unit'.types, ∀ node ∈ (TreeNode.classDecl decl).hiding extra,
      ¬(Program.draftOf unit).NamesWhole node := by
    decide +kernel
  refine ⟨ParsedUnit.parenthesized_ofSource hunit.1 hunit.2, ?_⟩
  decide +kernel

end LockDiscipline
