import LockDiscipline.Check.CodeUnit
import LockDiscipline.Proofs.Tree.Numbers
/-!
# Units of code and their places

The search for units of code is a traversal that carries the class around each construct along. It
does not enter annotations and the labels of cases, and it does not enter a class without a symbol.
So there is one unit of code for each body that it reaches, with the innermost class on the path to
the body.
-/

namespace LockDiscipline

namespace CodeUnits

/-- The class around a part that the search enters. -/
def enterClass (program : Program) (self : SymbolId) : PartRole → Option SymbolId
  | .annotationArg | .label => none
  | .member classNode => program.use? classNode
  | _ => some self

/-- The unit of code whose body stands at a place of a class. -/
def unitAt? (program : Program) (place : Place) : Option CodeUnit := do
  let .code body := place.node | none
  return ⟨body, ← TreeNode.follow (enterClass program) 0 place.path⟩

/-- The class that stands at a place, if the search comes there and the class has a symbol. -/
def classAt? (program : Program) (place : Place) : Option ClassUnit := do
  let .classDecl decl := place.node | none
  let _ ← TreeNode.follow (enterClass program) 0 place.path
  return ⟨decl, ← program.use? decl.id⟩

section Traversal

variable (program : Program)

/-- What the search finds in a construct in code of a class. -/
private def findingsIn (self : SymbolId) : TreeNode → List UnitFinding
  | .expr node => inExpr program self node
  | .stmt node => inStmt program self node
  | .declarator node => inOption program self node.init
  | .resource node => inExpr program self node.init
  | .catchClause node => inStmts program self node.body
  | .switchCase node => inStmts program self node.body
  | .classDecl node => inClass program node
  | .member node => inMember program self node.kind
  | .param _ => []
  | .code (.method decl) => .codeUnit ⟨.method decl, self⟩ :: inMethod program self decl
  | .code (.initializer body) => .codeUnit ⟨.initializer body, self⟩ :: inStmts program self body
  | .code (.lambda body) => .codeUnit ⟨.lambda body, self⟩ :: inLambda program self body

/-- What the search finds at a construct itself. -/
private def ownFindings (self : SymbolId) : TreeNode → List UnitFinding
  | .code body => [.codeUnit ⟨body, self⟩]
  | .classDecl node =>
      match program.use? node.id with
      | none => [.unresolved node.name]
      | some id => [.classUnit ⟨node, id⟩]
  | _ => []

/-- What the search finds in the parts that it enters. -/
private def findingsInParts (self : SymbolId) (parts : List Part) : List UnitFinding :=
  TreeNode.foundInParts (enterClass program) (findingsIn program) self parts

private theorem findingsInParts_append (self : SymbolId) (first second : List Part) :
    findingsInParts program self (first ++ second) =
      findingsInParts program self first ++ findingsInParts program self second :=
  List.flatMap_append

private theorem findingsInParts_map {α : Type} {self inside : SymbolId} (role : PartRole)
    (hrole : enterClass program self role = some inside) (make : α → TreeNode) (items : List α) :
    findingsInParts program self (items.map fun item => ⟨role, make item⟩) =
      items.flatMap fun item => findingsIn program inside (make item) := by
  simp only [findingsInParts, TreeNode.foundInParts, List.flatMap_map, hrole]

private theorem findingsInParts_of_closed {self : SymbolId} {parts : List Part}
    (hclosed : ∀ part ∈ parts, enterClass program self part.role = none) :
    findingsInParts program self parts = [] := by
  refine List.flatMap_eq_nil_iff.mpr fun part hpart => ?_
  rw [hclosed part hpart]

private theorem inExprs_eq (self : SymbolId) (exprs : List Expr) :
    inExprs program self exprs = exprs.flatMap (inExpr program self) := by
  induction exprs with
  | nil => rfl
  | cons expr rest ih => rw [inExprs, ih, List.flatMap_cons]

private theorem inStmts_eq (self : SymbolId) (stmts : List Stmt) :
    inStmts program self stmts = stmts.flatMap (inStmt program self) := by
  induction stmts with
  | nil => rfl
  | cons stmt rest ih => rw [inStmts, ih, List.flatMap_cons]

private theorem inOption_eq (self : SymbolId) (expr : Option Expr) :
    inOption program self expr = expr.toList.flatMap (inExpr program self) := by
  cases expr with
  | none => rfl
  | some expr => exact (List.append_nil _).symm

private theorem inDeclarators_eq (self : SymbolId) (declarators : List Declarator) :
    inDeclarators program self declarators =
      declarators.flatMap fun declarator => inOption program self declarator.init := by
  induction declarators with
  | nil => rfl
  | cons declarator rest ih =>
      obtain ⟨id, name, init, span⟩ := declarator
      rw [inDeclarators, ih, List.flatMap_cons]

private theorem inResources_eq (self : SymbolId) (resources : List Resource) :
    inResources program self resources =
      resources.flatMap fun resource => inExpr program self resource.init := by
  induction resources with
  | nil => rfl
  | cons resource rest ih =>
      obtain ⟨id, type, name, init⟩ := resource
      rw [inResources, ih, List.flatMap_cons]

private theorem inCatches_eq (self : SymbolId) (catches : List CatchClause) :
    inCatches program self catches =
      catches.flatMap fun clause => inStmts program self clause.body := by
  induction catches with
  | nil => rfl
  | cons clause rest ih =>
      obtain ⟨id, types, name, body, span⟩ := clause
      rw [inCatches, ih, List.flatMap_cons]

private theorem inCases_eq (self : SymbolId) (cases : List SwitchCase) :
    inCases program self cases = cases.flatMap fun case => inStmts program self case.body := by
  induction cases with
  | nil => rfl
  | cons case rest ih =>
      obtain ⟨labels, isDefault, body⟩ := case
      rw [inCases, ih, List.flatMap_cons]

private theorem inMembers_eq (self : SymbolId) (members : List Member) :
    inMembers program self members =
      members.flatMap fun member => inMember program self member.kind := by
  induction members with
  | nil => rfl
  | cons member rest ih =>
      obtain ⟨id, kind, span⟩ := member
      rw [inMembers, ih, List.flatMap_cons]

private theorem findingsInParts_exprs {self : SymbolId} (role : PartRole)
    (hrole : enterClass program self role = some self) (exprs : List Expr) :
    findingsInParts program self (exprParts role exprs) = inExprs program self exprs := by
  rw [exprParts, findingsInParts_map program role hrole, inExprs_eq]
  rfl

private theorem findingsInParts_stmts {self : SymbolId} (role : PartRole)
    (hrole : enterClass program self role = some self) (stmts : List Stmt) :
    findingsInParts program self (stmtParts role stmts) = inStmts program self stmts := by
  rw [stmtParts, findingsInParts_map program role hrole, inStmts_eq]
  rfl

private theorem findingsInParts_nested (self : SymbolId) (decls : List ClassDecl) :
    findingsInParts program self (decls.map nestedPart) = decls.flatMap (inClass program) :=
  findingsInParts_map program .nested rfl .classDecl decls

private theorem findingsInParts_modifiers (self : SymbolId) (modifiers : Modifiers) :
    findingsInParts program self modifiers.parts = [] := by
  refine findingsInParts_of_closed program fun part hpart => ?_
  rw [Modifiers.role_eq_of_mem_parts hpart]
  rfl

private theorem findingsInParts_singleton {self inside : SymbolId} (role : PartRole)
    (hrole : enterClass program self role = some inside) (node : TreeNode) :
    findingsInParts program self [⟨role, node⟩] = findingsIn program inside node := by
  simp [findingsInParts, TreeNode.foundInParts, hrole]

private theorem findingsInParts_exprKind (self : SymbolId) (kind : ExprKind) :
    findingsInParts program self kind.parts = inExprKind program self kind := by
  have hexprs (exprs : List Expr) :
      findingsInParts program self (exprParts .plain exprs) = inExprs program self exprs :=
    findingsInParts_exprs program .plain rfl exprs
  cases kind with
  | lambda params body =>
      exact findingsInParts_singleton program .code rfl (.code (.lambda body))
  | call receiver method args =>
      rw [ExprKind.parts, findingsInParts_append, hexprs, hexprs]
      cases receiver <;> simp [inExprKind, inExprs]
  | new type args body =>
      rw [ExprKind.parts, findingsInParts_append, hexprs, findingsInParts_nested]
      cases body <;> simp [inExprKind]
  | newArray element dims init =>
      rw [ExprKind.parts, findingsInParts_append, hexprs, hexprs]
      cases init <;> simp [inExprKind, inExprs]
  | _ =>
      simp only [ExprKind.parts, hexprs]
      first
      | rfl
      | simp [inExprKind, inExprs]

private theorem findingsInParts_stmtKind (self : SymbolId) (id : NodeId) (kind : StmtKind)
    (span : Span) :
    findingsInParts program self kind.parts = inStmt program self ⟨id, kind, span⟩ := by
  have hexprs (exprs : List Expr) :
      findingsInParts program self (exprParts .plain exprs) = inExprs program self exprs :=
    findingsInParts_exprs program .plain rfl exprs
  have hstmts (stmts : List Stmt) :
      findingsInParts program self (stmtParts .plain stmts) = inStmts program self stmts :=
    findingsInParts_stmts program .plain rfl stmts
  cases kind with
  | localVars type declarators =>
      rw [StmtKind.parts, findingsInParts_map program .plain rfl, inStmt,
        inDeclarators_eq]
      rfl
  | ifElse cond whenTrue whenFalse =>
      rw [StmtKind.parts, findingsInParts_append, hexprs, hstmts]
      cases whenFalse <;> simp [inStmt, inStmts, inExprs]
  | tryCatch resources body catches finallyBody =>
      rw [StmtKind.parts, findingsInParts_append, findingsInParts_append, findingsInParts_append,
        findingsInParts_map program .plain rfl, hstmts,
        findingsInParts_stmts program (.protectedBy finallyBody) rfl,
        findingsInParts_map program (.protectedBy finallyBody) rfl]
      have hresources : (resources.flatMap fun resource =>
          findingsIn program self (.resource resource)) = inResources program self resources :=
        (inResources_eq program self resources).symm
      have hcatches : (catches.flatMap fun clause =>
          findingsIn program self (.catchClause clause)) = inCatches program self catches :=
        (inCatches_eq program self catches).symm
      rw [hresources, hcatches]
      cases finallyBody <;> simp [inStmt, inStmts]
  | «synchronized» lock body =>
      rw [StmtKind.parts, findingsInParts_append,
        findingsInParts_exprs program .operand rfl,
        findingsInParts_stmts program (.holding lock) rfl]
      simp [inStmt, inExprs]
  | switch selector cases =>
      rw [StmtKind.parts, findingsInParts_append, hexprs,
        findingsInParts_map program .plain rfl, inStmt, inCases_eq]
      simp [inExprs, findingsIn]
  | localClass decl => exact findingsInParts_singleton program .nested rfl _
  | _ =>
      simp only [StmtKind.parts, findingsInParts_append, hexprs, hstmts]
      first
      | rfl
      | simp [inStmt, inStmts, inExprs, inOption_eq, inExprs_eq]

private theorem findingsInParts_memberKind (self : SymbolId) (kind : MemberKind) :
    findingsInParts program self kind.parts = inMember program self kind := by
  cases kind with
  | field modifiers type declarators =>
      rw [MemberKind.parts, findingsInParts_append, findingsInParts_modifiers,
        findingsInParts_map program .declared rfl, inMember, inDeclarators_eq]
      rfl
  | method decl =>
      have hparams : findingsInParts program self
          (decl.params.map fun param => ⟨.declared, .param param⟩) = [] := by
        rw [findingsInParts_map program .declared rfl]
        exact List.flatMap_eq_nil_iff.mpr fun _ _ => rfl
      rw [MemberKind.parts, findingsInParts_append, findingsInParts_append,
        findingsInParts_modifiers, hparams, findingsInParts_singleton program .code rfl]
      rfl
  | initializer isStatic body =>
      exact findingsInParts_singleton program .code rfl (.code (.initializer body))
  | classDecl decl => exact findingsInParts_singleton program .declared rfl _
  | enumConstant name args body =>
      rw [MemberKind.parts, findingsInParts_append,
        findingsInParts_exprs program .declared rfl, findingsInParts_nested]
      cases body <;> simp [inMember]

private theorem findingsInParts_members (self : SymbolId) (decl : ClassDecl) :
    findingsInParts program self
      (decl.members.map fun member => ⟨.member decl.id, .member member⟩) =
        match program.use? decl.id with
        | some id => inMembers program id decl.members
        | none => [] := by
  cases huse : program.use? decl.id with
  | none =>
      refine findingsInParts_of_closed program fun part hpart => ?_
      obtain ⟨member, -, rfl⟩ := List.mem_map.mp hpart
      exact huse
  | some id =>
      rw [findingsInParts_map program (.member decl.id) huse]
      exact (inMembers_eq program id decl.members).symm

/-- The search finds something of its own at a construct and then goes on to the parts that it
enters. -/
private theorem findingsIn_eq (self : SymbolId) (node : TreeNode) :
    findingsIn program self node =
      ownFindings program self node ++ findingsInParts program self node.parts := by
  have hstmts (stmts : List Stmt) :
      findingsInParts program self (stmtParts .plain stmts) = inStmts program self stmts :=
    findingsInParts_stmts program .plain rfl stmts
  have hexprs (exprs : List Expr) :
      findingsInParts program self (exprParts .plain exprs) = inExprs program self exprs :=
    findingsInParts_exprs program .plain rfl exprs
  cases node with
  | expr node =>
      obtain ⟨id, kind, span⟩ := node
      rw [TreeNode.parts, findingsInParts_exprKind, findingsIn, inExpr]
      rfl
  | stmt node =>
      obtain ⟨id, kind, span⟩ := node
      exact (findingsInParts_stmtKind program self id kind span).symm
  | declarator node =>
      rw [TreeNode.parts, hexprs, findingsIn, inOption_eq, inExprs_eq]
      rfl
  | resource node =>
      rw [TreeNode.parts, hexprs, inExprs_eq, List.flatMap_singleton]
      rfl
  | catchClause node => exact (hstmts node.body).symm
  | switchCase node =>
      have hlabels : findingsInParts program self (exprParts .label node.labels) = [] :=
        findingsInParts_of_closed program fun part hpart => by
          obtain ⟨label, -, rfl⟩ := List.mem_map.mp hpart
          rfl
      rw [TreeNode.parts, findingsInParts_append, hlabels, hstmts]
      rfl
  | classDecl node =>
      rw [TreeNode.parts, findingsInParts_append, findingsInParts_modifiers,
        findingsInParts_members]
      obtain ⟨id, name, kind, modifiers, typeParams, superclass, interfaces, members, span⟩ := node
      simp only [findingsIn, inClass, ownFindings]
      cases program.use? id <;> rfl
  | member node =>
      obtain ⟨id, kind, span⟩ := node
      exact (findingsInParts_memberKind program self kind).symm
  | param node =>
      rw [TreeNode.parts, findingsInParts_modifiers]
      rfl
  | code body =>
      cases body with
      | method decl =>
          obtain ⟨id, name, modifiers, typeParams, returnType, params, throws, body, span⟩ := decl
          rw [TreeNode.parts, UnitBody.parts, hstmts]
          cases body <;> rfl
      | initializer body =>
          rw [TreeNode.parts, UnitBody.parts, hstmts]
          rfl
      | lambda body =>
          cases body with
          | expr value =>
              rw [TreeNode.parts, UnitBody.parts, hexprs, inExprs_eq, List.flatMap_singleton]
              rfl
          | block body =>
              rw [TreeNode.parts, UnitBody.parts, hstmts]
              rfl

private theorem inClass_eq (decl : ClassDecl) :
    inClass program decl = (TreeNode.classDecl decl).places.flatMap
      (TreeNode.foundAt (enterClass program) (ownFindings program) 0) :=
  TreeNode.run_eq_flatMap_places (enterClass program) (ownFindings program) (findingsIn program)
    (findingsIn_eq program) 0 (.classDecl decl)

/-- What is found of one kind is found place by place, if each place tells what is found there. -/
private theorem filterMap_findings {α : Type} (kind? : UnitFinding → Option α) (at? : Place → Option α)
    (hat : ∀ place, (TreeNode.foundAt (enterClass program) (ownFindings program) 0 place).filterMap
      kind? = (at? place).toList) (unit : CompilationUnit) :
    (findings program unit).filterMap kind? =
      unit.types.flatMap fun decl => (TreeNode.classDecl decl).places.filterMap at? := by
  have hclass (decl : ClassDecl) : (inClass program decl).filterMap kind? =
      (TreeNode.classDecl decl).places.filterMap at? := by
    rw [inClass_eq, List.filterMap_flatMap, List.filterMap_eq_flatMap_toList]
    simp only [hat]
  rw [findings, List.filterMap_flatMap]
  simp only [hclass]

/-- The units of code of a compilation unit are found place by place in its classes. -/
theorem bodies_ofUnit (unit : CompilationUnit) :
    (ofUnit program unit).bodies = unit.types.flatMap fun decl =>
      (TreeNode.classDecl decl).places.filterMap (unitAt? program) := by
  refine filterMap_findings program (·.codeUnit?) (unitAt? program) (fun ⟨path, node⟩ => ?_) unit
  rw [TreeNode.foundAt, unitAt?]
  cases hfollow : TreeNode.follow (enterClass program) 0 path with
  | none => cases node <;> rfl
  | some self =>
      cases node with
      | classDecl decl =>
          simp only [ownFindings]
          cases program.use? decl.id <;> rfl
      | _ => rfl

/-- The classes of a compilation unit are found place by place as well. -/
theorem classes_ofUnit (unit : CompilationUnit) :
    (ofUnit program unit).classes = unit.types.flatMap fun decl =>
      (TreeNode.classDecl decl).places.filterMap (classAt? program) := by
  refine filterMap_findings program (·.classUnit?) (classAt? program) (fun ⟨path, node⟩ => ?_) unit
  rw [TreeNode.foundAt, classAt?]
  cases hfollow : TreeNode.follow (enterClass program) 0 path with
  | none => cases node <;> rfl
  | some self =>
      cases node with
      | classDecl decl =>
          simp only [ownFindings]
          cases program.use? decl.id <;> rfl
      | _ => rfl

end Traversal
end CodeUnits
end LockDiscipline
