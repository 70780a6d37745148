import LockDiscipline.Proofs.Tree.Places
/-!
# What a visit comes by

A visit to a body looks at a construct before its parts and does not enter classes, lambdas and the labels
of cases. `mem_exprsIn` tells the expressions that it comes by from the paths to them alone, so what is
collected by a visit can be described without following its recursion.
-/

namespace LockDiscipline

/-- Whether a part is visited with its construct: it belongs to the same code and is not a label. -/
def PartRole.isVisited (role : PartRole) : Bool :=
  role.isInCode && !role.isLabel

/-- An expression lies in a construct, and neither a class nor a lambda nor a label is around it there. -/
def TreeNode.Visits (node : TreeNode) (expr : Expr) : Prop :=
  ∃ path, Within node path (.expr expr) ∧ ∀ step ∈ path, step.role.isVisited

theorem visitedExprs_append (first second : List Expr) :
    visitedExprs (first ++ second) = visitedExprs first ++ visitedExprs second := by
  induction first with
  | nil => rfl
  | cons expr rest ih => simp only [visitedExprs, List.cons_append, ih, List.append_assoc]

theorem visitedExprs_eq (exprs : List Expr) : visitedExprs exprs = exprs.flatMap (·.visited) := by
  induction exprs with
  | nil => rfl
  | cons expr rest ih => rw [visitedExprs, ih, List.flatMap_cons]

theorem visitedOption_eq (expr : Option Expr) : visitedOption expr = visitedExprs expr.toList := by
  cases expr with
  | none => rfl
  | some expr => simp [visitedOption, visitedExprs]

theorem visitedStmts_eq (stmts : List Stmt) : visitedStmts stmts = stmts.flatMap (·.visited) := by
  induction stmts with
  | nil => rfl
  | cons stmt rest ih => rw [visitedStmts, ih, List.flatMap_cons]

theorem visitedCatches_eq (catches : List CatchClause) :
    visitedCatches catches = catches.flatMap fun clause => visitedStmts clause.body := by
  induction catches with
  | nil => rfl
  | cons clause rest ih =>
      obtain ⟨id, types, name, body, span⟩ := clause
      rw [visitedCatches, ih, List.flatMap_cons]

theorem visitedCases_eq (cases : List SwitchCase) :
    visitedCases cases = cases.flatMap fun case => visitedStmts case.body := by
  induction cases with
  | nil => rfl
  | cons case rest ih =>
      obtain ⟨labels, isDefault, body⟩ := case
      rw [visitedCases, ih, List.flatMap_cons]

/-- The expressions among nodes. -/
private def exprsAmong (nodes : List SyntaxNode) : List Expr :=
  nodes.filterMap (·.expr?)

private theorem exprsAmong_append (first second : List SyntaxNode) :
    exprsAmong (first ++ second) = exprsAmong first ++ exprsAmong second :=
  List.filterMap_append

private theorem exprsAmong_flatMap {α : Type} (items : List α) (nodes : α → List SyntaxNode) :
    exprsAmong (items.flatMap nodes) = items.flatMap fun item => exprsAmong (nodes item) :=
  List.filterMap_flatMap ..

private theorem exprsAmong_exprs (exprs : List Expr) : exprsAmong (exprs.map .expr) = exprs := by
  induction exprs with
  | nil => rfl
  | cons expr rest ih => exact congrArg (expr :: ·) ih

private theorem exprsAmong_exprNodes (expr : Option Expr) :
    exprsAmong (exprNodes expr) = visitedExprs expr.toList := by
  rw [exprNodes, exprsAmong_exprs, visitedOption_eq]

namespace TreeNode

/-- The expressions that a visit to a construct comes by. -/
def visitedIn : TreeNode → List Expr
  | .expr node => node.visited
  | .stmt node => exprsAmong node.visited
  | .declarator node => visitedExprs node.init.toList
  | .resource node => node.init.visited
  | .catchClause node => exprsIn node.body
  | .switchCase node => exprsIn node.body
  | .code (.method decl) => exprsIn (decl.body.getD [])
  | .code (.initializer body) => exprsIn body
  | .code (.lambda body) => exprsAmong body.visited
  | .classDecl _ | .member _ | .param _ => []

/-- The expressions in the parts that are visited. -/
def visitedInParts (parts : List Part) : List Expr :=
  parts.flatMap fun part => if part.role.isVisited then part.node.visitedIn else []

private theorem visitedInParts_append (first second : List Part) :
    visitedInParts (first ++ second) = visitedInParts first ++ visitedInParts second :=
  List.flatMap_append

private theorem visitedInParts_map {α : Type} {role : PartRole} (hrole : role.isVisited) (make : α → TreeNode)
    (items : List α) :
    visitedInParts (items.map fun item => ⟨role, make item⟩) =
      items.flatMap fun item => (make item).visitedIn := by
  simp only [visitedInParts, List.flatMap_map, hrole, if_true]

private theorem visitedInParts_eq_nil {parts : List Part} (h : ∀ part ∈ parts, part.role.isVisited = false) :
    visitedInParts parts = [] := by
  refine List.flatMap_eq_nil_iff.mpr fun part hpart => ?_
  rw [h part hpart]
  rfl

private theorem visitedInParts_exprs (role : PartRole) (hrole : role.isVisited) (exprs : List Expr) :
    visitedInParts (exprParts role exprs) = visitedExprs exprs := by
  rw [exprParts, visitedInParts_map hrole, visitedExprs_eq]
  rfl

private theorem visitedInParts_stmts (role : PartRole) (hrole : role.isVisited) (stmts : List Stmt) :
    visitedInParts (stmtParts role stmts) = exprsAmong (visitedStmts stmts) := by
  rw [stmtParts, visitedInParts_map hrole, visitedStmts_eq, exprsAmong_flatMap]
  rfl

private theorem visitedInParts_nested (decls : List ClassDecl) :
    visitedInParts (decls.map nestedPart) = [] := by
  refine visitedInParts_eq_nil fun part hpart => ?_
  obtain ⟨decl, -, rfl⟩ := List.mem_map.mp hpart
  rfl

private theorem visitedInParts_exprKind (kind : ExprKind) : visitedInParts kind.parts = kind.visited := by
  cases kind with
  | call receiver method args =>
      rw [ExprKind.parts, visitedInParts_append, visitedInParts_exprs _ rfl, visitedInParts_exprs _ rfl,
        ExprKind.visited, visitedOption_eq]
  | new type args body =>
      rw [ExprKind.parts, visitedInParts_append, visitedInParts_exprs _ rfl, visitedInParts_nested,
        List.append_nil, ExprKind.visited]
  | newArray element dims init =>
      rw [ExprKind.parts, visitedInParts_append, visitedInParts_exprs _ rfl, visitedInParts_exprs _ rfl]
      cases init <;> simp [ExprKind.visited, visitedExprs]
  | lambda params body => rfl
  | _ =>
      first
      | rfl
      | rw [ExprKind.parts, visitedInParts_exprs _ rfl]; simp [ExprKind.visited, visitedExprs]

private theorem visitedInParts_stmtKind (kind : StmtKind) :
    visitedInParts kind.parts = exprsAmong kind.visited := by
  cases kind with
  | localVars type declarators =>
      rw [StmtKind.parts, visitedInParts_map rfl, StmtKind.visited, exprsAmong_flatMap]
      simp only [exprsAmong_exprNodes, visitedIn]
  | tryCatch resources body catches finallyBody =>
      have hresources : visitedInParts (resources.map fun resource => ⟨.plain, .resource resource⟩) =
          visitedExprs (resources.map (·.init)) := by
        rw [visitedInParts_map rfl, visitedExprs_eq, List.flatMap_map]
        rfl
      have hcatches : visitedInParts
          (catches.map fun clause => ⟨.protectedBy finallyBody, .catchClause clause⟩) =
            exprsAmong (visitedCatches catches) := by
        rw [visitedInParts_map rfl, visitedCatches_eq, exprsAmong_flatMap]
        rfl
      simp only [StmtKind.parts, visitedInParts_append, hresources, hcatches,
        visitedInParts_stmts .plain rfl, visitedInParts_stmts (.protectedBy finallyBody) rfl]
      cases finallyBody with
      | none =>
          simp only [StmtKind.visited, exprsAmong_append, exprsAmong_exprs, Option.getD_none]
          exact List.append_nil _
      | some finallyBody => simp only [StmtKind.visited, exprsAmong_append, exprsAmong_exprs, Option.getD_some]
  | «synchronized» lock body =>
      rw [StmtKind.parts, visitedInParts_append, visitedInParts_exprs _ rfl, visitedInParts_stmts _ rfl,
        StmtKind.visited, exprsAmong_append, exprsAmong_exprs]
      simp [visitedExprs]
  | switch selector cases =>
      rw [StmtKind.parts, visitedInParts_append, visitedInParts_exprs _ rfl, visitedInParts_map rfl,
        StmtKind.visited, exprsAmong_append, exprsAmong_exprs, visitedCases_eq, exprsAmong_flatMap]
      simp [visitedExprs, visitedIn, exprsIn, exprsAmong]
  | ifElse cond whenTrue whenFalse =>
      rw [StmtKind.parts, visitedInParts_append, visitedInParts_exprs _ rfl, visitedInParts_stmts _ rfl]
      cases whenFalse <;>
        simp [StmtKind.visited, exprsAmong_append, exprsAmong_exprs, visitedExprs, visitedStmts]
  | localClass decl => rfl
  | «break» label => rfl
  | «continue» label => rfl
  | empty => rfl
  | _ =>
      simp only [StmtKind.parts, visitedInParts_append, visitedInParts_exprs .plain rfl,
        visitedInParts_stmts .plain rfl]
      simp [StmtKind.visited, exprsAmong_append, exprsAmong_exprs, exprsAmong_exprNodes, visitedExprs,
        visitedStmts]

/-- A visit comes by a construct, if it is an expression, and then by its parts. -/
theorem visitedIn_eq (node : TreeNode) :
    node.visitedIn = node.expr?.toList ++ visitedInParts node.parts := by
  cases node with
  | expr node =>
      obtain ⟨id, kind, span⟩ := node
      rw [parts, visitedInParts_exprKind, visitedIn, Expr.visited]
      rfl
  | stmt node =>
      obtain ⟨id, kind, span⟩ := node
      rw [parts, visitedInParts_stmtKind, visitedIn, Stmt.visited]
      rfl
  | declarator node => exact (visitedInParts_exprs _ rfl _).symm
  | resource node =>
      rw [parts, visitedInParts_exprs _ rfl, visitedIn]
      simp [visitedExprs, expr?]
  | catchClause node => exact (visitedInParts_stmts _ rfl _).symm
  | switchCase node =>
      have hlabels : visitedInParts (exprParts .label node.labels) = [] :=
        visitedInParts_eq_nil (List.forall_mem_map.mpr fun _ _ => rfl)
      rw [parts, visitedInParts_append, hlabels, visitedInParts_stmts _ rfl]
      rfl
  | classDecl _ | member _ | param _ =>
      refine (visitedInParts_eq_nil fun part hpart => ?_).symm
      rw [PartRole.isVisited, isInCode_eq_false rfl hpart, Bool.false_and]
  | code body =>
      cases body with
      | method decl => exact (visitedInParts_stmts _ rfl _).symm
      | initializer body => exact (visitedInParts_stmts _ rfl _).symm
      | lambda body =>
          cases body with
          | expr value =>
              rw [parts, UnitBody.parts, visitedInParts_exprs _ rfl, visitedIn, LambdaBody.visited,
                exprsAmong_exprs]
              simp [visitedExprs, expr?]
          | block body => exact (visitedInParts_stmts _ rfl _).symm

private theorem mem_visitedInParts {parts : List Part} {expr : Expr} :
    expr ∈ visitedInParts parts ↔ ∃ part ∈ parts, part.role.isVisited ∧ expr ∈ part.node.visitedIn := by
  refine List.mem_flatMap.trans (exists_congr fun part => and_congr_right fun _ => ?_)
  cases part.role.isVisited <;> simp

theorem mem_visitedIn {node : TreeNode} {expr : Expr} : expr ∈ node.visitedIn ↔ node.Visits expr := by
  rw [visitedIn_eq, List.mem_append, Option.mem_toList, mem_visitedInParts]
  constructor
  · rintro (hown | ⟨part, hpart, hrole, hinner⟩)
    · obtain rfl := eq_expr_of_expr? hown
      exact ⟨[], .here _, fun _ hstep => absurd hstep List.not_mem_nil⟩
    · have hsize := sizeOf_part_lt hpart
      obtain ⟨index, hindex⟩ := List.mem_iff_getElem?.mp hpart
      obtain ⟨path, hwithin, hpath⟩ := mem_visitedIn.mp hinner
      exact ⟨⟨index, part.role⟩ :: path, .part hindex hwithin, List.forall_mem_cons.mpr ⟨hrole, hpath⟩⟩
  · rintro ⟨path, hwithin, hpath⟩
    cases hwithin with
    | here => exact .inl rfl
    | part hpart hinner =>
        have hmem := List.mem_of_getElem? hpart
        have hsize := sizeOf_part_lt hmem
        obtain ⟨hrole, hpath⟩ := List.forall_mem_cons.mp hpath
        exact .inr ⟨_, hmem, hrole, mem_visitedIn.mpr ⟨_, hinner, hpath⟩⟩
termination_by sizeOf node

end TreeNode

/-- The expressions that a visit to statements comes by are those that lie in one of them with neither a
class nor a lambda nor a label around. -/
theorem mem_exprsIn {body : List Stmt} {expr : Expr} :
    expr ∈ exprsIn body ↔ ∃ stmt ∈ body, (TreeNode.stmt stmt).Visits expr := by
  rw [exprsIn, visitedStmts_eq, List.filterMap_flatMap, List.mem_flatMap]
  refine exists_congr fun stmt => and_congr_right fun _ => ?_
  exact show expr ∈ (TreeNode.stmt stmt).visitedIn ↔ _ from TreeNode.mem_visitedIn

end LockDiscipline
