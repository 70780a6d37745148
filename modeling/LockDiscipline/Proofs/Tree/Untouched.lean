import LockDiscipline.Proofs.Tree.Retouch
import LockDiscipline.Proofs.Tree.Spans
/-!
# Trees that a retouch leaves alone

A retouch that changes no keywords and leaves every span in a tree where it is leaves the tree as it is. The
induction is on parts: a construct is put together from them and from its own spans. A body of code is the
exception. The parts of the body of a method say nothing of the modifiers of the method, so for a body only
its parts are compared, and the member that the body belongs to accounts for the rest.
-/

namespace LockDiscipline

namespace Retouch

/-- A retouch moves neither a construct itself nor the annotations on it. -/
structure Spares (retouch : Retouch) (node : TreeNode) : Prop where
  own : ∀ span ∈ node.ownSpans, retouch.span span = span
  annotation : ∀ use ∈ node.annotations, retouch.span use.span = use.span

end Retouch

namespace TreeNode

/-- A construct is what it becomes by a retouch; of a body of code its parts are. -/
def Untouched (retouch : Retouch) : TreeNode → Prop
  | .code body => ∀ part ∈ body.parts, part.node.retouch retouch = part.node
  | node => node.retouch retouch = node

section

variable {retouch : Retouch}

@[simp] theorem untouched_expr {node : Expr} :
    (TreeNode.expr node).Untouched retouch ↔ node.retouch retouch = node := by
  simp [Untouched, TreeNode.retouch]

@[simp] theorem untouched_stmt {node : Stmt} :
    (TreeNode.stmt node).Untouched retouch ↔ node.retouch retouch = node := by
  simp [Untouched, TreeNode.retouch]

@[simp] theorem untouched_declarator {node : Declarator} :
    (TreeNode.declarator node).Untouched retouch ↔ node.retouch retouch = node := by
  simp [Untouched, TreeNode.retouch]

@[simp] theorem untouched_resource {node : Resource} :
    (TreeNode.resource node).Untouched retouch ↔ node.retouch retouch = node := by
  simp [Untouched, TreeNode.retouch]

@[simp] theorem untouched_catchClause {node : CatchClause} :
    (TreeNode.catchClause node).Untouched retouch ↔ node.retouch retouch = node := by
  simp [Untouched, TreeNode.retouch]

@[simp] theorem untouched_switchCase {node : SwitchCase} :
    (TreeNode.switchCase node).Untouched retouch ↔ node.retouch retouch = node := by
  simp [Untouched, TreeNode.retouch]

@[simp] theorem untouched_classDecl {node : ClassDecl} :
    (TreeNode.classDecl node).Untouched retouch ↔ node.retouch retouch = node := by
  simp [Untouched, TreeNode.retouch]

@[simp] theorem untouched_member {node : Member} :
    (TreeNode.member node).Untouched retouch ↔ node.retouch retouch = node := by
  simp [Untouched, TreeNode.retouch]

@[simp] theorem untouched_param {node : Param} :
    (TreeNode.param node).Untouched retouch ↔ node.retouch retouch = node := by
  simp [Untouched, TreeNode.retouch]

end

end TreeNode

section Parts

variable {retouch : Retouch}

private theorem map_eq_self_iff {α : Type} {change : α → α} {items : List α} :
    items.map change = items ↔ ∀ item ∈ items, change item = item := by
  induction items with
  | nil => simp
  | cons item rest ih => simp [ih]

private theorem untouched_exprParts {role : PartRole} {exprs : List Expr} :
    (∀ part ∈ exprParts role exprs, part.node.Untouched retouch) ↔
      ∀ expr ∈ exprs, expr.retouch retouch = expr := by
  simp [exprParts]

private theorem untouched_stmtParts {role : PartRole} {stmts : List Stmt} :
    (∀ part ∈ stmtParts role stmts, part.node.Untouched retouch) ↔
      ∀ stmt ∈ stmts, stmt.retouch retouch = stmt := by
  simp [stmtParts]

private theorem map_stmts_of_body {role : PartRole} {stmts : List Stmt}
    (h : ∀ part ∈ stmtParts role stmts, part.node.retouch retouch = part.node) :
    stmts.map (·.retouch retouch) = stmts :=
  map_eq_self_iff.mpr fun _ hstmt => TreeNode.stmt.inj (h _ (List.mem_map_of_mem hstmt))

theorem LambdaBody.retouch_eq_self {body : LambdaBody}
    (h : (TreeNode.code (.lambda body)).Untouched retouch) : body.retouch retouch = body := by
  cases body with
  | expr value =>
      have hvalue := TreeNode.expr.inj (h _ (List.mem_singleton_self _))
      rw [LambdaBody.retouch, hvalue]
  | block body =>
      have hstmts : ∀ part ∈ stmtParts .plain body, part.node.retouch retouch = part.node := h
      rw [LambdaBody.retouch, retouchStmts_eq, map_stmts_of_body hstmts]

theorem ExprKind.retouch_eq_self {kind : ExprKind} (h : ∀ part ∈ kind.parts, part.node.Untouched retouch) :
    kind.retouch retouch = kind := by
  cases kind with
  | lambda params body =>
      rw [ExprKind.retouch, LambdaBody.retouch_eq_self (h _ (List.mem_singleton_self _))]
  | call receiver method args =>
      cases receiver <;>
        simp_all [ExprKind.retouch, parts, or_imp, forall_and, untouched_exprParts, map_eq_self_iff]
  | new type args body =>
      cases body <;>
        simp_all [ExprKind.retouch, parts, or_imp, forall_and, untouched_exprParts, map_eq_self_iff, nestedPart]
  | newArray element dims init =>
      cases init <;>
        simp_all [ExprKind.retouch, parts, or_imp, forall_and, untouched_exprParts, map_eq_self_iff]
  | _ => simp_all [ExprKind.retouch, parts, untouched_exprParts, map_eq_self_iff]

theorem StmtKind.retouch_eq_self {kind : StmtKind} (h : ∀ part ∈ kind.parts, part.node.Untouched retouch) :
    kind.retouch retouch = kind := by
  cases kind with
  | tryCatch resources body catches finallyBody =>
      cases finallyBody <;>
        simp_all [StmtKind.retouch, parts, or_imp, forall_and, untouched_stmtParts, map_eq_self_iff]
  | ifElse cond whenTrue whenFalse =>
      cases whenFalse <;>
        simp_all [StmtKind.retouch, parts, or_imp, forall_and, untouched_exprParts, untouched_stmtParts]
  | forLoop init cond update body =>
      cases cond <;>
        simp_all [StmtKind.retouch, parts, or_imp, forall_and, untouched_exprParts, untouched_stmtParts,
          map_eq_self_iff]
  | «return» value => cases value <;> simp_all [StmtKind.retouch, parts, untouched_exprParts]
  | assert cond message => cases message <;> simp_all [StmtKind.retouch, parts, untouched_exprParts]
  | _ =>
      simp_all [StmtKind.retouch, parts, or_imp, forall_and, untouched_exprParts, untouched_stmtParts,
        map_eq_self_iff, nestedPart]

theorem AnnotationUse.retouch_eq_self {use : AnnotationUse} (hspan : retouch.span use.span = use.span)
    (hvalues : ∀ value ∈ use.values, value.retouch retouch = value) : use.retouch retouch = use := by
  obtain ⟨name, args, span⟩ := use
  have hargs : args.map (·.retouch retouch) = args := by
    apply map_eq_self_iff.mpr
    rintro ⟨argName, value⟩ harg
    rw [AnnotationArg.retouch, hvalues value (List.mem_map_of_mem harg)]
  rw [AnnotationUse.retouch, retouchArgs_eq, hargs, hspan]

theorem Modifiers.retouch_eq_self {modifiers : Modifiers}
    (hannotations : ∀ use ∈ modifiers.annotations, retouch.span use.span = use.span)
    (h : ∀ part ∈ modifiers.parts, part.node.Untouched retouch) : modifiers.retouch retouch = modifiers := by
  obtain ⟨keywords, annotations⟩ := modifiers
  have huses : annotations.map (·.retouch retouch) = annotations := by
    apply map_eq_self_iff.mpr
    intro use huse
    apply AnnotationUse.retouch_eq_self (hannotations use huse)
    intro value hvalue
    exact untouched_exprParts.mp h value (List.mem_flatMap.mpr ⟨use, huse, hvalue⟩)
  rw [Modifiers.retouch, retouchUses_eq, huses]

/-- The body of a method is a part of the member, and so are its parameters. -/
theorem MethodDecl.retouch_eq_self {decl : MethodDecl}
    (hkeywords : ∀ id keywords, retouch.keywords id keywords = keywords)
    (hspan : retouch.span decl.span = decl.span)
    (hannotations : ∀ use ∈ decl.modifiers.annotations, retouch.span use.span = use.span)
    (h : ∀ part ∈ (MemberKind.method decl).parts, part.node.Untouched retouch) :
    decl.retouch retouch = decl := by
  simp only [MemberKind.parts, List.forall_mem_append, List.forall_mem_map, List.forall_mem_singleton] at h
  obtain ⟨⟨hmodifiers, hparams⟩, hbody⟩ := h
  obtain ⟨id, name, modifiers, typeParams, returnType, params, throws, body, span⟩ := decl
  have hsame : modifiers.retouch retouch = modifiers := Modifiers.retouch_eq_self hannotations hmodifiers
  have hparams : params.map (·.retouch retouch) = params :=
    map_eq_self_iff.mpr fun param hparam => TreeNode.untouched_param.mp (hparams param hparam)
  have hstmts : retouchStmts? retouch body = body := by
    cases body with
    | none => rfl
    | some body =>
        have hparts : ∀ part ∈ stmtParts .plain body, part.node.retouch retouch = part.node := hbody
        rw [retouchStmts?, retouchStmts_eq, map_stmts_of_body hparts]
  have hspan : retouch.span span = span := hspan
  rw [MethodDecl.retouch, hsame, hkeywords, retouchParams_eq, hparams, hstmts, hspan]
  cases modifiers
  rfl

theorem Member.retouch_eq_self {member : Member}
    (hkeywords : ∀ id keywords, retouch.keywords id keywords = keywords)
    (hspares : retouch.Spares (.member member))
    (h : ∀ part ∈ member.kind.parts, part.node.Untouched retouch) : member.retouch retouch = member := by
  obtain ⟨hspans, hannotations⟩ := hspares
  obtain ⟨id, kind, span⟩ := member
  suffices hkind : kind.retouch retouch = kind by
    have hspan : retouch.span span = span := by
      cases kind <;> exact hspans span List.mem_cons_self
    rw [Member.retouch, hkind, hspan]
  cases kind with
  | field modifiers type declarators =>
      simp only [MemberKind.parts, List.forall_mem_append, List.forall_mem_map] at h
      have hsame : modifiers.retouch retouch = modifiers := Modifiers.retouch_eq_self hannotations h.1
      have hdeclarators : declarators.map (·.retouch retouch) = declarators :=
        map_eq_self_iff.mpr fun declarator hmem => TreeNode.untouched_declarator.mp (h.2 declarator hmem)
      rw [MemberKind.retouch, hsame, retouchDeclarators_eq, hdeclarators]
  | method decl =>
      have hspan := hspans decl.span (List.mem_cons_of_mem _ List.mem_cons_self)
      rw [MemberKind.retouch, MethodDecl.retouch_eq_self hkeywords hspan hannotations h]
  | initializer isStatic body =>
      have hparts : ∀ part ∈ stmtParts .plain body, part.node.retouch retouch = part.node :=
        h _ (List.mem_singleton_self _)
      rw [MemberKind.retouch, retouchStmts_eq, map_stmts_of_body hparts]
  | classDecl decl =>
      rw [MemberKind.retouch, TreeNode.untouched_classDecl.mp (h _ (List.mem_singleton_self _))]
  | enumConstant name args body =>
      cases body <;>
        simp_all [MemberKind.retouch, MemberKind.parts, or_imp, forall_and, untouched_exprParts, map_eq_self_iff,
          nestedPart]

end Parts

/-- A construct is untouched by a retouch that changes no keywords and moves nothing in it. -/
theorem TreeNode.untouched_of_spares {retouch : Retouch} [retouch.KeepsNames]
    (hkeywords : ∀ id keywords, retouch.keywords id keywords = keywords) (node : TreeNode)
    (h : ∀ path inner, Within node path inner → retouch.Spares inner) : node.Untouched retouch := by
  have hparts : ∀ part ∈ node.parts, part.node.Untouched retouch := by
    intro part hpart
    have hsize := sizeOf_part_lt hpart
    obtain ⟨step, hstep⟩ := exists_within_of_mem hpart
    exact untouched_of_spares hkeywords part.node fun path inner hinner =>
      h (step :: path) inner (hstep.trans hinner)
  obtain ⟨hspans, hannotations⟩ := h [] node (.here node)
  cases node with
  | expr node =>
      obtain ⟨id, kind, span⟩ := node
      have hspan : retouch.span span = span := hspans span (List.mem_singleton_self _)
      rw [untouched_expr, Expr.retouch_mk, ExprKind.retouch_eq_self hparts, hspan]
  | stmt node =>
      obtain ⟨id, kind, span⟩ := node
      have hspan : retouch.span span = span := hspans span (List.mem_singleton_self _)
      rw [untouched_stmt, Stmt.retouch_mk, StmtKind.retouch_eq_self hparts, hspan]
  | declarator node =>
      obtain ⟨id, name, init, span⟩ := node
      have hspan : retouch.span span = span := hspans span (List.mem_singleton_self _)
      cases init <;> simp_all [parts, untouched_exprParts]
  | resource node =>
      obtain ⟨id, type, name, init⟩ := node
      simp_all [parts, untouched_exprParts]
  | catchClause node =>
      obtain ⟨id, types, name, body, span⟩ := node
      have hspan : retouch.span span = span := hspans span (List.mem_singleton_self _)
      simp_all [parts, CatchClause.retouch, untouched_stmtParts, map_eq_self_iff]
  | switchCase node =>
      obtain ⟨labels, isDefault, body⟩ := node
      simp_all [parts, SwitchCase.retouch, or_imp, forall_and, untouched_exprParts, untouched_stmtParts,
        map_eq_self_iff]
  | classDecl node =>
      obtain ⟨id, name, kind, modifiers, typeParams, superclass, interfaces, members, span⟩ := node
      have hspan : retouch.span span = span := hspans span (List.mem_singleton_self _)
      simp only [parts, List.forall_mem_append, List.forall_mem_map, untouched_member] at hparts
      have hsame : modifiers.retouch retouch = modifiers := Modifiers.retouch_eq_self hannotations hparts.1
      have hmembers : members.map (·.retouch retouch) = members := map_eq_self_iff.mpr hparts.2
      rw [untouched_classDecl, ClassDecl.retouch, hsame, retouchMembers_eq, hmembers, hspan]
  | member node => exact untouched_member.mpr (Member.retouch_eq_self hkeywords ⟨hspans, hannotations⟩ hparts)
  | param node =>
      obtain ⟨id, name, type, modifiers, isVarargs, span⟩ := node
      have hspan : retouch.span span = span := hspans span (List.mem_singleton_self _)
      have hsame : modifiers.retouch retouch = modifiers := Modifiers.retouch_eq_self hannotations hparts
      rw [untouched_param, Param.retouch, hsame, hspan]
  | code body =>
      intro part hpart
      have huntouched := hparts part hpart
      cases body with
      | method decl =>
          obtain ⟨stmt, -, rfl⟩ := List.mem_map.mp hpart
          exact huntouched
      | initializer body =>
          obtain ⟨stmt, -, rfl⟩ := List.mem_map.mp hpart
          exact huntouched
      | lambda body =>
          cases body with
          | expr value =>
              obtain ⟨expr, -, rfl⟩ := List.mem_map.mp hpart
              exact huntouched
          | block body =>
              obtain ⟨stmt, -, rfl⟩ := List.mem_map.mp hpart
              exact huntouched
termination_by sizeOf node

end LockDiscipline
