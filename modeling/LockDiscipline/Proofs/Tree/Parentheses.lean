import LockDiscipline.Proofs.Tree.Courses
import LockDiscipline.Proofs.Tree.Retouch
/-!
# Trees without some parentheses

Parentheses with extra numbers are taken away from a tree, and what stood in them takes their place. So a
tree in which expressions were put into parentheses with new numbers becomes the tree that it was before.
The label of a case keeps its parentheses, for there a bare name means something else, and annotations are
left as they are. What is lost with parentheses is that a chain of selections through them spells no dotted
name; `TreeNode.HidesOnly` says which selections become names in this way.
-/

namespace LockDiscipline

/-- What stands in parentheses if they are extra, and any other expression itself. -/
def Expr.shed (extra : NodeId → Bool) : Expr → Expr
  | ⟨id, .paren inner, span⟩ => if extra id then inner else ⟨id, .paren inner, span⟩
  | expr => expr

mutual

/-- An expression without extra parentheses. -/
def Expr.strip (extra : NodeId → Bool) : Expr → Expr
  | ⟨id, kind, span⟩ => Expr.shed extra ⟨id, kind.strip extra, span⟩

/-- An expression of a kind without extra parentheses inside. -/
def ExprKind.strip (extra : NodeId → Bool) : ExprKind → ExprKind
  | .int value => .int value
  | .float value => .float value
  | .string text => .string text
  | .char value => .char value
  | .bool value => .bool value
  | .null => .null
  | .name name => .name name
  | .this => .this
  | .super => .super
  | .qualifiedThis type => .qualifiedThis type
  | .classLiteral type => .classLiteral type
  | .select object name => .select (object.strip extra) name
  | .call receiver method args => .call (stripOption extra receiver) method (stripExprs extra args)
  | .new type args body => .new type (stripExprs extra args) (stripClass? extra body)
  | .newArray element dims init => .newArray element (stripExprs extra dims) (stripExprs? extra init)
  | .arrayInit items => .arrayInit (stripExprs extra items)
  | .index object position => .index (object.strip extra) (position.strip extra)
  | .unary op operand => .unary op (operand.strip extra)
  | .binary op left right => .binary op (left.strip extra) (right.strip extra)
  | .assign op target value => .assign op (target.strip extra) (value.strip extra)
  | .conditional cond whenTrue whenFalse =>
      .conditional (cond.strip extra) (whenTrue.strip extra) (whenFalse.strip extra)
  | .instanceOf expr type => .instanceOf (expr.strip extra) type
  | .cast type expr => .cast type (expr.strip extra)
  | .lambda params body => .lambda params (body.strip extra)
  | .methodRef target name => .methodRef (target.strip extra) name
  | .paren inner => .paren (inner.strip extra)

/-- Expressions without extra parentheses. -/
def stripExprs (extra : NodeId → Bool) : List Expr → List Expr
  | [] => []
  | expr :: rest => expr.strip extra :: stripExprs extra rest

/-- An expression that may be missing without extra parentheses. -/
def stripOption (extra : NodeId → Bool) : Option Expr → Option Expr
  | none => none
  | some expr => some (expr.strip extra)

/-- Expressions that may be missing without extra parentheses. -/
def stripExprs? (extra : NodeId → Bool) : Option (List Expr) → Option (List Expr)
  | none => none
  | some exprs => some (stripExprs extra exprs)

/-- Labels of a case without extra parentheses inside. -/
def stripLabels (extra : NodeId → Bool) : List Expr → List Expr
  | [] => []
  | ⟨id, kind, span⟩ :: rest => ⟨id, kind.strip extra, span⟩ :: stripLabels extra rest

/-- The body of a lambda without extra parentheses. -/
def LambdaBody.strip (extra : NodeId → Bool) : LambdaBody → LambdaBody
  | .expr value => .expr (value.strip extra)
  | .block body => .block (stripStmts extra body)

/-- A statement without extra parentheses. -/
def Stmt.strip (extra : NodeId → Bool) : Stmt → Stmt
  | ⟨id, kind, span⟩ => ⟨id, kind.strip extra, span⟩

/-- A statement of a kind without extra parentheses. -/
def StmtKind.strip (extra : NodeId → Bool) : StmtKind → StmtKind
  | .expr value => .expr (value.strip extra)
  | .localVars type declarators => .localVars type (stripDeclarators extra declarators)
  | .block body => .block (stripStmts extra body)
  | .ifElse cond whenTrue whenFalse =>
      .ifElse (cond.strip extra) (whenTrue.strip extra) (stripStmt? extra whenFalse)
  | .whileLoop cond body => .whileLoop (cond.strip extra) (body.strip extra)
  | .doWhile body cond => .doWhile (body.strip extra) (cond.strip extra)
  | .forLoop init cond update body =>
      .forLoop (stripStmts extra init) (stripOption extra cond) (stripExprs extra update) (body.strip extra)
  | .forEach type name iterated body => .forEach type name (iterated.strip extra) (body.strip extra)
  | .return value => .return (stripOption extra value)
  | .throw value => .throw (value.strip extra)
  | .break label => .break label
  | .continue label => .continue label
  | .tryCatch resources body catches finallyBody =>
      .tryCatch (stripResources extra resources) (stripStmts extra body) (stripCatches extra catches)
        (stripStmts? extra finallyBody)
  | .synchronized lock body => .synchronized (lock.strip extra) (stripStmts extra body)
  | .switch selector cases => .switch (selector.strip extra) (stripCases extra cases)
  | .labeled label body => .labeled label (body.strip extra)
  | .localClass decl => .localClass (decl.strip extra)
  | .assert cond message => .assert (cond.strip extra) (stripOption extra message)
  | .empty => .empty

/-- Statements without extra parentheses. -/
def stripStmts (extra : NodeId → Bool) : List Stmt → List Stmt
  | [] => []
  | stmt :: rest => stmt.strip extra :: stripStmts extra rest

/-- A statement that may be missing without extra parentheses. -/
def stripStmt? (extra : NodeId → Bool) : Option Stmt → Option Stmt
  | none => none
  | some stmt => some (stmt.strip extra)

/-- Statements that may be missing without extra parentheses. -/
def stripStmts? (extra : NodeId → Bool) : Option (List Stmt) → Option (List Stmt)
  | none => none
  | some stmts => some (stripStmts extra stmts)

/-- Declarators without extra parentheses. -/
def stripDeclarators (extra : NodeId → Bool) : List Declarator → List Declarator
  | [] => []
  | ⟨id, name, init, span⟩ :: rest =>
      ⟨id, name, stripOption extra init, span⟩ :: stripDeclarators extra rest

/-- Resources without extra parentheses. -/
def stripResources (extra : NodeId → Bool) : List Resource → List Resource
  | [] => []
  | ⟨id, type, name, init⟩ :: rest => ⟨id, type, name, init.strip extra⟩ :: stripResources extra rest

/-- Handlers without extra parentheses. -/
def stripCatches (extra : NodeId → Bool) : List CatchClause → List CatchClause
  | [] => []
  | ⟨id, types, name, body, span⟩ :: rest =>
      ⟨id, types, name, stripStmts extra body, span⟩ :: stripCatches extra rest

/-- Cases without extra parentheses. -/
def stripCases (extra : NodeId → Bool) : List SwitchCase → List SwitchCase
  | [] => []
  | ⟨labels, isDefault, body⟩ :: rest =>
      ⟨stripLabels extra labels, isDefault, stripStmts extra body⟩ :: stripCases extra rest

/-- A class without extra parentheses. -/
def ClassDecl.strip (extra : NodeId → Bool) : ClassDecl → ClassDecl
  | ⟨id, name, kind, modifiers, typeParams, superclass, interfaces, members, span⟩ =>
      ⟨id, name, kind, modifiers, typeParams, superclass, interfaces, stripMembers extra members, span⟩

/-- A class that may be missing without extra parentheses. -/
def stripClass? (extra : NodeId → Bool) : Option ClassDecl → Option ClassDecl
  | none => none
  | some decl => some (decl.strip extra)

/-- Members without extra parentheses. -/
def stripMembers (extra : NodeId → Bool) : List Member → List Member
  | [] => []
  | ⟨id, kind, span⟩ :: rest => ⟨id, kind.strip extra, span⟩ :: stripMembers extra rest

/-- A member of a kind without extra parentheses. -/
def MemberKind.strip (extra : NodeId → Bool) : MemberKind → MemberKind
  | .field modifiers type declarators => .field modifiers type (stripDeclarators extra declarators)
  | .method decl => .method (decl.strip extra)
  | .initializer isStatic body => .initializer isStatic (stripStmts extra body)
  | .classDecl decl => .classDecl (decl.strip extra)
  | .enumConstant name args body => .enumConstant name (stripExprs extra args) (stripClass? extra body)

/-- A method without extra parentheses. -/
def MethodDecl.strip (extra : NodeId → Bool) : MethodDecl → MethodDecl
  | ⟨id, name, modifiers, typeParams, returnType, params, throws, body, span⟩ =>
      ⟨id, name, modifiers, typeParams, returnType, params, throws, stripStmts? extra body, span⟩

end

/-- A body of code without extra parentheses. -/
def UnitBody.strip (extra : NodeId → Bool) : UnitBody → UnitBody
  | .method decl => .method (decl.strip extra)
  | .initializer body => .initializer (stripStmts extra body)
  | .lambda body => .lambda (body.strip extra)

/-- A compilation unit without extra parentheses. -/
def CompilationUnit.strip (extra : NodeId → Bool) (unit : CompilationUnit) : CompilationUnit :=
  { unit with types := unit.types.map (·.strip extra) }

/-! ### Lists and what may be missing -/

section Maps

variable (extra : NodeId → Bool)

@[simp] theorem stripExprs_eq (exprs : List Expr) : stripExprs extra exprs = exprs.map (·.strip extra) := by
  induction exprs with
  | nil => rfl
  | cons first rest ih => rw [stripExprs, ih, List.map_cons]

@[simp] theorem ClassDecl.id_strip (decl : ClassDecl) : (decl.strip extra).id = decl.id := by
  cases decl
  rfl

@[simp] theorem ClassDecl.name_strip (decl : ClassDecl) : (decl.strip extra).name = decl.name := by
  cases decl
  rfl

@[simp] theorem ClassDecl.kind_strip (decl : ClassDecl) : (decl.strip extra).kind = decl.kind := by
  cases decl
  rfl

@[simp] theorem ClassDecl.modifiers_strip (decl : ClassDecl) :
    (decl.strip extra).modifiers = decl.modifiers := by
  cases decl
  rfl

@[simp] theorem ClassDecl.members_strip (decl : ClassDecl) :
    (decl.strip extra).members = stripMembers extra decl.members := by
  cases decl
  rfl

@[simp] theorem ClassDecl.span_strip (decl : ClassDecl) : (decl.strip extra).span = decl.span := by
  cases decl
  rfl

@[simp] theorem MethodDecl.id_strip (decl : MethodDecl) : (decl.strip extra).id = decl.id := by
  cases decl
  rfl

@[simp] theorem MethodDecl.modifiers_strip (decl : MethodDecl) :
    (decl.strip extra).modifiers = decl.modifiers := by
  cases decl
  rfl

end Maps

/-! ### No extra parentheses -/

section None

private def never : NodeId → Bool := fun _ => false

private theorem shed_never (expr : Expr) : expr.shed never = expr := by
  obtain ⟨id, kind, span⟩ := expr
  cases kind <;> rfl

mutual

private theorem strip_never_expr : ∀ expr : Expr, expr.strip never = expr
  | ⟨id, kind, span⟩ => by rw [Expr.strip, strip_never_exprKind kind, shed_never]

private theorem strip_never_exprKind : ∀ kind : ExprKind, kind.strip never = kind
  | .int _ | .float _ | .string _ | .char _ | .bool _ | .null | .name _ | .this | .super
  | .qualifiedThis _ | .classLiteral _ => rfl
  | .select object _ | .unary _ object | .instanceOf object _ | .cast _ object | .methodRef object _
  | .paren object => by simp only [ExprKind.strip, strip_never_expr object]
  | .call receiver _ args => by
      simp only [ExprKind.strip, strip_never_option receiver, strip_never_exprs args]
  | .new _ args body => by simp only [ExprKind.strip, strip_never_exprs args, strip_never_class? body]
  | .newArray _ dims init => by
      simp only [ExprKind.strip, strip_never_exprs dims, strip_never_exprs? init]
  | .arrayInit items => by simp only [ExprKind.strip, strip_never_exprs items]
  | .index left right | .binary _ left right | .assign _ left right => by
      simp only [ExprKind.strip, strip_never_expr left, strip_never_expr right]
  | .conditional cond whenTrue whenFalse => by
      simp only [ExprKind.strip, strip_never_expr cond, strip_never_expr whenTrue,
        strip_never_expr whenFalse]
  | .lambda _ body => by simp only [ExprKind.strip, strip_never_lambda body]

private theorem strip_never_exprs : ∀ exprs : List Expr, stripExprs never exprs = exprs
  | [] => rfl
  | expr :: rest => by rw [stripExprs, strip_never_expr expr, strip_never_exprs rest]

private theorem strip_never_option : ∀ expr : Option Expr, stripOption never expr = expr
  | none => rfl
  | some expr => by rw [stripOption, strip_never_expr expr]

private theorem strip_never_exprs? : ∀ exprs : Option (List Expr), stripExprs? never exprs = exprs
  | none => rfl
  | some exprs => by rw [stripExprs?, strip_never_exprs exprs]

private theorem strip_never_labels : ∀ labels : List Expr, stripLabels never labels = labels
  | [] => rfl
  | ⟨id, kind, span⟩ :: rest => by rw [stripLabels, strip_never_exprKind kind, strip_never_labels rest]

private theorem strip_never_lambda : ∀ body : LambdaBody, body.strip never = body
  | .expr value => by rw [LambdaBody.strip, strip_never_expr value]
  | .block body => by rw [LambdaBody.strip, strip_never_stmts body]

private theorem strip_never_stmt : ∀ stmt : Stmt, stmt.strip never = stmt
  | ⟨id, kind, span⟩ => by rw [Stmt.strip, strip_never_stmtKind kind]

private theorem strip_never_stmtKind : ∀ kind : StmtKind, kind.strip never = kind
  | .expr value | .throw value => by simp only [StmtKind.strip, strip_never_expr value]
  | .localVars _ declarators => by simp only [StmtKind.strip, strip_never_declarators declarators]
  | .block body => by simp only [StmtKind.strip, strip_never_stmts body]
  | .ifElse cond whenTrue whenFalse => by
      simp only [StmtKind.strip, strip_never_expr cond, strip_never_stmt whenTrue,
        strip_never_stmt? whenFalse]
  | .whileLoop cond body | .doWhile body cond | .forEach _ _ cond body => by
      simp only [StmtKind.strip, strip_never_expr cond, strip_never_stmt body]
  | .forLoop init cond update body => by
      simp only [StmtKind.strip, strip_never_stmts init, strip_never_option cond,
        strip_never_exprs update, strip_never_stmt body]
  | .return value => by simp only [StmtKind.strip, strip_never_option value]
  | .tryCatch resources body catches finallyBody => by
      simp only [StmtKind.strip, strip_never_resources resources, strip_never_stmts body,
        strip_never_catches catches, strip_never_stmts? finallyBody]
  | .synchronized lock body => by
      simp only [StmtKind.strip, strip_never_expr lock, strip_never_stmts body]
  | .switch selector cases => by
      simp only [StmtKind.strip, strip_never_expr selector, strip_never_cases cases]
  | .labeled _ body => by simp only [StmtKind.strip, strip_never_stmt body]
  | .localClass decl => by simp only [StmtKind.strip, strip_never_class decl]
  | .assert cond message => by
      simp only [StmtKind.strip, strip_never_expr cond, strip_never_option message]
  | .break _ | .continue _ | .empty => rfl

private theorem strip_never_stmts : ∀ stmts : List Stmt, stripStmts never stmts = stmts
  | [] => rfl
  | stmt :: rest => by rw [stripStmts, strip_never_stmt stmt, strip_never_stmts rest]

private theorem strip_never_stmt? : ∀ stmt : Option Stmt, stripStmt? never stmt = stmt
  | none => rfl
  | some stmt => by rw [stripStmt?, strip_never_stmt stmt]

private theorem strip_never_stmts? : ∀ stmts : Option (List Stmt), stripStmts? never stmts = stmts
  | none => rfl
  | some stmts => by rw [stripStmts?, strip_never_stmts stmts]

private theorem strip_never_declarators : ∀ declarators : List Declarator,
    stripDeclarators never declarators = declarators
  | [] => rfl
  | ⟨_, _, init, _⟩ :: rest => by
      rw [stripDeclarators, strip_never_option init, strip_never_declarators rest]

private theorem strip_never_resources : ∀ resources : List Resource,
    stripResources never resources = resources
  | [] => rfl
  | ⟨_, _, _, init⟩ :: rest => by rw [stripResources, strip_never_expr init, strip_never_resources rest]

private theorem strip_never_catches : ∀ catches : List CatchClause, stripCatches never catches = catches
  | [] => rfl
  | ⟨_, _, _, body, _⟩ :: rest => by rw [stripCatches, strip_never_stmts body, strip_never_catches rest]

private theorem strip_never_cases : ∀ cases : List SwitchCase, stripCases never cases = cases
  | [] => rfl
  | ⟨labels, _, body⟩ :: rest => by
      rw [stripCases, strip_never_labels labels, strip_never_stmts body, strip_never_cases rest]

private theorem strip_never_class : ∀ decl : ClassDecl, decl.strip never = decl
  | ⟨_, _, _, _, _, _, _, members, _⟩ => by rw [ClassDecl.strip, strip_never_members members]

private theorem strip_never_class? : ∀ decl : Option ClassDecl, stripClass? never decl = decl
  | none => rfl
  | some decl => by rw [stripClass?, strip_never_class decl]

private theorem strip_never_members : ∀ members : List Member, stripMembers never members = members
  | [] => rfl
  | ⟨_, kind, _⟩ :: rest => by
      rw [stripMembers, strip_never_memberKind kind, strip_never_members rest]

private theorem strip_never_memberKind : ∀ kind : MemberKind, kind.strip never = kind
  | .field _ _ declarators => by rw [MemberKind.strip, strip_never_declarators declarators]
  | .method decl => by rw [MemberKind.strip, strip_never_method decl]
  | .initializer _ body => by rw [MemberKind.strip, strip_never_stmts body]
  | .classDecl decl => by rw [MemberKind.strip, strip_never_class decl]
  | .enumConstant _ args body => by
      rw [MemberKind.strip, strip_never_exprs args, strip_never_class? body]

private theorem strip_never_method : ∀ decl : MethodDecl, decl.strip never = decl
  | ⟨_, _, _, _, _, _, _, body, _⟩ => by rw [MethodDecl.strip, strip_never_stmts? body]

end

/-- Where no parentheses are extra, all stay. -/
@[simp] theorem Expr.strip_none (expr : Expr) : expr.strip (fun _ => false) = expr :=
  strip_never_expr expr

@[simp] theorem Expr.shed_none (expr : Expr) : expr.shed (fun _ => false) = expr :=
  shed_never expr

@[simp] theorem ExprKind.strip_none (kind : ExprKind) : kind.strip (fun _ => false) = kind :=
  strip_never_exprKind kind

@[simp] theorem ClassDecl.strip_none (decl : ClassDecl) : decl.strip (fun _ => false) = decl :=
  strip_never_class decl

@[simp] theorem CompilationUnit.strip_none (unit : CompilationUnit) : unit.strip (fun _ => false) = unit := by
  have hclass : (fun decl : ClassDecl => decl.strip fun _ => false) = id := funext ClassDecl.strip_none
  rw [CompilationUnit.strip, hclass, List.map_id]

end None

/-! ### Retouched trees -/

section Retouched

variable (extra : NodeId → Bool) (retouch : Retouch)

theorem ExprKind.strip_respell (change : String → String) (kind : ExprKind) :
    (kind.respell change).strip extra = (kind.strip extra).respell change := by
  cases kind <;> rfl

theorem StmtKind.strip_respell (change : String → String) (kind : StmtKind) :
    (kind.respell change).strip extra = (kind.strip extra).respell change := by
  cases kind <;> rfl

private theorem shed_retouch (expr : Expr) :
    (expr.retouch retouch).shed extra = (expr.shed extra).retouch retouch := by
  obtain ⟨id, kind, span⟩ := expr
  cases kind with
  | paren inner =>
      simp only [Expr.retouch, ExprKind.retouch, ExprKind.respell, Expr.shed]
      split <;> rfl
  | _ => rfl

mutual

theorem strip_retouch_expr : ∀ expr : Expr,
    (expr.retouch retouch).strip extra = (expr.strip extra).retouch retouch
  | ⟨id, kind, span⟩ => by
      rw [Expr.retouch, Expr.strip, ExprKind.strip_respell, strip_retouch_exprKind kind, Expr.strip,
        ← shed_retouch, Expr.retouch]

private theorem strip_retouch_exprKind : ∀ kind : ExprKind,
    (kind.retouch retouch).strip extra = (kind.strip extra).retouch retouch
  | .int _ | .float _ | .string _ | .char _ | .bool _ | .null | .name _ | .this | .super
  | .qualifiedThis _ | .classLiteral _ => rfl
  | .select object _ | .unary _ object | .instanceOf object _ | .cast _ object | .methodRef object _
  | .paren object => by simp only [ExprKind.retouch, ExprKind.strip, strip_retouch_expr object]
  | .call receiver _ args => by
      simp only [ExprKind.retouch, ExprKind.strip, strip_retouch_option receiver, strip_retouch_exprs args]
  | .new _ args body => by
      simp only [ExprKind.retouch, ExprKind.strip, strip_retouch_exprs args, strip_retouch_class? body]
  | .newArray _ dims init => by
      simp only [ExprKind.retouch, ExprKind.strip, strip_retouch_exprs dims, strip_retouch_exprs? init]
  | .arrayInit items => by simp only [ExprKind.retouch, ExprKind.strip, strip_retouch_exprs items]
  | .index left right | .binary _ left right | .assign _ left right => by
      simp only [ExprKind.retouch, ExprKind.strip, strip_retouch_expr left, strip_retouch_expr right]
  | .conditional cond whenTrue whenFalse => by
      simp only [ExprKind.retouch, ExprKind.strip, strip_retouch_expr cond, strip_retouch_expr whenTrue,
        strip_retouch_expr whenFalse]
  | .lambda _ body => by simp only [ExprKind.retouch, ExprKind.strip, strip_retouch_lambda body]

private theorem strip_retouch_exprs : ∀ exprs : List Expr,
    stripExprs extra (retouchExprs retouch exprs) = retouchExprs retouch (stripExprs extra exprs)
  | [] => rfl
  | expr :: rest => by
      rw [retouchExprs, stripExprs, strip_retouch_expr expr, strip_retouch_exprs rest, stripExprs, retouchExprs]

private theorem strip_retouch_option : ∀ expr : Option Expr,
    stripOption extra (retouchOption retouch expr) = retouchOption retouch (stripOption extra expr)
  | none => rfl
  | some expr => by rw [retouchOption, stripOption, strip_retouch_expr expr, stripOption, retouchOption]

private theorem strip_retouch_exprs? : ∀ exprs : Option (List Expr),
    stripExprs? extra (retouchExprs? retouch exprs) = retouchExprs? retouch (stripExprs? extra exprs)
  | none => rfl
  | some exprs => by rw [retouchExprs?, stripExprs?, strip_retouch_exprs exprs, stripExprs?, retouchExprs?]

private theorem strip_retouch_labels : ∀ labels : List Expr,
    stripLabels extra (retouchExprs retouch labels) = retouchExprs retouch (stripLabels extra labels)
  | [] => rfl
  | ⟨id, kind, span⟩ :: rest => by
      rw [retouchExprs, Expr.retouch, stripLabels, ExprKind.strip_respell, strip_retouch_exprKind kind,
        strip_retouch_labels rest, stripLabels, retouchExprs, Expr.retouch]

private theorem strip_retouch_lambda : ∀ body : LambdaBody,
    (body.retouch retouch).strip extra = (body.strip extra).retouch retouch
  | .expr value => by simp only [LambdaBody.retouch, LambdaBody.strip, strip_retouch_expr value]
  | .block body => by simp only [LambdaBody.retouch, LambdaBody.strip, strip_retouch_stmts body]

private theorem strip_retouch_stmt : ∀ stmt : Stmt,
    (stmt.retouch retouch).strip extra = (stmt.strip extra).retouch retouch
  | ⟨id, kind, span⟩ => by
      rw [Stmt.retouch, Stmt.strip, StmtKind.strip_respell, strip_retouch_stmtKind kind, Stmt.strip, Stmt.retouch]

private theorem strip_retouch_stmtKind : ∀ kind : StmtKind,
    (kind.retouch retouch).strip extra = (kind.strip extra).retouch retouch
  | .expr value | .throw value => by simp only [StmtKind.retouch, StmtKind.strip, strip_retouch_expr value]
  | .localVars _ declarators => by
      simp only [StmtKind.retouch, StmtKind.strip, strip_retouch_declarators declarators]
  | .block body => by simp only [StmtKind.retouch, StmtKind.strip, strip_retouch_stmts body]
  | .ifElse cond whenTrue whenFalse => by
      simp only [StmtKind.retouch, StmtKind.strip, strip_retouch_expr cond, strip_retouch_stmt whenTrue,
        strip_retouch_stmt? whenFalse]
  | .whileLoop cond body | .doWhile body cond | .forEach _ _ cond body => by
      simp only [StmtKind.retouch, StmtKind.strip, strip_retouch_expr cond, strip_retouch_stmt body]
  | .forLoop init cond update body => by
      simp only [StmtKind.retouch, StmtKind.strip, strip_retouch_stmts init, strip_retouch_option cond,
        strip_retouch_exprs update, strip_retouch_stmt body]
  | .return value => by simp only [StmtKind.retouch, StmtKind.strip, strip_retouch_option value]
  | .tryCatch resources body catches finallyBody => by
      simp only [StmtKind.retouch, StmtKind.strip, strip_retouch_resources resources, strip_retouch_stmts body,
        strip_retouch_catches catches, strip_retouch_stmts? finallyBody]
  | .synchronized lock body => by
      simp only [StmtKind.retouch, StmtKind.strip, strip_retouch_expr lock, strip_retouch_stmts body]
  | .switch selector cases => by
      simp only [StmtKind.retouch, StmtKind.strip, strip_retouch_expr selector, strip_retouch_cases cases]
  | .labeled _ body => by simp only [StmtKind.retouch, StmtKind.strip, strip_retouch_stmt body]
  | .localClass decl => by simp only [StmtKind.retouch, StmtKind.strip, strip_retouch_class decl]
  | .assert cond message => by
      simp only [StmtKind.retouch, StmtKind.strip, strip_retouch_expr cond, strip_retouch_option message]
  | .break _ | .continue _ | .empty => rfl

private theorem strip_retouch_stmts : ∀ stmts : List Stmt,
    stripStmts extra (retouchStmts retouch stmts) = retouchStmts retouch (stripStmts extra stmts)
  | [] => rfl
  | stmt :: rest => by
      rw [retouchStmts, stripStmts, strip_retouch_stmt stmt, strip_retouch_stmts rest, stripStmts, retouchStmts]

private theorem strip_retouch_stmt? : ∀ stmt : Option Stmt,
    stripStmt? extra (retouchStmt? retouch stmt) = retouchStmt? retouch (stripStmt? extra stmt)
  | none => rfl
  | some stmt => by rw [retouchStmt?, stripStmt?, strip_retouch_stmt stmt, stripStmt?, retouchStmt?]

private theorem strip_retouch_stmts? : ∀ stmts : Option (List Stmt),
    stripStmts? extra (retouchStmts? retouch stmts) = retouchStmts? retouch (stripStmts? extra stmts)
  | none => rfl
  | some stmts => by rw [retouchStmts?, stripStmts?, strip_retouch_stmts stmts, stripStmts?, retouchStmts?]

private theorem strip_retouch_declarators : ∀ declarators : List Declarator,
    stripDeclarators extra (retouchDeclarators retouch declarators) =
      retouchDeclarators retouch (stripDeclarators extra declarators)
  | [] => rfl
  | ⟨_, _, init, _⟩ :: rest => by
      simp only [retouchDeclarators, Declarator.retouch, stripDeclarators, strip_retouch_option init,
        strip_retouch_declarators rest]

private theorem strip_retouch_resources : ∀ resources : List Resource,
    stripResources extra (retouchResources retouch resources) =
      retouchResources retouch (stripResources extra resources)
  | [] => rfl
  | ⟨_, _, _, init⟩ :: rest => by
      simp only [retouchResources, Resource.retouch, stripResources, strip_retouch_expr init,
        strip_retouch_resources rest]

private theorem strip_retouch_catches : ∀ catches : List CatchClause,
    stripCatches extra (retouchCatches retouch catches) = retouchCatches retouch (stripCatches extra catches)
  | [] => rfl
  | ⟨_, _, _, body, _⟩ :: rest => by
      simp only [retouchCatches, CatchClause.retouch, stripCatches, strip_retouch_stmts body,
        strip_retouch_catches rest]

private theorem strip_retouch_cases : ∀ cases : List SwitchCase,
    stripCases extra (retouchCases retouch cases) = retouchCases retouch (stripCases extra cases)
  | [] => rfl
  | ⟨labels, _, body⟩ :: rest => by
      simp only [retouchCases, SwitchCase.retouch, stripCases, strip_retouch_labels labels,
        strip_retouch_stmts body, strip_retouch_cases rest]

private theorem strip_retouch_class : ∀ decl : ClassDecl,
    (decl.retouch retouch).strip extra = (decl.strip extra).retouch retouch
  | ⟨_, _, _, _, _, _, _, members, _⟩ => by
      simp only [ClassDecl.retouch, ClassDecl.strip, strip_retouch_members members]

private theorem strip_retouch_class? : ∀ decl : Option ClassDecl,
    stripClass? extra (retouchClass? retouch decl) = retouchClass? retouch (stripClass? extra decl)
  | none => rfl
  | some decl => by rw [retouchClass?, stripClass?, strip_retouch_class decl, stripClass?, retouchClass?]

private theorem strip_retouch_members : ∀ members : List Member,
    stripMembers extra (retouchMembers retouch members) = retouchMembers retouch (stripMembers extra members)
  | [] => rfl
  | ⟨_, kind, _⟩ :: rest => by
      simp only [retouchMembers, Member.retouch, stripMembers, strip_retouch_memberKind kind,
        strip_retouch_members rest]

private theorem strip_retouch_memberKind : ∀ kind : MemberKind,
    (kind.retouch retouch).strip extra = (kind.strip extra).retouch retouch
  | .field _ _ declarators => by
      simp only [MemberKind.retouch, MemberKind.strip, strip_retouch_declarators declarators]
  | .method decl => by simp only [MemberKind.retouch, MemberKind.strip, strip_retouch_method decl]
  | .initializer _ body => by simp only [MemberKind.retouch, MemberKind.strip, strip_retouch_stmts body]
  | .classDecl decl => by simp only [MemberKind.retouch, MemberKind.strip, strip_retouch_class decl]
  | .enumConstant _ args body => by
      simp only [MemberKind.retouch, MemberKind.strip, strip_retouch_exprs args, strip_retouch_class? body]

private theorem strip_retouch_method : ∀ decl : MethodDecl,
    (decl.retouch retouch).strip extra = (decl.strip extra).retouch retouch
  | ⟨_, _, _, _, _, _, _, body, _⟩ => by
      simp only [MethodDecl.retouch, MethodDecl.strip, strip_retouch_stmts? body]

end

/-- It makes no difference whether parentheses are taken away from a tree before or after it is retouched. -/
theorem CompilationUnit.strip_retouch (unit : CompilationUnit) :
    (unit.retouch retouch).strip extra = (unit.strip extra).retouch retouch := by
  simp only [strip, CompilationUnit.retouch, List.map_map, Function.comp_def, strip_retouch_class]

end Retouched

/-! ### Dotted names -/

section Names

variable (extra : NodeId → Bool)

/-- Parentheses only ever hide the dotted name that an expression spells without them. -/
theorem Expr.dottedName?_strip : ∀ expr : Expr,
    expr.dottedName? = none ∨ (expr.strip extra).dottedName? = expr.dottedName?
  | ⟨_, .select object _, _⟩ => by
      rcases dottedName?_strip object with hnone | hsame
      · exact .inl (by rw [dottedName?, hnone, Option.map_none])
      · exact .inr (by simp only [strip, ExprKind.strip, shed, dottedName?, hsame])
  | ⟨_, .paren _, _⟩ => .inl rfl
  | ⟨_, .int _, _⟩ | ⟨_, .float _, _⟩ | ⟨_, .string _, _⟩ | ⟨_, .char _, _⟩ | ⟨_, .bool _, _⟩
  | ⟨_, .null, _⟩ | ⟨_, .name _, _⟩ | ⟨_, .this, _⟩ | ⟨_, .super, _⟩ | ⟨_, .qualifiedThis _, _⟩
  | ⟨_, .classLiteral _, _⟩ | ⟨_, .call .., _⟩ | ⟨_, .new .., _⟩ | ⟨_, .newArray .., _⟩
  | ⟨_, .arrayInit _, _⟩ | ⟨_, .index .., _⟩ | ⟨_, .unary .., _⟩ | ⟨_, .binary .., _⟩
  | ⟨_, .assign .., _⟩ | ⟨_, .conditional .., _⟩ | ⟨_, .instanceOf .., _⟩ | ⟨_, .cast .., _⟩
  | ⟨_, .lambda .., _⟩ | ⟨_, .methodRef .., _⟩ => .inr rfl

/-- Where an expression stands does not matter for the name that it spells without parentheses. -/
theorem Expr.dottedName?_strip_retouch (retouch : Retouch) [retouch.KeepsNames] (expr : Expr) :
    ((expr.retouch retouch).strip extra).dottedName? = (expr.strip extra).dottedName? := by
  rw [strip_retouch_expr, Retouch.dottedName?_expr]

end Names

/-- An expression spells a dotted name, and extra parentheses in it hide this. -/
def Expr.HidesName (extra : NodeId → Bool) (expr : Expr) : Prop :=
  (expr.strip extra).dottedName? ≠ expr.dottedName?

/-- In a construct, the selections from expressions of which extra parentheses hide a dotted name are among
the given nodes. -/
def TreeNode.HidesOnly (extra : NodeId → Bool) (hidden : NodeId → Prop) (node : TreeNode) : Prop :=
  ∀ ⦃path id object name span⦄, Within node path (.expr ⟨id, .select object name, span⟩) →
    object.HidesName extra → hidden id

/-- The selections in a construct from expressions of which extra parentheses hide a dotted name. -/
def TreeNode.hiding (extra : NodeId → Bool) (node : TreeNode) : List NodeId :=
  node.places.filterMap fun place =>
    match place.node with
    | .expr ⟨id, .select object _, _⟩ =>
        if (object.strip extra).dottedName? = object.dottedName? then none else some id
    | _ => none

namespace TreeNode.HidesOnly

variable {extra : NodeId → Bool} {hidden : NodeId → Prop} {node : TreeNode}

theorem parts (h : node.HidesOnly extra hidden) : ∀ part ∈ node.parts, part.node.HidesOnly extra hidden := by
  intro part hpart path id object name span hwithin
  obtain ⟨index, hindex⟩ := List.getElem?_of_mem hpart
  have hpath : Within node (⟨index, part.role⟩ :: path) (.expr ⟨id, .select object name, span⟩) :=
    .part hindex hwithin
  exact h hpath

theorem of_hiding (h : ∀ id ∈ node.hiding extra, hidden id) : node.HidesOnly extra hidden := by
  intro path id object name span hwithin hhides
  let place : Place := ⟨path, .expr ⟨id, .select object name, span⟩⟩
  have hplace : place ∈ node.places := mem_places.mpr hwithin
  exact h id (List.mem_filterMap.mpr ⟨place, hplace, if_neg hhides⟩)

/-- Where no parentheses are extra, no name is hidden. -/
theorem of_none (node : TreeNode) : node.HidesOnly (fun _ => false) hidden := by
  intro path id object name span _ hhides
  exact absurd (congrArg Expr.dottedName? object.strip_none) hhides

end TreeNode.HidesOnly

/-! ### Visits -/

/-- A visited expression without extra parentheses inside, if it is not extra parentheses itself. -/
def Expr.kept? (extra : NodeId → Bool) : Expr → Option Expr
  | ⟨id, .paren inner, span⟩ =>
      if extra id then none else some ⟨id, .paren (inner.strip extra), span⟩
  | ⟨id, kind, span⟩ => some ⟨id, kind.strip extra, span⟩

/-- A visited node without extra parentheses inside, if it is not extra parentheses itself. -/
def SyntaxNode.kept? (extra : NodeId → Bool) : SyntaxNode → Option SyntaxNode
  | .expr node => (node.kept? extra).map .expr
  | .stmt node => some (.stmt (node.strip extra))

section Visits

variable (extra : NodeId → Bool)

theorem stripResources_init (resources : List Resource) :
    (stripResources extra resources).map (·.init) = stripExprs extra (resources.map (·.init)) := by
  induction resources with
  | nil => rfl
  | cons resource rest ih =>
      obtain ⟨id, type, name, init⟩ := resource
      exact congrArg (init.strip extra :: ·) ih

theorem stripDeclarators_init (declarators : List Declarator) :
    (stripDeclarators extra declarators).filterMap (·.init) =
      stripExprs extra (declarators.filterMap (·.init)) := by
  induction declarators with
  | nil => rfl
  | cons declarator rest ih =>
      obtain ⟨id, name, init, span⟩ := declarator
      cases init with
      | none => exact ih
      | some init => exact congrArg (init.strip extra :: ·) ih

mutual

theorem visited_strip_expr : ∀ expr : Expr,
    (expr.strip extra).visited = expr.visited.filterMap (·.kept? extra)
  | ⟨id, .paren inner, span⟩ => by
      rw [Expr.visited, ExprKind.visited, Expr.strip, ExprKind.strip, Expr.shed]
      by_cases hextra : extra id
      · have hkept : Expr.kept? extra ⟨id, .paren inner, span⟩ = none := if_pos hextra
        rw [if_pos hextra, List.filterMap_cons_none hkept, visited_strip_expr inner]
      · have hkept : Expr.kept? extra ⟨id, .paren inner, span⟩ = some _ := if_neg hextra
        rw [if_neg hextra, List.filterMap_cons_some hkept, Expr.visited, ExprKind.visited,
          visited_strip_expr inner]
  | ⟨_, .select object _, _⟩ | ⟨_, .unary _ object, _⟩ | ⟨_, .instanceOf object _, _⟩ | ⟨_, .cast _ object, _⟩
  | ⟨_, .methodRef object _, _⟩ => congrArg (_ :: ·) (visited_strip_expr object)
  | ⟨_, .call receiver _ args, _⟩ => by
      simp only [Expr.strip, ExprKind.strip, Expr.shed, Expr.visited, ExprKind.visited, Expr.kept?,
        visited_strip_option receiver, visited_strip_exprs args, List.filterMap_cons, List.filterMap_append]
  | ⟨_, .new _ args _, _⟩ | ⟨_, .newArray _ args none, _⟩ | ⟨_, .arrayInit args, _⟩ =>
      congrArg (_ :: ·) (visited_strip_exprs args)
  | ⟨_, .newArray _ dims (some items), _⟩ => by
      simp only [Expr.strip, ExprKind.strip, Expr.shed, stripExprs?, Expr.visited, ExprKind.visited, Expr.kept?,
        visited_strip_exprs dims, visited_strip_exprs items, List.filterMap_cons, List.filterMap_append]
  | ⟨_, .index left right, _⟩ | ⟨_, .binary _ left right, _⟩ | ⟨_, .assign _ left right, _⟩ => by
      simp only [Expr.strip, ExprKind.strip, Expr.shed, Expr.visited, ExprKind.visited, Expr.kept?,
        visited_strip_expr left, visited_strip_expr right, List.filterMap_cons, List.filterMap_append]
  | ⟨_, .conditional cond whenTrue whenFalse, _⟩ => by
      simp only [Expr.strip, ExprKind.strip, Expr.shed, Expr.visited, ExprKind.visited, Expr.kept?,
        visited_strip_expr cond, visited_strip_expr whenTrue, visited_strip_expr whenFalse, List.filterMap_cons,
        List.filterMap_append]
  | ⟨_, .int _, _⟩ | ⟨_, .float _, _⟩ | ⟨_, .string _, _⟩ | ⟨_, .char _, _⟩ | ⟨_, .bool _, _⟩
  | ⟨_, .null, _⟩ | ⟨_, .name _, _⟩ | ⟨_, .this, _⟩ | ⟨_, .super, _⟩ | ⟨_, .qualifiedThis _, _⟩
  | ⟨_, .classLiteral _, _⟩ | ⟨_, .lambda .., _⟩ => rfl

theorem visited_strip_exprs : ∀ exprs : List Expr,
    visitedExprs (stripExprs extra exprs) = (visitedExprs exprs).filterMap (·.kept? extra)
  | [] => rfl
  | expr :: rest => by
      simp only [stripExprs, visitedExprs, visited_strip_expr expr, visited_strip_exprs rest,
        List.filterMap_append]

theorem visited_strip_option : ∀ expr : Option Expr,
    visitedOption (stripOption extra expr) = (visitedOption expr).filterMap (·.kept? extra)
  | none => rfl
  | some expr => visited_strip_expr expr

end

private theorem map_expr_kept (exprs : List Expr) :
    (exprs.filterMap (·.kept? extra)).map SyntaxNode.expr =
      (exprs.map SyntaxNode.expr).filterMap (·.kept? extra) := by
  rw [List.map_filterMap, List.filterMap_map]
  rfl

private theorem exprNodes_strip (expr : Option Expr) :
    exprNodes (stripOption extra expr) = (exprNodes expr).filterMap (·.kept? extra) := by
  rw [exprNodes, visited_strip_option, map_expr_kept, exprNodes]

private theorem visited_strip_declarators (declarators : List Declarator) :
    (stripDeclarators extra declarators).flatMap (fun declarator => exprNodes declarator.init) =
      (declarators.flatMap fun declarator => exprNodes declarator.init).filterMap (·.kept? extra) := by
  induction declarators with
  | nil => rfl
  | cons declarator rest ih =>
      obtain ⟨id, name, init, span⟩ := declarator
      simp only [stripDeclarators, List.flatMap_cons, exprNodes_strip, ih, List.filterMap_append]

mutual

theorem visited_strip_stmt : ∀ stmt : Stmt,
    (stmt.strip extra).visited = stmt.visited.filterMap (·.kept? extra)
  | ⟨_, kind, _⟩ => congrArg (_ :: ·) (visited_strip_stmtKind kind)

theorem visited_strip_stmtKind : ∀ kind : StmtKind,
    (kind.strip extra).visited = kind.visited.filterMap (·.kept? extra)
  | .expr value | .throw value => by
      simp only [StmtKind.strip, StmtKind.visited, visited_strip_expr, map_expr_kept]
  | .localVars _ declarators => visited_strip_declarators extra declarators
  | .block body => visited_strip_stmts body
  | .ifElse cond whenTrue none => by
      simp only [StmtKind.strip, stripStmt?, StmtKind.visited, visited_strip_expr, map_expr_kept,
        visited_strip_stmt whenTrue, List.filterMap_append]
  | .ifElse cond whenTrue (some whenFalse) => by
      simp only [StmtKind.strip, stripStmt?, StmtKind.visited, visited_strip_expr, map_expr_kept,
        visited_strip_stmt whenTrue, visited_strip_stmt whenFalse, List.filterMap_append]
  | .whileLoop cond body | .doWhile body cond | .forEach _ _ cond body => by
      simp only [StmtKind.strip, StmtKind.visited, visited_strip_expr, map_expr_kept, visited_strip_stmt body,
        List.filterMap_append]
  | .forLoop init cond update body => by
      simp only [StmtKind.strip, StmtKind.visited, visited_strip_stmts init, exprNodes_strip,
        visited_strip_exprs, map_expr_kept, visited_strip_stmt body, List.filterMap_append]
  | .return value => exprNodes_strip extra value
  | .tryCatch resources body catches none => by
      simp only [StmtKind.strip, stripStmts?, StmtKind.visited, stripResources_init, visited_strip_exprs,
        map_expr_kept, visited_strip_stmts body, visited_strip_catches catches, List.filterMap_append]
  | .tryCatch resources body catches (some finallyBody) => by
      simp only [StmtKind.strip, stripStmts?, StmtKind.visited, stripResources_init, visited_strip_exprs,
        map_expr_kept, visited_strip_stmts body, visited_strip_catches catches,
        visited_strip_stmts finallyBody, List.filterMap_append]
  | .synchronized lock body => by
      simp only [StmtKind.strip, StmtKind.visited, visited_strip_expr, map_expr_kept, visited_strip_stmts body,
        List.filterMap_append]
  | .switch selector cases => by
      simp only [StmtKind.strip, StmtKind.visited, visited_strip_expr, map_expr_kept,
        visited_strip_cases cases, List.filterMap_append]
  | .labeled _ body => visited_strip_stmt body
  | .assert cond message => by
      simp only [StmtKind.strip, StmtKind.visited, visited_strip_expr, map_expr_kept, exprNodes_strip,
        List.filterMap_append]
  | .localClass _ | .break _ | .continue _ | .empty => rfl

theorem visited_strip_stmts : ∀ stmts : List Stmt,
    visitedStmts (stripStmts extra stmts) = (visitedStmts stmts).filterMap (·.kept? extra)
  | [] => rfl
  | stmt :: rest => by
      simp only [stripStmts, visitedStmts, visited_strip_stmt stmt, visited_strip_stmts rest,
        List.filterMap_append]

theorem visited_strip_catches : ∀ catches : List CatchClause,
    visitedCatches (stripCatches extra catches) = (visitedCatches catches).filterMap (·.kept? extra)
  | [] => rfl
  | ⟨_, _, _, body, _⟩ :: rest => by
      simp only [stripCatches, visitedCatches, visited_strip_stmts body, visited_strip_catches rest,
        List.filterMap_append]

theorem visited_strip_cases : ∀ cases : List SwitchCase,
    visitedCases (stripCases extra cases) = (visitedCases cases).filterMap (·.kept? extra)
  | [] => rfl
  | ⟨_, _, body⟩ :: rest => by
      simp only [stripCases, visitedCases, visited_strip_stmts body, visited_strip_cases rest,
        List.filterMap_append]

end

/-- The expressions in statements without extra parentheses are those that are not extra parentheses. -/
theorem exprsIn_strip (body : List Stmt) :
    exprsIn (stripStmts extra body) = (exprsIn body).filterMap (·.kept? extra) := by
  rw [exprsIn, visited_strip_stmts, List.filterMap_filterMap, exprsIn, List.filterMap_filterMap]
  congr 1
  funext node
  cases node with
  | expr node => cases hkept : node.kept? extra <;> simp [SyntaxNode.kept?, SyntaxNode.expr?, hkept]
  | stmt node => rfl

end Visits

/-! ### Spans -/

/-- A retouch that moves all spans to one place. -/
def Retouch.blank : Retouch where
  span _ := default
  keywords _ keywords := keywords

instance Retouch.keepsNames_blank : blank.KeepsNames :=
  ⟨fun _ _ => rfl⟩

theorem Retouch.span_strip_blank (extra : NodeId → Bool) (expr : Expr) :
    ((expr.retouch .blank).strip extra).span = default := by
  rw [strip_retouch_expr, Expr.span_retouch]
  rfl

end LockDiscipline
