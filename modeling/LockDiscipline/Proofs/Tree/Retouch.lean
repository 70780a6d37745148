import LockDiscipline.Proofs.Tree.Numbers
import LockDiscipline.Syntax.Basic
import LockDiscipline.Syntax.Traversal
/-!
# Retouched trees

A tree is retouched by moving its spans, by changing the modifier keywords of its methods and by respelling the
names of its variables, where they are declared and where they stand for themselves. Its shape and its numbers
stay as they are, so that most of what is said of a tree is said of every retouched one as well. The maps on all
kinds of trees are defined together; after the equations for lists and optional parts, the map is told by its
parts alone: `TreeNode.parts_retouch` says that the parts of a retouched construct are its retouched parts, and
so the places in it are the retouched places. What depends on names stays only where these are kept.
-/

namespace LockDiscipline

/-- A change of spans, of the keywords of methods and of the names of variables, which are told by their numbers.
-/
structure Retouch where
  span : Span → Span
  keywords : NodeId → List Keyword → List Keyword
  name : NodeId → String → String := fun _ name => name

/-- Only names are changed. -/
def Retouch.ofNames (name : NodeId → String → String) : Retouch :=
  ⟨id, fun _ keywords => keywords, name⟩

@[simp] theorem Retouch.span_ofNames (name : NodeId → String → String) (span : Span) :
    (ofNames name).span span = span := rfl

@[simp] theorem Retouch.name_ofNames (name : NodeId → String → String) : (ofNames name).name = name := rfl

/-- All names are kept. -/
class Retouch.KeepsNames (retouch : Retouch) : Prop where
  name_eq : ∀ id name, retouch.name id name = name

/-- A bare name spelled in another way. -/
def ExprKind.respell (change : String → String) : ExprKind → ExprKind
  | .name spelled => .name (change spelled)
  | kind => kind

/-- The variable of a loop over elements spelled in another way. -/
def StmtKind.respell (change : String → String) : StmtKind → StmtKind
  | .forEach type name iterated body => .forEach type (change name) iterated body
  | kind => kind

mutual

/-- An expression retouched. -/
def Expr.retouch (retouch : Retouch) : Expr → Expr
  | ⟨id, kind, span⟩ => ⟨id, (kind.retouch retouch).respell (retouch.name id), retouch.span span⟩

/-- An expression of a kind retouched, under the name that it has. -/
def ExprKind.retouch (retouch : Retouch) : ExprKind → ExprKind
  | .int value => .int value
  | .float value => .float value
  | .string text => .string text
  | .char value => .char value
  | .bool value => .bool value
  | .null => .null
  | .name name => .name name
  | .this => .this
  | .super => .super
  | .qualifiedThis type => .qualifiedThis type
  | .classLiteral type => .classLiteral type
  | .select object name => .select (object.retouch retouch) name
  | .call receiver method args => .call (retouchOption retouch receiver) method (retouchExprs retouch args)
  | .new type args body => .new type (retouchExprs retouch args) (retouchClass? retouch body)
  | .newArray element dims init =>
      .newArray element (retouchExprs retouch dims) (retouchExprs? retouch init)
  | .arrayInit items => .arrayInit (retouchExprs retouch items)
  | .index object position => .index (object.retouch retouch) (position.retouch retouch)
  | .unary op operand => .unary op (operand.retouch retouch)
  | .binary op left right => .binary op (left.retouch retouch) (right.retouch retouch)
  | .assign op target value => .assign op (target.retouch retouch) (value.retouch retouch)
  | .conditional cond whenTrue whenFalse =>
      .conditional (cond.retouch retouch) (whenTrue.retouch retouch) (whenFalse.retouch retouch)
  | .instanceOf expr type => .instanceOf (expr.retouch retouch) type
  | .cast type expr => .cast type (expr.retouch retouch)
  | .lambda params body => .lambda params (body.retouch retouch)
  | .methodRef target name => .methodRef (target.retouch retouch) name
  | .paren inner => .paren (inner.retouch retouch)

/-- Expressions retouched. -/
def retouchExprs (retouch : Retouch) : List Expr → List Expr
  | [] => []
  | expr :: rest => expr.retouch retouch :: retouchExprs retouch rest

/-- An expression that may be missing retouched. -/
def retouchOption (retouch : Retouch) : Option Expr → Option Expr
  | none => none
  | some expr => some (expr.retouch retouch)

/-- Expressions that may be missing retouched. -/
def retouchExprs? (retouch : Retouch) : Option (List Expr) → Option (List Expr)
  | none => none
  | some exprs => some (retouchExprs retouch exprs)

/-- The body of a lambda retouched. -/
def LambdaBody.retouch (retouch : Retouch) : LambdaBody → LambdaBody
  | .expr value => .expr (value.retouch retouch)
  | .block body => .block (retouchStmts retouch body)

/-- A statement retouched. -/
def Stmt.retouch (retouch : Retouch) : Stmt → Stmt
  | ⟨id, kind, span⟩ => ⟨id, (kind.retouch retouch).respell (retouch.name id), retouch.span span⟩

/-- A statement of a kind retouched, with the name that it has. -/
def StmtKind.retouch (retouch : Retouch) : StmtKind → StmtKind
  | .expr value => .expr (value.retouch retouch)
  | .localVars type declarators => .localVars type (retouchDeclarators retouch declarators)
  | .block body => .block (retouchStmts retouch body)
  | .ifElse cond whenTrue whenFalse =>
      .ifElse (cond.retouch retouch) (whenTrue.retouch retouch) (retouchStmt? retouch whenFalse)
  | .whileLoop cond body => .whileLoop (cond.retouch retouch) (body.retouch retouch)
  | .doWhile body cond => .doWhile (body.retouch retouch) (cond.retouch retouch)
  | .forLoop init cond update body =>
      .forLoop (retouchStmts retouch init) (retouchOption retouch cond) (retouchExprs retouch update)
        (body.retouch retouch)
  | .forEach type name iterated body =>
      .forEach type name (iterated.retouch retouch) (body.retouch retouch)
  | .return value => .return (retouchOption retouch value)
  | .throw value => .throw (value.retouch retouch)
  | .break label => .break label
  | .continue label => .continue label
  | .tryCatch resources body catches finallyBody =>
      .tryCatch (retouchResources retouch resources) (retouchStmts retouch body)
        (retouchCatches retouch catches) (retouchStmts? retouch finallyBody)
  | .synchronized lock body => .synchronized (lock.retouch retouch) (retouchStmts retouch body)
  | .switch selector cases => .switch (selector.retouch retouch) (retouchCases retouch cases)
  | .labeled label body => .labeled label (body.retouch retouch)
  | .localClass decl => .localClass (decl.retouch retouch)
  | .assert cond message => .assert (cond.retouch retouch) (retouchOption retouch message)
  | .empty => .empty

/-- Statements retouched. -/
def retouchStmts (retouch : Retouch) : List Stmt → List Stmt
  | [] => []
  | stmt :: rest => stmt.retouch retouch :: retouchStmts retouch rest

/-- A statement that may be missing retouched. -/
def retouchStmt? (retouch : Retouch) : Option Stmt → Option Stmt
  | none => none
  | some stmt => some (stmt.retouch retouch)

/-- Statements that may be missing retouched. -/
def retouchStmts? (retouch : Retouch) : Option (List Stmt) → Option (List Stmt)
  | none => none
  | some stmts => some (retouchStmts retouch stmts)

/-- A declarator retouched. -/
def Declarator.retouch (retouch : Retouch) : Declarator → Declarator
  | ⟨id, name, init, span⟩ =>
      ⟨id, retouch.name id name, retouchOption retouch init, retouch.span span⟩

/-- Declarators retouched. -/
def retouchDeclarators (retouch : Retouch) : List Declarator → List Declarator
  | [] => []
  | declarator :: rest => declarator.retouch retouch :: retouchDeclarators retouch rest

/-- A resource retouched. -/
def Resource.retouch (retouch : Retouch) : Resource → Resource
  | ⟨id, type, name, init⟩ => ⟨id, type, name.map (retouch.name id), init.retouch retouch⟩

/-- Resources retouched. -/
def retouchResources (retouch : Retouch) : List Resource → List Resource
  | [] => []
  | resource :: rest => resource.retouch retouch :: retouchResources retouch rest

/-- A handler retouched. -/
def CatchClause.retouch (retouch : Retouch) : CatchClause → CatchClause
  | ⟨id, types, name, body, span⟩ => ⟨id, types, name, retouchStmts retouch body, retouch.span span⟩

/-- Handlers retouched. -/
def retouchCatches (retouch : Retouch) : List CatchClause → List CatchClause
  | [] => []
  | clause :: rest => clause.retouch retouch :: retouchCatches retouch rest

/-- A case retouched. -/
def SwitchCase.retouch (retouch : Retouch) : SwitchCase → SwitchCase
  | ⟨labels, isDefault, body⟩ => ⟨retouchExprs retouch labels, isDefault, retouchStmts retouch body⟩

/-- Cases retouched. -/
def retouchCases (retouch : Retouch) : List SwitchCase → List SwitchCase
  | [] => []
  | case :: rest => case.retouch retouch :: retouchCases retouch rest

/-- A class retouched. -/
def ClassDecl.retouch (retouch : Retouch) : ClassDecl → ClassDecl
  | ⟨id, name, kind, modifiers, typeParams, superclass, interfaces, members, span⟩ =>
      ⟨id, name, kind, modifiers.retouch retouch, typeParams, superclass, interfaces,
        retouchMembers retouch members, retouch.span span⟩

/-- A class that may be missing retouched. -/
def retouchClass? (retouch : Retouch) : Option ClassDecl → Option ClassDecl
  | none => none
  | some decl => some (decl.retouch retouch)

/-- A member retouched. -/
def Member.retouch (retouch : Retouch) : Member → Member
  | ⟨id, kind, span⟩ => ⟨id, kind.retouch retouch, retouch.span span⟩

/-- Members retouched. -/
def retouchMembers (retouch : Retouch) : List Member → List Member
  | [] => []
  | member :: rest => member.retouch retouch :: retouchMembers retouch rest

/-- A member of a kind retouched. -/
def MemberKind.retouch (retouch : Retouch) : MemberKind → MemberKind
  | .field modifiers type declarators =>
      .field (modifiers.retouch retouch) type (retouchDeclarators retouch declarators)
  | .method decl => .method (decl.retouch retouch)
  | .initializer isStatic body => .initializer isStatic (retouchStmts retouch body)
  | .classDecl decl => .classDecl (decl.retouch retouch)
  | .enumConstant name args body =>
      .enumConstant name (retouchExprs retouch args) (retouchClass? retouch body)

/-- A method retouched. -/
def MethodDecl.retouch (retouch : Retouch) : MethodDecl → MethodDecl
  | ⟨id, name, modifiers, typeParams, returnType, params, throws, body, span⟩ =>
      ⟨id, name,
        { modifiers.retouch retouch with keywords := retouch.keywords id modifiers.keywords },
        typeParams, returnType, retouchParams retouch params, throws, retouchStmts? retouch body,
        retouch.span span⟩

/-- A parameter retouched. -/
def Param.retouch (retouch : Retouch) : Param → Param
  | ⟨id, name, type, modifiers, isVarargs, span⟩ =>
      ⟨id, name, type, modifiers.retouch retouch, isVarargs, retouch.span span⟩

/-- Parameters retouched. -/
def retouchParams (retouch : Retouch) : List Param → List Param
  | [] => []
  | param :: rest => param.retouch retouch :: retouchParams retouch rest

/-- Modifiers retouched, of anything but a method. -/
def Modifiers.retouch (retouch : Retouch) : Modifiers → Modifiers
  | ⟨keywords, annotations⟩ => ⟨keywords, retouchUses retouch annotations⟩

/-- A use of an annotation retouched. -/
def AnnotationUse.retouch (retouch : Retouch) : AnnotationUse → AnnotationUse
  | ⟨name, args, span⟩ => ⟨name, retouchArgs retouch args, retouch.span span⟩

/-- Uses of annotations retouched. -/
def retouchUses (retouch : Retouch) : List AnnotationUse → List AnnotationUse
  | [] => []
  | use :: rest => use.retouch retouch :: retouchUses retouch rest

/-- An argument of an annotation retouched. -/
def AnnotationArg.retouch (retouch : Retouch) : AnnotationArg → AnnotationArg
  | ⟨name, value⟩ => ⟨name, value.retouch retouch⟩

/-- Arguments of an annotation retouched. -/
def retouchArgs (retouch : Retouch) : List AnnotationArg → List AnnotationArg
  | [] => []
  | arg :: rest => arg.retouch retouch :: retouchArgs retouch rest

end

/-! ### Lists and what may be missing -/

section Maps

variable (retouch : Retouch)

@[simp] theorem retouchExprs_eq (exprs : List Expr) :
    retouchExprs retouch exprs = exprs.map (·.retouch retouch) := by
  induction exprs with
  | nil => rfl
  | cons first rest ih => rw [retouchExprs, ih, List.map_cons]

@[simp] theorem retouchStmts_eq (stmts : List Stmt) :
    retouchStmts retouch stmts = stmts.map (·.retouch retouch) := by
  induction stmts with
  | nil => rfl
  | cons first rest ih => rw [retouchStmts, ih, List.map_cons]

@[simp] theorem retouchDeclarators_eq (declarators : List Declarator) :
    retouchDeclarators retouch declarators = declarators.map (·.retouch retouch) := by
  induction declarators with
  | nil => rfl
  | cons first rest ih => rw [retouchDeclarators, ih, List.map_cons]

@[simp] theorem retouchResources_eq (resources : List Resource) :
    retouchResources retouch resources = resources.map (·.retouch retouch) := by
  induction resources with
  | nil => rfl
  | cons first rest ih => rw [retouchResources, ih, List.map_cons]

@[simp] theorem retouchCatches_eq (catches : List CatchClause) :
    retouchCatches retouch catches = catches.map (·.retouch retouch) := by
  induction catches with
  | nil => rfl
  | cons first rest ih => rw [retouchCatches, ih, List.map_cons]

@[simp] theorem retouchCases_eq (cases : List SwitchCase) :
    retouchCases retouch cases = cases.map (·.retouch retouch) := by
  induction cases with
  | nil => rfl
  | cons first rest ih => rw [retouchCases, ih, List.map_cons]

@[simp] theorem retouchMembers_eq (members : List Member) :
    retouchMembers retouch members = members.map (·.retouch retouch) := by
  induction members with
  | nil => rfl
  | cons first rest ih => rw [retouchMembers, ih, List.map_cons]

@[simp] theorem retouchParams_eq (params : List Param) :
    retouchParams retouch params = params.map (·.retouch retouch) := by
  induction params with
  | nil => rfl
  | cons first rest ih => rw [retouchParams, ih, List.map_cons]

@[simp] theorem retouchUses_eq (uses : List AnnotationUse) :
    retouchUses retouch uses = uses.map (·.retouch retouch) := by
  induction uses with
  | nil => rfl
  | cons first rest ih => rw [retouchUses, ih, List.map_cons]

@[simp] theorem retouchArgs_eq (args : List AnnotationArg) :
    retouchArgs retouch args = args.map (·.retouch retouch) := by
  induction args with
  | nil => rfl
  | cons first rest ih => rw [retouchArgs, ih, List.map_cons]

@[simp] theorem retouchOption_eq (expr : Option Expr) :
    retouchOption retouch expr = expr.map (·.retouch retouch) := by
  cases expr <;> rfl

@[simp] theorem retouchStmt?_eq (stmt : Option Stmt) :
    retouchStmt? retouch stmt = stmt.map (·.retouch retouch) := by
  cases stmt <;> rfl

@[simp] theorem retouchClass?_eq (decl : Option ClassDecl) :
    retouchClass? retouch decl = decl.map (·.retouch retouch) := by
  cases decl <;> rfl

@[simp] theorem retouchExprs?_eq (exprs : Option (List Expr)) :
    retouchExprs? retouch exprs = exprs.map (·.map (·.retouch retouch)) := by
  cases exprs with
  | none => rfl
  | some exprs => rw [retouchExprs?, retouchExprs_eq, Option.map_some]

@[simp] theorem retouchStmts?_eq (stmts : Option (List Stmt)) :
    retouchStmts? retouch stmts = stmts.map (·.map (·.retouch retouch)) := by
  cases stmts with
  | none => rfl
  | some stmts => rw [retouchStmts?, retouchStmts_eq, Option.map_some]

end Maps

/-! ### Constructs and their parts -/

/-- A body of code retouched. -/
def UnitBody.retouch (retouch : Retouch) : UnitBody → UnitBody
  | .method decl => .method (decl.retouch retouch)
  | .initializer body => .initializer (body.map (·.retouch retouch))
  | .lambda body => .lambda (body.retouch retouch)

/-- A role retouched. -/
def PartRole.retouch (retouch : Retouch) : PartRole → PartRole
  | .holding lock => .holding (lock.retouch retouch)
  | .protectedBy finallyBody => .protectedBy (finallyBody.map (·.map (·.retouch retouch)))
  | role => role

/-- A construct retouched. -/
def TreeNode.retouch (retouch : Retouch) : TreeNode → TreeNode
  | .expr node => .expr (node.retouch retouch)
  | .stmt node => .stmt (node.retouch retouch)
  | .declarator node => .declarator (node.retouch retouch)
  | .resource node => .resource (node.retouch retouch)
  | .catchClause node => .catchClause (node.retouch retouch)
  | .switchCase node => .switchCase (node.retouch retouch)
  | .classDecl node => .classDecl (node.retouch retouch)
  | .member node => .member (node.retouch retouch)
  | .param node => .param (node.retouch retouch)
  | .code body => .code (body.retouch retouch)

/-- A part retouched. -/
def Part.retouch (retouch : Retouch) (part : Part) : Part :=
  ⟨part.role.retouch retouch, part.node.retouch retouch⟩

/-- A compilation unit retouched. -/
def CompilationUnit.retouch (retouch : Retouch) (unit : CompilationUnit) : CompilationUnit :=
  { unit with
    imports := unit.imports.map fun decl => { decl with span := retouch.span decl.span }
    types := unit.types.map (·.retouch retouch) }

namespace Part

variable (retouch : Retouch)

@[simp] theorem retouch_mk (role : PartRole) (node : TreeNode) :
    (⟨role, node⟩ : Part).retouch retouch = ⟨role.retouch retouch, node.retouch retouch⟩ := rfl

@[simp] theorem map_exprParts (role : PartRole) (exprs : List Expr) :
    (exprParts role exprs).map (·.retouch retouch) =
      exprParts (role.retouch retouch) (exprs.map (·.retouch retouch)) := by
  simp [exprParts, TreeNode.retouch]

@[simp] theorem map_stmtParts (role : PartRole) (stmts : List Stmt) :
    (stmtParts role stmts).map (·.retouch retouch) =
      stmtParts (role.retouch retouch) (stmts.map (·.retouch retouch)) := by
  simp [stmtParts, TreeNode.retouch]

end Part

/-! ### Names -/

section Names

@[simp] theorem Retouch.name_eq (retouch : Retouch) [retouch.KeepsNames] (id : NodeId) (name : String) :
    retouch.name id name = name :=
  KeepsNames.name_eq id name

theorem ExprKind.respell_of_id {change : String → String} (h : ∀ name, change name = name) (kind : ExprKind) :
    kind.respell change = kind := by
  cases kind with
  | name spelled => rw [respell, h]
  | _ => rfl

theorem StmtKind.respell_of_id {change : String → String} (h : ∀ name, change name = name) (kind : StmtKind) :
    kind.respell change = kind := by
  cases kind with
  | forEach type name iterated body => rw [respell, h]
  | _ => rfl

variable (change : String → String)

@[simp] theorem ExprKind.parts_respell (kind : ExprKind) : (kind.respell change).parts = kind.parts := by
  cases kind <;> rfl

@[simp] theorem StmtKind.parts_respell (kind : StmtKind) : (kind.respell change).parts = kind.parts := by
  cases kind <;> rfl

@[simp] theorem ExprKind.visited_respell (kind : ExprKind) : (kind.respell change).visited = kind.visited := by
  cases kind <;> rfl

@[simp] theorem StmtKind.visited_respell (kind : StmtKind) : (kind.respell change).visited = kind.visited := by
  cases kind <;> rfl

variable (retouch : Retouch) [retouch.KeepsNames]

@[simp] theorem Expr.retouch_mk (id : NodeId) (kind : ExprKind) (span : Span) :
    Expr.retouch retouch ⟨id, kind, span⟩ = ⟨id, kind.retouch retouch, retouch.span span⟩ := by
  rw [Expr.retouch, ExprKind.respell_of_id (retouch.name_eq id)]

@[simp] theorem Stmt.retouch_mk (id : NodeId) (kind : StmtKind) (span : Span) :
    Stmt.retouch retouch ⟨id, kind, span⟩ = ⟨id, kind.retouch retouch, retouch.span span⟩ := by
  rw [Stmt.retouch, StmtKind.respell_of_id (retouch.name_eq id)]

@[simp] theorem Declarator.retouch_mk (id : NodeId) (name : String) (init : Option Expr) (span : Span) :
    Declarator.retouch retouch ⟨id, name, init, span⟩ =
      ⟨id, name, init.map (·.retouch retouch), retouch.span span⟩ := by
  rw [Declarator.retouch, retouch.name_eq, retouchOption_eq]

@[simp] theorem Resource.retouch_mk (id : NodeId) (type name : Option String) (init : Expr) :
    Resource.retouch retouch ⟨id, type, name, init⟩ = ⟨id, type, name, init.retouch retouch⟩ := by
  cases name with
  | none => rfl
  | some name => rw [Resource.retouch, Option.map_some, retouch.name_eq]

@[simp] theorem Expr.kind_retouch_of_keepsNames (expr : Expr) :
    (expr.retouch retouch).kind = expr.kind.retouch retouch := by
  obtain ⟨id, kind, span⟩ := expr
  rw [Expr.retouch_mk]

end Names

section Fields

variable (retouch : Retouch)

@[simp] theorem Expr.id_retouch (expr : Expr) : (expr.retouch retouch).id = expr.id := by
  cases expr
  rfl

theorem Expr.kind_retouch (expr : Expr) :
    (expr.retouch retouch).kind = (expr.kind.retouch retouch).respell (retouch.name expr.id) := by
  cases expr
  rfl

@[simp] theorem Expr.span_retouch (expr : Expr) :
    (expr.retouch retouch).span = retouch.span expr.span := by
  cases expr
  rfl

@[simp] theorem Stmt.id_retouch (stmt : Stmt) : (stmt.retouch retouch).id = stmt.id := by
  cases stmt
  rfl

theorem Stmt.kind_retouch (stmt : Stmt) :
    (stmt.retouch retouch).kind = (stmt.kind.retouch retouch).respell (retouch.name stmt.id) := by
  cases stmt
  rfl

@[simp] theorem Declarator.id_retouch (declarator : Declarator) :
    (declarator.retouch retouch).id = declarator.id := by
  cases declarator
  rfl

@[simp] theorem Declarator.name_retouch (declarator : Declarator) :
    (declarator.retouch retouch).name = retouch.name declarator.id declarator.name := by
  cases declarator
  rfl

@[simp] theorem Declarator.init_retouch (declarator : Declarator) :
    (declarator.retouch retouch).init = declarator.init.map (·.retouch retouch) := by
  cases declarator
  simp [Declarator.retouch]

@[simp] theorem Declarator.span_retouch (declarator : Declarator) :
    (declarator.retouch retouch).span = retouch.span declarator.span := by
  cases declarator
  rfl

@[simp] theorem Resource.init_retouch (resource : Resource) :
    (resource.retouch retouch).init = resource.init.retouch retouch := by
  cases resource
  rfl

@[simp] theorem CatchClause.body_retouch (clause : CatchClause) :
    (clause.retouch retouch).body = clause.body.map (·.retouch retouch) := by
  cases clause
  simp [CatchClause.retouch]

@[simp] theorem SwitchCase.labels_retouch (case : SwitchCase) :
    (case.retouch retouch).labels = case.labels.map (·.retouch retouch) := by
  cases case
  simp [SwitchCase.retouch]

@[simp] theorem SwitchCase.body_retouch (case : SwitchCase) :
    (case.retouch retouch).body = case.body.map (·.retouch retouch) := by
  cases case
  simp [SwitchCase.retouch]

@[simp] theorem ClassDecl.id_retouch (decl : ClassDecl) : (decl.retouch retouch).id = decl.id := by
  cases decl
  rfl

@[simp] theorem ClassDecl.name_retouch (decl : ClassDecl) :
    (decl.retouch retouch).name = decl.name := by
  cases decl
  rfl

@[simp] theorem ClassDecl.kind_retouch (decl : ClassDecl) :
    (decl.retouch retouch).kind = decl.kind := by
  cases decl
  rfl

@[simp] theorem ClassDecl.modifiers_retouch (decl : ClassDecl) :
    (decl.retouch retouch).modifiers = decl.modifiers.retouch retouch := by
  cases decl
  rfl

@[simp] theorem ClassDecl.members_retouch (decl : ClassDecl) :
    (decl.retouch retouch).members = decl.members.map (·.retouch retouch) := by
  cases decl
  simp [ClassDecl.retouch]

@[simp] theorem ClassDecl.span_retouch (decl : ClassDecl) :
    (decl.retouch retouch).span = retouch.span decl.span := by
  cases decl
  rfl

@[simp] theorem Member.kind_retouch (member : Member) :
    (member.retouch retouch).kind = member.kind.retouch retouch := by
  cases member
  rfl

@[simp] theorem MethodDecl.id_retouch (decl : MethodDecl) :
    (decl.retouch retouch).id = decl.id := by
  cases decl
  rfl

@[simp] theorem MethodDecl.params_retouch (decl : MethodDecl) :
    (decl.retouch retouch).params = decl.params.map (·.retouch retouch) := by
  cases decl
  simp [MethodDecl.retouch]

@[simp] theorem MethodDecl.body_retouch (decl : MethodDecl) :
    (decl.retouch retouch).body = decl.body.map (·.map (·.retouch retouch)) := by
  cases decl
  simp [MethodDecl.retouch]

@[simp] theorem Param.modifiers_retouch (param : Param) :
    (param.retouch retouch).modifiers = param.modifiers.retouch retouch := by
  cases param
  rfl

@[simp] theorem Modifiers.keywords_retouch (modifiers : Modifiers) :
    (modifiers.retouch retouch).keywords = modifiers.keywords := by
  cases modifiers
  rfl

@[simp] theorem Modifiers.annotations_retouch (modifiers : Modifiers) :
    (modifiers.retouch retouch).annotations = modifiers.annotations.map (·.retouch retouch) := by
  cases modifiers
  simp [Modifiers.retouch]

@[simp] theorem AnnotationUse.name_retouch (use : AnnotationUse) :
    (use.retouch retouch).name = use.name := by
  cases use
  rfl

@[simp] theorem AnnotationUse.args_retouch (use : AnnotationUse) :
    (use.retouch retouch).args = use.args.map (·.retouch retouch) := by
  cases use
  simp [AnnotationUse.retouch]

@[simp] theorem AnnotationUse.span_retouch (use : AnnotationUse) :
    (use.retouch retouch).span = retouch.span use.span := by
  cases use
  rfl

@[simp] theorem AnnotationArg.name_retouch (arg : AnnotationArg) :
    (arg.retouch retouch).name = arg.name := by
  cases arg
  rfl

@[simp] theorem AnnotationArg.value_retouch (arg : AnnotationArg) :
    (arg.retouch retouch).value = arg.value.retouch retouch := by
  cases arg
  rfl

end Fields

section Parts

variable (retouch : Retouch)

@[simp] theorem AnnotationUse.values_retouch (use : AnnotationUse) :
    (use.retouch retouch).values = use.values.map (·.retouch retouch) := by
  simp [values]

@[simp] theorem Modifiers.parts_retouch (modifiers : Modifiers) :
    (modifiers.retouch retouch).parts = modifiers.parts.map (·.retouch retouch) := by
  simp [parts, List.flatMap_map, List.map_flatMap, PartRole.retouch]

theorem MethodDecl.parts_retouch (decl : MethodDecl) :
    (decl.retouch retouch).modifiers.parts = decl.modifiers.parts.map (·.retouch retouch) := by
  cases decl
  exact Modifiers.parts_retouch retouch _

theorem ExprKind.parts_retouch (kind : ExprKind) :
    (kind.retouch retouch).parts = kind.parts.map (·.retouch retouch) := by
  cases kind with
  | call receiver method args => cases receiver <;> simp [ExprKind.retouch, parts, PartRole.retouch]
  | new type args body =>
      cases body <;> simp [ExprKind.retouch, parts, nestedPart, TreeNode.retouch, PartRole.retouch]
  | newArray element dims init => cases init <;> simp [ExprKind.retouch, parts, PartRole.retouch]
  | lambda params body => rfl
  | _ => simp [ExprKind.retouch, parts, PartRole.retouch]

theorem StmtKind.parts_retouch (kind : StmtKind) :
    (kind.retouch retouch).parts = kind.parts.map (·.retouch retouch) := by
  cases kind with
  | tryCatch resources body catches finallyBody =>
      cases finallyBody <;>
        simp [StmtKind.retouch, parts, TreeNode.retouch, Function.comp_def, PartRole.retouch]
  | ifElse cond whenTrue whenFalse => cases whenFalse <;> simp [StmtKind.retouch, parts, PartRole.retouch]
  | forLoop init cond update body => cases cond <;> simp [StmtKind.retouch, parts, PartRole.retouch]
  | «return» value => cases value <;> simp [StmtKind.retouch, parts, PartRole.retouch]
  | assert cond message => cases message <;> simp [StmtKind.retouch, parts, PartRole.retouch]
  | localClass decl => rfl
  | _ => simp [StmtKind.retouch, parts, TreeNode.retouch, PartRole.retouch]

theorem MemberKind.parts_retouch (kind : MemberKind) :
    (kind.retouch retouch).parts = kind.parts.map (·.retouch retouch) := by
  cases kind with
  | enumConstant name args body =>
      cases body <;> simp [MemberKind.retouch, parts, nestedPart, TreeNode.retouch, PartRole.retouch]
  | _ =>
      simp [MemberKind.retouch, parts, TreeNode.retouch, MethodDecl.parts_retouch, UnitBody.retouch,
        PartRole.retouch]

theorem UnitBody.parts_retouch (body : UnitBody) :
    (body.retouch retouch).parts = body.parts.map (·.retouch retouch) := by
  cases body with
  | method decl => cases hbody : decl.body <;> simp [UnitBody.retouch, parts, hbody, PartRole.retouch]
  | initializer body => simp [UnitBody.retouch, parts, PartRole.retouch]
  | lambda body => cases body <;> simp [UnitBody.retouch, LambdaBody.retouch, parts, PartRole.retouch]

/-- The parts of a retouched construct are its retouched parts. -/
theorem TreeNode.parts_retouch (node : TreeNode) :
    (node.retouch retouch).parts = node.parts.map (·.retouch retouch) := by
  cases node with
  | expr node => simp [TreeNode.retouch, parts, Expr.kind_retouch, ExprKind.parts_retouch]
  | stmt node => simp [TreeNode.retouch, parts, Stmt.kind_retouch, StmtKind.parts_retouch]
  | declarator node => cases hinit : node.init <;> simp [TreeNode.retouch, parts, hinit, PartRole.retouch]
  | member node => simp [TreeNode.retouch, parts, MemberKind.parts_retouch]
  | code body => simp [TreeNode.retouch, parts, UnitBody.parts_retouch]
  | _ => simp [TreeNode.retouch, parts, PartRole.retouch]

end Parts

/-! ### Names, keywords and guards -/

namespace Retouch

variable (retouch : Retouch)

@[simp] theorem has_modifiers (modifiers : Modifiers) (keyword : Keyword) :
    (modifiers.retouch retouch).has keyword = modifiers.has keyword := by
  rw [Modifiers.has, Modifiers.keywords_retouch, Modifiers.has]

@[simp] theorem simpleName_use (use : AnnotationUse) :
    (use.retouch retouch).simpleName = use.simpleName := by
  rw [AnnotationUse.simpleName, AnnotationUse.name_retouch, AnnotationUse.simpleName]

@[simp] theorem value?_use (use : AnnotationUse) : (use.retouch retouch).value? = use.value? := by
  have harg : (use.retouch retouch).valueArg? = use.valueArg?.map (·.retouch retouch) := by
    rw [AnnotationUse.valueArg?, AnnotationUse.args_retouch, List.find?_map, AnnotationUse.valueArg?]
    simp only [Function.comp_def, AnnotationArg.name_retouch]
  rw [AnnotationUse.value?, AnnotationUse.value?, harg]
  cases use.valueArg? with
  | none => rfl
  | some arg =>
      obtain ⟨name, id, kind, span⟩ := arg
      cases kind <;> rfl

theorem guardUse?_of_annotations {modifiers modifiers' : Modifiers}
    (h : modifiers'.annotations = modifiers.annotations.map (·.retouch retouch)) :
    modifiers'.guardUse? = modifiers.guardUse?.map (·.retouch retouch) := by
  rw [Modifiers.guardUse?, h, List.find?_map, Modifiers.guardUse?]
  simp only [Function.comp_def, simpleName_use]

theorem guardedBy?_of_annotations {modifiers modifiers' : Modifiers}
    (h : modifiers'.annotations = modifiers.annotations.map (·.retouch retouch)) :
    modifiers'.guardedBy? = modifiers.guardedBy? := by
  rw [Modifiers.guardedBy?, guardUse?_of_annotations retouch h, Modifiers.guardedBy?]
  cases modifiers.guardUse? with
  | none => rfl
  | some use => exact value?_use retouch use

@[simp] theorem dottedName?_expr [retouch.KeepsNames] :
    ∀ expr : Expr, (expr.retouch retouch).dottedName? = expr.dottedName?
  | ⟨_, .select object name, _⟩ => by
      simp only [Expr.retouch_mk, ExprKind.retouch, Expr.dottedName?, dottedName?_expr object]
  | ⟨_, .name name, _⟩ => by rw [Expr.retouch_mk, ExprKind.retouch, Expr.dottedName?, Expr.dottedName?]
  | ⟨_, .int _, _⟩ | ⟨_, .float _, _⟩ | ⟨_, .string _, _⟩ | ⟨_, .char _, _⟩ | ⟨_, .bool _, _⟩
  | ⟨_, .null, _⟩ | ⟨_, .this, _⟩ | ⟨_, .super, _⟩ | ⟨_, .qualifiedThis _, _⟩
  | ⟨_, .classLiteral _, _⟩ | ⟨_, .call .., _⟩ | ⟨_, .new .., _⟩ | ⟨_, .newArray .., _⟩
  | ⟨_, .arrayInit _, _⟩ | ⟨_, .index .., _⟩ | ⟨_, .unary .., _⟩ | ⟨_, .binary .., _⟩
  | ⟨_, .assign .., _⟩ | ⟨_, .conditional .., _⟩ | ⟨_, .instanceOf .., _⟩ | ⟨_, .cast .., _⟩
  | ⟨_, .lambda .., _⟩ | ⟨_, .methodRef .., _⟩ | ⟨_, .paren _, _⟩ => rfl

@[simp] theorem guardedBy?_modifiers (modifiers : Modifiers) :
    (modifiers.retouch retouch).guardedBy? = modifiers.guardedBy? :=
  guardedBy?_of_annotations retouch (modifiers.annotations_retouch retouch)

end Retouch

/-! ### Places -/

/-- A step retouched. -/
def PathStep.retouch (retouch : Retouch) (step : PathStep) : PathStep :=
  { step with role := step.role.retouch retouch }

/-- A place retouched. -/
def Place.retouch (retouch : Retouch) (place : Place) : Place :=
  ⟨place.path.map (·.retouch retouch), place.node.retouch retouch⟩

/-- The places in a retouched construct are the retouched places. -/
theorem TreeNode.places_retouch (retouch : Retouch) (node : TreeNode) :
    (node.retouch retouch).places = node.places.map (·.retouch retouch) := by
  have hinner : ∀ entry ∈ node.parts.zipIdx,
      (entry.1.node.retouch retouch).places = entry.1.node.places.map (·.retouch retouch) := by
    intro entry hentry
    have hsize := sizeOf_part_lt (List.fst_mem_of_mem_zipIdx hentry)
    exact places_retouch retouch entry.1.node
  have hunder (step : PathStep) (places : List Place) :
      (places.map (·.retouch retouch)).map (Place.under (step.retouch retouch)) =
        (places.map (Place.under step)).map (·.retouch retouch) := by
    rw [List.map_map, List.map_map]
    rfl
  rw [places_eq, places_eq, parts_retouch, List.map_cons, placesFrom, placesFrom, List.zipIdx_map,
    List.flatMap_map, List.map_flatMap]
  congr 1
  apply List.flatMap_congr
  intro entry hentry
  calc ((entry.1.node.retouch retouch).places).map (Place.under ⟨entry.2, entry.1.role.retouch retouch⟩)
    _ = (entry.1.node.places.map (·.retouch retouch)).map
          (Place.under ⟨entry.2, entry.1.role.retouch retouch⟩) := by rw [hinner entry hentry]
    _ = _ := hunder ⟨entry.2, entry.1.role⟩ entry.1.node.places
termination_by sizeOf node

@[simp] theorem TreeNode.ownIds_retouch (retouch : Retouch) (node : TreeNode) :
    (node.retouch retouch).ownIds = node.ownIds := by
  cases node with
  | member node =>
      obtain ⟨id, kind, span⟩ := node
      cases kind <;> simp [TreeNode.retouch, Member.retouch, MemberKind.retouch, ownIds]
  | expr node | stmt node | declarator node | classDecl node => simp [TreeNode.retouch, ownIds]
  | resource node | catchClause node | param node =>
      cases node
      rfl
  | switchCase node => rfl
  | code body => rfl

@[simp] theorem TreeNode.numbers_retouch (retouch : Retouch) (node : TreeNode) :
    (node.retouch retouch).numbers = node.numbers := by
  rw [numbers, places_retouch, List.flatMap_map, numbers]
  apply List.flatMap_congr
  intro place _
  exact place.node.ownIds_retouch retouch

/-- A retouched unit has the numbers of the unit. -/
@[simp] theorem CompilationUnit.numbers_retouch (retouch : Retouch) (unit : CompilationUnit) :
    (unit.retouch retouch).numbers = unit.numbers := by
  have hclass (decl : ClassDecl) : (TreeNode.classDecl (decl.retouch retouch)).numbers =
      (TreeNode.classDecl decl).numbers :=
    TreeNode.numbers_retouch retouch (.classDecl decl)
  simp only [numbers, parts, CompilationUnit.retouch, TreeNode.numbersOf, List.map_map, List.flatMap_map,
    Function.comp_def, hclass]

/-! ### Visits -/

/-- A visited node retouched. -/
def SyntaxNode.retouch (retouch : Retouch) : SyntaxNode → SyntaxNode
  | .expr node => .expr (node.retouch retouch)
  | .stmt node => .stmt (node.retouch retouch)

section Visits

variable (retouch : Retouch)

mutual

theorem visited_retouch_expr : ∀ expr : Expr,
    (expr.retouch retouch).visited = expr.visited.map (·.retouch retouch)
  | ⟨id, kind, span⟩ => by
      simp only [Expr.retouch, Expr.visited, ExprKind.visited_respell, visited_retouch_exprKind kind,
        List.map_cons]

theorem visited_retouch_exprKind : ∀ kind : ExprKind,
    (kind.retouch retouch).visited = kind.visited.map (·.retouch retouch)
  | .select object _ | .unary _ object | .instanceOf object _ | .cast _ object | .methodRef object _
  | .paren object => visited_retouch_expr object
  | .call receiver _ args => by
      simp only [ExprKind.retouch, ExprKind.visited, visited_retouch_option receiver,
        visited_retouch_exprs args, List.map_append]
  | .new _ args _ | .newArray _ args none | .arrayInit args => visited_retouch_exprs args
  | .newArray _ dims (some items) => by
      simp only [ExprKind.retouch, retouchExprs?, ExprKind.visited, visited_retouch_exprs dims,
        visited_retouch_exprs items, List.map_append]
  | .index left right | .binary _ left right | .assign _ left right => by
      simp only [ExprKind.retouch, ExprKind.visited, visited_retouch_expr left,
        visited_retouch_expr right, List.map_append]
  | .conditional cond whenTrue whenFalse => by
      simp only [ExprKind.retouch, ExprKind.visited, visited_retouch_expr cond,
        visited_retouch_expr whenTrue, visited_retouch_expr whenFalse, List.map_append]
  | .int _ | .float _ | .string _ | .char _ | .bool _ | .null | .name _ | .this | .super
  | .qualifiedThis _ | .classLiteral _ | .lambda _ _ => rfl

theorem visited_retouch_exprs : ∀ exprs : List Expr,
    visitedExprs (retouchExprs retouch exprs) = (visitedExprs exprs).map (·.retouch retouch)
  | [] => rfl
  | expr :: rest => by
      simp only [retouchExprs, visitedExprs, visited_retouch_expr expr, visited_retouch_exprs rest,
        List.map_append]

theorem visited_retouch_option : ∀ expr : Option Expr,
    visitedOption (retouchOption retouch expr) = (visitedOption expr).map (·.retouch retouch)
  | none => rfl
  | some expr => visited_retouch_expr expr

end

theorem exprNodes_retouch (expr : Option Expr) :
    exprNodes (retouchOption retouch expr) = (exprNodes expr).map (·.retouch retouch) := by
  simp only [exprNodes, visited_retouch_option, List.map_map]
  rfl

private theorem map_expr_retouch (exprs : List Expr) :
    (exprs.map (·.retouch retouch)).map SyntaxNode.expr =
      (exprs.map SyntaxNode.expr).map (·.retouch retouch) := by
  rw [List.map_map, List.map_map]
  rfl

private theorem visited_retouch_declarators (declarators : List Declarator) :
    (retouchDeclarators retouch declarators).flatMap (fun declarator => exprNodes declarator.init) =
      (declarators.flatMap fun declarator => exprNodes declarator.init).map (·.retouch retouch) := by
  rw [retouchDeclarators_eq, List.flatMap_map, List.map_flatMap]
  simp only [Declarator.init_retouch, ← retouchOption_eq, exprNodes_retouch]

private theorem visited_retouch_resources (resources : List Resource) :
    visitedExprs ((retouchResources retouch resources).map (·.init)) =
      (visitedExprs (resources.map (·.init))).map (·.retouch retouch) := by
  rw [← visited_retouch_exprs, retouchResources_eq, retouchExprs_eq, List.map_map, List.map_map]
  simp only [Function.comp_def, Resource.init_retouch]

mutual

theorem visited_retouch_stmt : ∀ stmt : Stmt,
    (stmt.retouch retouch).visited = stmt.visited.map (·.retouch retouch)
  | ⟨id, kind, span⟩ => by
      simp only [Stmt.retouch, Stmt.visited, StmtKind.visited_respell, visited_retouch_stmtKind kind,
        List.map_cons, SyntaxNode.retouch]

theorem visited_retouch_stmtKind : ∀ kind : StmtKind,
    (kind.retouch retouch).visited = kind.visited.map (·.retouch retouch)
  | .expr value | .throw value => by
      simp only [StmtKind.retouch, StmtKind.visited, visited_retouch_expr, map_expr_retouch]
  | .localVars _ declarators => visited_retouch_declarators retouch declarators
  | .block body => visited_retouch_stmts body
  | .ifElse cond whenTrue none => by
      simp only [StmtKind.retouch, retouchStmt?, StmtKind.visited, visited_retouch_expr,
        map_expr_retouch, visited_retouch_stmt whenTrue, List.map_append]
  | .ifElse cond whenTrue (some whenFalse) => by
      simp only [StmtKind.retouch, retouchStmt?, StmtKind.visited, visited_retouch_expr,
        map_expr_retouch, visited_retouch_stmt whenTrue, visited_retouch_stmt whenFalse, List.map_append]
  | .whileLoop cond body | .doWhile body cond | .forEach _ _ cond body => by
      simp only [StmtKind.retouch, StmtKind.visited, visited_retouch_expr, map_expr_retouch,
        visited_retouch_stmt body, List.map_append]
  | .forLoop init cond update body => by
      simp only [StmtKind.retouch, StmtKind.visited, visited_retouch_stmts init, exprNodes_retouch,
        visited_retouch_exprs, map_expr_retouch, visited_retouch_stmt body, List.map_append]
  | .return value => exprNodes_retouch retouch value
  | .tryCatch resources body catches none => by
      simp only [StmtKind.retouch, retouchStmts?, StmtKind.visited, visited_retouch_resources,
        map_expr_retouch, visited_retouch_stmts body, visited_retouch_catches catches, List.map_append]
  | .tryCatch resources body catches (some finallyBody) => by
      simp only [StmtKind.retouch, retouchStmts?, StmtKind.visited, visited_retouch_resources,
        map_expr_retouch, visited_retouch_stmts body, visited_retouch_catches catches,
        visited_retouch_stmts finallyBody, List.map_append]
  | .synchronized lock body => by
      simp only [StmtKind.retouch, StmtKind.visited, visited_retouch_expr, map_expr_retouch,
        visited_retouch_stmts body, List.map_append]
  | .switch selector cases => by
      simp only [StmtKind.retouch, StmtKind.visited, visited_retouch_expr, map_expr_retouch,
        visited_retouch_cases cases, List.map_append]
  | .labeled _ body => visited_retouch_stmt body
  | .assert cond message => by
      simp only [StmtKind.retouch, StmtKind.visited, visited_retouch_expr, map_expr_retouch,
        exprNodes_retouch, List.map_append]
  | .localClass _ | .break _ | .continue _ | .empty => rfl

theorem visited_retouch_stmts : ∀ stmts : List Stmt,
    visitedStmts (retouchStmts retouch stmts) = (visitedStmts stmts).map (·.retouch retouch)
  | [] => rfl
  | stmt :: rest => by
      simp only [retouchStmts, visitedStmts, visited_retouch_stmt stmt, visited_retouch_stmts rest,
        List.map_append]

theorem visited_retouch_catches : ∀ catches : List CatchClause,
    visitedCatches (retouchCatches retouch catches) = (visitedCatches catches).map (·.retouch retouch)
  | [] => rfl
  | ⟨_, _, _, body, _⟩ :: rest => by
      simp only [retouchCatches, CatchClause.retouch, visitedCatches, visited_retouch_stmts body,
        visited_retouch_catches rest, List.map_append]

theorem visited_retouch_cases : ∀ cases : List SwitchCase,
    visitedCases (retouchCases retouch cases) = (visitedCases cases).map (·.retouch retouch)
  | [] => rfl
  | ⟨_, _, body⟩ :: rest => by
      simp only [retouchCases, SwitchCase.retouch, visitedCases, visited_retouch_stmts body,
        visited_retouch_cases rest, List.map_append]

end

/-- The expressions in retouched statements are the retouched expressions. -/
theorem exprsIn_retouch (body : List Stmt) :
    exprsIn (body.map (·.retouch retouch)) = (exprsIn body).map (·.retouch retouch) := by
  rw [exprsIn, ← retouchStmts_eq, visited_retouch_stmts, List.filterMap_map, exprsIn, List.map_filterMap]
  congr 1
  funext node
  cases node <;> rfl

end Visits
end LockDiscipline
