import LockDiscipline.Check.CodeUnit
/-!
# Constructs and their parts

The analyses go through syntax trees in different ways, but they go through the same trees. Here
each construct of a tree is told its parts, once and one level deep, in the order in which they are
visited, each with the role that it has in the construct. What lies inside a construct is then
defined by following parts, and an analysis is described by the roles at which it stops.
-/

namespace LockDiscipline

/-- A construct of a syntax tree. -/
inductive TreeNode where
  | expr (node : Expr)
  | stmt (node : Stmt)
  | declarator (node : Declarator)
  | resource (node : Resource)
  | catchClause (node : CatchClause)
  | switchCase (node : SwitchCase)
  | classDecl (node : ClassDecl)
  | member (node : Member)
  | param (node : Param)
  /-- The body of a method, an initializer or a lambda. -/
  | code (body : UnitBody)

/-- What a part is to the construct around it. -/
inductive PartRole where
  /-- It is evaluated as the construct is. -/
  | plain
  /-- It is the operand of a `synchronized` statement. -/
  | operand
  /-- It is a label of a case. -/
  | label
  /-- It is an argument of an annotation. -/
  | annotationArg
  /-- It stands in the body of a `synchronized` statement with this operand. -/
  | holding (lock : Expr)
  /-- It stands in the body or a handler of a `try` statement with this final block. -/
  | protectedBy (finallyBody : Option (List Stmt))
  /-- It is a class that is declared where it stands: a local or an anonymous one. -/
  | nested
  /-- It is declared or evaluated by a member of a class outside of all code: a parameter, a
  variable of a field, an argument of a constant, or a member class. -/
  | declared
  /-- It is a member in the body of the class with this number. -/
  | member (classNode : NodeId)
  /-- It is the body of a method, an initializer or a lambda. -/
  | code

namespace PartRole

/-- Whether a part is a label of a case. -/
def isLabel : PartRole → Bool
  | .label => true
  | _ => false

/-- Whether a part is a class that is declared where it stands. -/
def isNested : PartRole → Bool
  | .nested => true
  | _ => false

theorem plain_ne_nested : PartRole.plain ≠ .nested := by
  rintro ⟨⟩

end PartRole

/-- A part of a construct with its role. -/
structure Part where
  role : PartRole
  node : TreeNode

/-- Expressions as parts. -/
def exprParts (role : PartRole) (exprs : List Expr) : List Part :=
  exprs.map fun expr => ⟨role, .expr expr⟩

/-- Statements as parts. -/
def stmtParts (role : PartRole) (stmts : List Stmt) : List Part :=
  stmts.map fun stmt => ⟨role, .stmt stmt⟩

/-- The arguments of an annotation. -/
def AnnotationUse.values (use : AnnotationUse) : List Expr :=
  use.args.map (·.value)

/-- The arguments of the annotations of a declaration. -/
def Modifiers.parts (modifiers : Modifiers) : List Part :=
  exprParts .annotationArg (modifiers.annotations.flatMap (·.values))

theorem Modifiers.role_eq_of_mem_parts {modifiers : Modifiers} {part : Part}
    (h : part ∈ modifiers.parts) : part.role = .annotationArg := by
  obtain ⟨value, -, rfl⟩ := List.mem_map.mp h
  rfl

/-- A class that is declared where it stands. -/
def nestedPart (decl : ClassDecl) : Part :=
  ⟨.nested, .classDecl decl⟩

/-- The parts of an expression of a kind. -/
def ExprKind.parts : ExprKind → List Part
  | .select object _ => exprParts .plain [object]
  | .call receiver _ args => exprParts .plain receiver.toList ++ exprParts .plain args
  | .new _ args body => exprParts .plain args ++ body.toList.map nestedPart
  | .newArray _ dims init => exprParts .plain dims ++ exprParts .plain (init.getD [])
  | .arrayInit items => exprParts .plain items
  | .index object position => exprParts .plain [object, position]
  | .unary _ operand => exprParts .plain [operand]
  | .binary _ left right => exprParts .plain [left, right]
  | .assign _ target value => exprParts .plain [target, value]
  | .conditional cond whenTrue whenFalse => exprParts .plain [cond, whenTrue, whenFalse]
  | .instanceOf expr _ | .cast _ expr => exprParts .plain [expr]
  | .lambda _ body => [⟨.code, .code (.lambda body)⟩]
  | .methodRef target _ => exprParts .plain [target]
  | .paren inner => exprParts .plain [inner]
  | .int _ | .float _ | .string _ | .char _ | .bool _ | .null | .name _ | .this | .super
  | .qualifiedThis _ | .classLiteral _ => []

/-- The parts of a statement of a kind. The condition of a loop comes before its body. -/
def StmtKind.parts : StmtKind → List Part
  | .expr value | .throw value => exprParts .plain [value]
  | .localVars _ declarators =>
      declarators.map fun declarator => ⟨.plain, .declarator declarator⟩
  | .block body => stmtParts .plain body
  | .ifElse cond whenTrue whenFalse =>
      exprParts .plain [cond] ++ stmtParts .plain (whenTrue :: whenFalse.toList)
  | .whileLoop cond body | .doWhile body cond =>
      exprParts .plain [cond] ++ stmtParts .plain [body]
  | .forLoop init cond update body =>
      stmtParts .plain init ++ exprParts .plain cond.toList ++ exprParts .plain update ++
        stmtParts .plain [body]
  | .forEach _ _ iterated body => exprParts .plain [iterated] ++ stmtParts .plain [body]
  | .return value => exprParts .plain value.toList
  | .tryCatch resources body catches finallyBody =>
      resources.map (fun resource => ⟨.plain, .resource resource⟩) ++
        stmtParts (.protectedBy finallyBody) body ++
        catches.map (fun clause => ⟨.protectedBy finallyBody, .catchClause clause⟩) ++
        stmtParts .plain (finallyBody.getD [])
  | .synchronized lock body => exprParts .operand [lock] ++ stmtParts (.holding lock) body
  | .switch selector cases =>
      exprParts .plain [selector] ++ cases.map fun case => ⟨.plain, .switchCase case⟩
  | .labeled _ body => stmtParts .plain [body]
  | .localClass decl => [nestedPart decl]
  | .assert cond message => exprParts .plain (cond :: message.toList)
  | .break _ | .continue _ | .empty => []

/-- The parts of a member of a kind. -/
def MemberKind.parts : MemberKind → List Part
  | .field modifiers _ declarators =>
      modifiers.parts ++ declarators.map fun declarator => ⟨.declared, .declarator declarator⟩
  | .method decl =>
      decl.modifiers.parts ++ decl.params.map (fun param => ⟨.declared, .param param⟩) ++
        [⟨.code, .code (.method decl)⟩]
  | .initializer _ body => [⟨.code, .code (.initializer body)⟩]
  | .classDecl decl => [⟨.declared, .classDecl decl⟩]
  | .enumConstant _ args body => exprParts .declared args ++ body.toList.map nestedPart

/-- What stands directly in a body of code. -/
def UnitBody.parts : UnitBody → List Part
  | .method decl => stmtParts .plain (decl.body.getD [])
  | .initializer body => stmtParts .plain body
  | .lambda (.expr value) => exprParts .plain [value]
  | .lambda (.block body) => stmtParts .plain body

namespace TreeNode

/-- The parts of a construct, in the order in which they are visited. -/
def parts : TreeNode → List Part
  | .expr node => node.kind.parts
  | .stmt node => node.kind.parts
  | .declarator node => exprParts .plain node.init.toList
  | .resource node => exprParts .plain [node.init]
  | .catchClause node => stmtParts .plain node.body
  | .switchCase node => exprParts .label node.labels ++ stmtParts .plain node.body
  | .classDecl node =>
      node.modifiers.parts ++ node.members.map fun member => ⟨.member node.id, .member member⟩
  | .member node => node.kind.parts
  | .param node => node.modifiers.parts
  | .code body => body.parts

end TreeNode

/-! ### Which parts fit into which constructs -/

namespace TreeNode

/-- Whether a construct belongs to code and not to the declarations around it. -/
def isCode : TreeNode → Bool
  | .classDecl _ | .member _ | .param _ => false
  | _ => true

/-- Whether a construct is a body of code. -/
def isBody : TreeNode → Bool
  | .code _ => true
  | _ => false

/-- Whether a construct can be declared or evaluated by a member outside of all code. -/
def isInMember : TreeNode → Bool
  | .declarator _ | .param _ | .expr _ | .classDecl _ => true
  | _ => false

end TreeNode

/-- Whether a part belongs to the same code as its construct. -/
def PartRole.isInCode : PartRole → Bool
  | .plain | .operand | .label | .holding _ | .protectedBy _ => true
  | _ => false

/-- The parts that a construct may have: code is made up of code, and what is declared is told apart
by its role. -/
inductive Fits : TreeNode → Part → Prop where
  | inCode {node child : TreeNode} {role : PartRole} (hnode : node.isCode) (hrole : role.isInCode)
      (hchild : child.isCode) (hbody : child.isBody = false) : Fits node ⟨role, child⟩
  | body {node : TreeNode} (body : UnitBody) : Fits node ⟨.code, .code body⟩
  | nested {node : TreeNode} (decl : ClassDecl) : Fits node ⟨.nested, .classDecl decl⟩
  | annotationArg {node : TreeNode} (hnode : node.isCode = false) (value : Expr) :
      Fits node ⟨.annotationArg, .expr value⟩
  | declared {member : Member} {child : TreeNode} (hchild : child.isInMember) :
      Fits (.member member) ⟨.declared, child⟩
  | member {decl : ClassDecl} {member : Member} (hmember : member ∈ decl.members) :
      Fits (.classDecl decl) ⟨.member decl.id, .member member⟩

namespace Fits

theorem exprParts {node : TreeNode} (role : PartRole) (hnode : node.isCode)
    (hrole : role.isInCode) (exprs : List Expr) : ∀ part ∈ exprParts role exprs, Fits node part :=
  List.forall_mem_map.mpr fun _ _ => .inCode hnode hrole rfl rfl

theorem stmtParts {node : TreeNode} (role : PartRole) (hnode : node.isCode)
    (hrole : role.isInCode) (stmts : List Stmt) : ∀ part ∈ stmtParts role stmts, Fits node part :=
  List.forall_mem_map.mpr fun _ _ => .inCode hnode hrole rfl rfl

theorem modifiers {node : TreeNode} (hnode : node.isCode = false) (modifiers : Modifiers) :
    ∀ part ∈ modifiers.parts, Fits node part :=
  List.forall_mem_map.mpr fun _ _ => .annotationArg hnode _

theorem nestedParts {node : TreeNode} (decls : List ClassDecl) :
    ∀ part ∈ decls.map nestedPart, Fits node part :=
  List.forall_mem_map.mpr fun _ _ => .nested _

theorem append {node : TreeNode} {first second : List Part}
    (hfirst : ∀ part ∈ first, Fits node part) (hsecond : ∀ part ∈ second, Fits node part) :
    ∀ part ∈ first ++ second, Fits node part :=
  List.forall_mem_append.mpr ⟨hfirst, hsecond⟩

private theorem exprKind {node : TreeNode} (hnode : node.isCode) (kind : ExprKind) :
    ∀ part ∈ kind.parts, Fits node part := by
  have hexprs (exprs : List Expr) := exprParts .plain hnode rfl exprs
  cases kind with
  | call receiver method args => exact append (hexprs _) (hexprs _)
  | new type args body => exact append (hexprs _) (nestedParts _)
  | newArray element dims init => exact append (hexprs _) (hexprs _)
  | lambda params body => exact List.forall_mem_singleton.mpr (.body _)
  | _ => first | exact hexprs _ | exact List.forall_mem_nil _

private theorem stmtKind {node : TreeNode} (hnode : node.isCode) (kind : StmtKind) :
    ∀ part ∈ kind.parts, Fits node part := by
  have hexprs (exprs : List Expr) := exprParts .plain hnode rfl exprs
  have hstmts (stmts : List Stmt) := stmtParts .plain hnode rfl stmts
  have hmap {α : Type} (role : PartRole) (hrole : role.isInCode) (make : α → TreeNode)
      (hcode : ∀ item, (make item).isCode) (hbody : ∀ item, (make item).isBody = false)
      (items : List α) :
      ∀ part ∈ items.map fun item => ⟨role, make item⟩, Fits node part :=
    List.forall_mem_map.mpr fun item _ => .inCode hnode hrole (hcode item) (hbody item)
  cases kind with
  | localVars type declarators =>
      exact hmap .plain rfl .declarator (fun _ => rfl) (fun _ => rfl) declarators
  | forLoop init cond update body =>
      exact append (append (append (hstmts _) (hexprs _)) (hexprs _)) (hstmts _)
  | tryCatch resources body catches finallyBody =>
      refine append (append (append ?_ (stmtParts _ hnode rfl _)) ?_) (hstmts _)
      · exact hmap .plain rfl .resource (fun _ => rfl) (fun _ => rfl) resources
      · exact hmap (.protectedBy finallyBody) rfl .catchClause (fun _ => rfl) (fun _ => rfl) catches
  | «synchronized» lock body =>
      exact append (exprParts .operand hnode rfl _) (stmtParts (.holding lock) hnode rfl _)
  | switch selector cases =>
      exact append (hexprs _) (hmap .plain rfl .switchCase (fun _ => rfl) (fun _ => rfl) cases)
  | localClass decl => exact List.forall_mem_singleton.mpr (.nested decl)
  | _ =>
      first
      | exact hexprs _
      | exact hstmts _
      | exact append (hexprs _) (hstmts _)
      | exact List.forall_mem_nil _

private theorem memberKind (member : Member) :
    ∀ part ∈ member.kind.parts, Fits (.member member) part := by
  have hmodifiers (modifiers' : Modifiers) :
      ∀ part ∈ modifiers'.parts, Fits (.member member) part :=
    modifiers rfl modifiers'
  have hdeclared {α : Type} (make : α → TreeNode) (hchild : ∀ item, (make item).isInMember)
      (items : List α) :
      ∀ part ∈ items.map fun item => ⟨.declared, make item⟩, Fits (.member member) part :=
    List.forall_mem_map.mpr fun item _ => .declared (hchild item)
  cases member.kind with
  | field modifiers type declarators =>
      exact append (hmodifiers _) (hdeclared .declarator (fun _ => rfl) declarators)
  | method decl =>
      refine append (append (hmodifiers _) (hdeclared .param (fun _ => rfl) decl.params)) ?_
      exact List.forall_mem_singleton.mpr (.body _)
  | initializer isStatic body => exact List.forall_mem_singleton.mpr (.body _)
  | classDecl decl => exact List.forall_mem_singleton.mpr (.declared rfl)
  | enumConstant name args body =>
      exact append (hdeclared .expr (fun _ => rfl) args) (nestedParts _)

/-- The parts of a construct fit into it. -/
theorem of_mem_parts {node : TreeNode} {part : Part} (h : part ∈ node.parts) : Fits node part := by
  suffices hall : ∀ part ∈ node.parts, Fits node part from hall part h
  cases node with
  | expr node => exact exprKind rfl node.kind
  | stmt node => exact stmtKind rfl node.kind
  | declarator node => exact exprParts .plain rfl rfl _
  | resource node => exact exprParts .plain rfl rfl _
  | catchClause node => exact stmtParts .plain rfl rfl _
  | switchCase node => exact append (exprParts .label rfl rfl _) (stmtParts .plain rfl rfl _)
  | classDecl node =>
      exact append (modifiers rfl _) (List.forall_mem_map.mpr fun _ hmember => .member hmember)
  | member node => exact memberKind node
  | param node => exact modifiers rfl _
  | code body =>
      cases body with
      | method decl => exact stmtParts .plain rfl rfl _
      | initializer body => exact stmtParts .plain rfl rfl _
      | lambda body =>
          cases body with
          | expr value => exact exprParts .plain rfl rfl _
          | block body => exact stmtParts .plain rfl rfl _

end Fits

/-- Only a class has parts that are members of a class, and they are its own. -/
theorem TreeNode.eq_classDecl_of_role_eq_member {node : TreeNode} {part : Part}
    (h : part ∈ node.parts) {classNode : NodeId} (hrole : part.role = .member classNode) :
    ∃ decl member, node = .classDecl decl ∧ decl.id = classNode ∧ member ∈ decl.members ∧
      part.node = .member member := by
  cases Fits.of_mem_parts h with
  | member hmember => exact ⟨_, _, rfl, PartRole.member.inj hrole, hmember, rfl⟩
  | inCode hnode hincode =>
      dsimp only at hrole
      subst hrole
      cases hincode
  | _ => cases hrole

/-- A member is a part of the class that it is a member of. -/
theorem TreeNode.eq_classDecl_of_member {node : TreeNode} {part : Part} (h : part ∈ node.parts)
    {member : Member} (hmember : part.node = .member member) :
    ∃ decl, node = .classDecl decl ∧ member ∈ decl.members := by
  cases Fits.of_mem_parts h with
  | member hmem =>
      obtain rfl := TreeNode.member.inj hmember
      exact ⟨_, rfl, hmem⟩
  | inCode _ _ hchild | declared hchild =>
      dsimp only at hmember
      subst hmember
      cases hchild
  | _ => cases hmember

/-- No part of a declaration belongs to the same code as the declaration. -/
theorem TreeNode.isInCode_eq_false {node : TreeNode} (hnode : node.isCode = false) {part : Part}
    (h : part ∈ node.parts) : part.role.isInCode = false := by
  cases Fits.of_mem_parts h with
  | inCode hcode => exact absurd hcode (by rw [hnode]; decide)
  | _ => rfl

/-- A body of code is a part by its role. -/
theorem TreeNode.role_eq_code {node : TreeNode} {part : Part} (h : part ∈ node.parts)
    {body : UnitBody} (hbody : part.node = .code body) : part.role = .code := by
  cases Fits.of_mem_parts h with
  | body => rfl
  | inCode hnode hrole hchild hpart =>
      dsimp only at hbody
      subst hbody
      cases hpart
  | declared hpart =>
      dsimp only at hbody
      subst hbody
      cases hpart
  | _ => cases hbody

/-! ### Parts are smaller -/

private theorem sizeOf_exprParts {role : PartRole} {exprs : List Expr} {part : Part}
    (h : part ∈ exprParts role exprs) : sizeOf part.node ≤ sizeOf exprs := by
  obtain ⟨expr, hmem, rfl⟩ := List.mem_map.mp h
  have := List.sizeOf_lt_of_mem hmem
  simp only [TreeNode.expr.sizeOf_spec]
  omega

private theorem sizeOf_stmtParts {role : PartRole} {stmts : List Stmt} {part : Part}
    (h : part ∈ stmtParts role stmts) : sizeOf part.node ≤ sizeOf stmts := by
  obtain ⟨stmt, hmem, rfl⟩ := List.mem_map.mp h
  have := List.sizeOf_lt_of_mem hmem
  simp only [TreeNode.stmt.sizeOf_spec]
  omega

private theorem sizeOf_toList_le {α : Type} [SizeOf α] (value : Option α) :
    sizeOf value.toList ≤ 1 + sizeOf value := by
  cases value with
  | none => exact Nat.le_add_right 1 _
  | some value =>
    simp only [Option.toList_some, List.cons.sizeOf_spec, List.nil.sizeOf_spec,
      Option.some.sizeOf_spec]
    omega

private theorem sizeOf_getD_le {α : Type} [SizeOf α] (values : Option (List α)) :
    sizeOf (values.getD []) ≤ sizeOf values := by
  cases values <;> simp

private theorem sizeOf_parts_expr {kind : ExprKind} {part : Part} (h : part ∈ kind.parts) :
    sizeOf part.node < 3 + sizeOf kind := by
  cases kind
  case conditional cond whenTrue whenFalse =>
    simp [ExprKind.parts, exprParts] at h
    rcases h with rfl | rfl | rfl <;> simp <;> omega
  case lambda params body =>
    rw [ExprKind.parts, List.mem_singleton] at h
    subst h
    simp; omega
  case new type args body =>
    rcases List.mem_append.mp h with h | h
    · have := sizeOf_exprParts h
      simp; omega
    · obtain ⟨decl, hdecl, rfl⟩ := List.mem_map.mp h
      obtain rfl : body = some decl := by simpa using hdecl
      simp [nestedPart]; omega
  case call receiver method args =>
    have := sizeOf_toList_le receiver
    rcases List.mem_append.mp h with h | h <;> have := sizeOf_exprParts h <;> simp <;> omega
  case newArray element dims init =>
    have := sizeOf_getD_le init
    rcases List.mem_append.mp h with h | h <;> have := sizeOf_exprParts h <;> simp <;> omega
  all_goals first
  | exact absurd h List.not_mem_nil
  | have := sizeOf_exprParts h
    simp at this ⊢
    omega

private theorem sizeOf_parts_modifiers {modifiers : Modifiers} {part : Part}
    (h : part ∈ modifiers.parts) : sizeOf part.node < sizeOf modifiers := by
  obtain ⟨keywords, annotations⟩ := modifiers
  obtain ⟨value, hmem, rfl⟩ := List.mem_map.mp h
  obtain ⟨use, huse, hmem⟩ := List.mem_flatMap.mp hmem
  obtain ⟨arg, harg, rfl⟩ := List.mem_map.mp hmem
  have h1 := List.sizeOf_lt_of_mem huse
  have h2 := List.sizeOf_lt_of_mem harg
  obtain ⟨name, args, span⟩ := use
  obtain ⟨name, value⟩ := arg
  simp at h1 h2 ⊢
  omega

private theorem sizeOf_parts_stmt {kind : StmtKind} {part : Part} (h : part ∈ kind.parts) :
    sizeOf part.node < 3 + sizeOf kind := by
  cases kind
  case localVars type declarators =>
    obtain ⟨declarator, hmem, rfl⟩ := List.mem_map.mp h
    have := List.sizeOf_lt_of_mem hmem
    simp; omega
  case tryCatch resources body catches finallyBody =>
    have := sizeOf_getD_le finallyBody
    simp only [StmtKind.parts, List.mem_append] at h
    rcases h with ((h | h) | h) | h
    · obtain ⟨resource, hmem, rfl⟩ := List.mem_map.mp h
      have := List.sizeOf_lt_of_mem hmem
      simp; omega
    · have := sizeOf_stmtParts h
      simp; omega
    · obtain ⟨clause, hmem, rfl⟩ := List.mem_map.mp h
      have := List.sizeOf_lt_of_mem hmem
      simp; omega
    · have := sizeOf_stmtParts h
      simp; omega
  case switch selector cases =>
    rcases List.mem_append.mp h with h | h
    · have := sizeOf_exprParts h
      simp at this ⊢; omega
    · obtain ⟨case, hmem, rfl⟩ := List.mem_map.mp h
      have := List.sizeOf_lt_of_mem hmem
      simp; omega
  case localClass decl =>
    rw [StmtKind.parts, List.mem_singleton] at h
    subst h
    simp [nestedPart]
  case ifElse cond whenTrue whenFalse =>
    have := sizeOf_toList_le whenFalse
    rcases List.mem_append.mp h with h | h
    · have := sizeOf_exprParts h
      simp at this ⊢; omega
    · have := sizeOf_stmtParts h
      simp at this ⊢; omega
  case forLoop init cond update body =>
    have := sizeOf_toList_le cond
    simp only [StmtKind.parts, List.mem_append] at h
    rcases h with ((h | h) | h) | h
    · have := sizeOf_stmtParts h
      simp; omega
    · have := sizeOf_exprParts h
      simp; omega
    · have := sizeOf_exprParts h
      simp; omega
    · have := sizeOf_stmtParts h
      simp at this ⊢; omega
  case «return» value =>
    have := sizeOf_toList_le value
    have := sizeOf_exprParts h
    simp; omega
  case assert cond message =>
    have := sizeOf_toList_le message
    have := sizeOf_exprParts h
    simp at this ⊢; omega
  case «break» | «continue» | empty => exact absurd h List.not_mem_nil
  case whileLoop | doWhile | forEach | «synchronized» =>
    rcases List.mem_append.mp h with h | h
    · have := sizeOf_exprParts h
      simp at this ⊢; omega
    · have := sizeOf_stmtParts h
      simp at this ⊢; omega
  case expr | throw =>
    have := sizeOf_exprParts h
    simp at this ⊢; omega
  case block | labeled =>
    have := sizeOf_stmtParts h
    simp at this ⊢; omega

private theorem sizeOf_parts_member {kind : MemberKind} {part : Part} (h : part ∈ kind.parts) :
    sizeOf part.node < 3 + sizeOf kind := by
  cases kind
  case field modifiers type declarators =>
    rcases List.mem_append.mp h with h | h
    · have := sizeOf_parts_modifiers h
      simp; omega
    · obtain ⟨declarator, hmem, rfl⟩ := List.mem_map.mp h
      have := List.sizeOf_lt_of_mem hmem
      simp; omega
  case method decl =>
    obtain ⟨id, name, modifiers, typeParams, returnType, params, throws, body, span⟩ := decl
    simp only [MemberKind.parts, List.mem_append, List.mem_singleton] at h
    rcases h with (h | h) | rfl
    · have := sizeOf_parts_modifiers h
      simp; omega
    · obtain ⟨param, hmem, rfl⟩ := List.mem_map.mp h
      have := List.sizeOf_lt_of_mem hmem
      simp; omega
    · simp
  case initializer isStatic body =>
    rw [MemberKind.parts, List.mem_singleton] at h
    subst h
    simp only [TreeNode.code.sizeOf_spec, UnitBody.initializer.sizeOf_spec,
      MemberKind.initializer.sizeOf_spec]
    omega
  case classDecl decl =>
    rw [MemberKind.parts, List.mem_singleton] at h
    subst h
    simp only [TreeNode.classDecl.sizeOf_spec, MemberKind.classDecl.sizeOf_spec]
    omega
  case enumConstant name args body =>
    rcases List.mem_append.mp h with h | h
    · have := sizeOf_exprParts h
      simp; omega
    · obtain ⟨decl, hdecl, rfl⟩ := List.mem_map.mp h
      obtain rfl : body = some decl := by simpa using hdecl
      simp [nestedPart]
      omega

private theorem sizeOf_parts_code {body : UnitBody} {part : Part} (h : part ∈ body.parts) :
    sizeOf part.node < 1 + sizeOf body := by
  cases body
  case method decl =>
    obtain ⟨id, name, modifiers, typeParams, returnType, params, throws, body, span⟩ := decl
    have := sizeOf_getD_le body
    have := sizeOf_stmtParts h
    simp at this ⊢; omega
  case initializer body =>
    have := sizeOf_stmtParts h
    simp; omega
  case lambda body =>
    cases body with
    | expr value =>
      have := sizeOf_exprParts h
      simp at this ⊢; omega
    | block body =>
      have := sizeOf_stmtParts h
      simp; omega

private theorem sizeOf_span (span : Span) : 0 < sizeOf span := by
  cases span
  rw [Span.mk.sizeOf_spec]
  omega

/-- A part is smaller than its construct, so that trees can be followed part by part. -/
theorem TreeNode.sizeOf_part_lt {node : TreeNode} {part : Part} (h : part ∈ node.parts) :
    sizeOf part.node < sizeOf node := by
  cases node with
  | expr node =>
    obtain ⟨id, kind, span⟩ := node
    have hspan := sizeOf_span span
    have hsize : sizeOf part.node < 3 + sizeOf kind := sizeOf_parts_expr h
    simp only [TreeNode.expr.sizeOf_spec, Expr.mk.sizeOf_spec, sizeOf_nat]
    omega
  | stmt node =>
    obtain ⟨id, kind, span⟩ := node
    have hspan := sizeOf_span span
    have hsize : sizeOf part.node < 3 + sizeOf kind := sizeOf_parts_stmt h
    simp only [TreeNode.stmt.sizeOf_spec, Stmt.mk.sizeOf_spec, sizeOf_nat]
    omega
  | declarator node =>
    obtain ⟨id, name, init, span⟩ := node
    have hsize : sizeOf part.node ≤ sizeOf init.toList := sizeOf_exprParts h
    have := sizeOf_toList_le init
    simp; omega
  | resource node =>
    obtain ⟨id, name, type, init⟩ := node
    obtain rfl := List.mem_singleton.mp h
    simp only [TreeNode.expr.sizeOf_spec, TreeNode.resource.sizeOf_spec, Resource.mk.sizeOf_spec]
    omega
  | catchClause node =>
    obtain ⟨id, types, name, body, span⟩ := node
    have := sizeOf_stmtParts h
    simp at this ⊢; omega
  | switchCase node =>
    obtain ⟨labels, isDefault, body⟩ := node
    rcases List.mem_append.mp h with h | h
    · have := sizeOf_exprParts h
      simp at this ⊢; omega
    · have := sizeOf_stmtParts h
      simp at this ⊢; omega
  | classDecl node =>
    obtain ⟨id, name, kind, modifiers, typeParams, superclass, interfaces, members, span⟩ := node
    rcases List.mem_append.mp h with h | h
    · have := sizeOf_parts_modifiers h
      simp at this ⊢; omega
    · obtain ⟨member, hmem, rfl⟩ := List.mem_map.mp h
      have := List.sizeOf_lt_of_mem hmem
      simp at this ⊢; omega
  | member node =>
    obtain ⟨id, kind, span⟩ := node
    have hspan := sizeOf_span span
    have hsize : sizeOf part.node < 3 + sizeOf kind := sizeOf_parts_member h
    simp only [TreeNode.member.sizeOf_spec, Member.mk.sizeOf_spec, sizeOf_nat]
    omega
  | param node =>
    obtain ⟨id, name, type, modifiers, isVarargs, span⟩ := node
    have := sizeOf_parts_modifiers h
    simp at this ⊢; omega
  | code body =>
    have := sizeOf_parts_code h
    simpa using this

end LockDiscipline
