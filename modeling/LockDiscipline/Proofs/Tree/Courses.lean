import LockDiscipline.Proofs.Tree.Numbers
/-!
# Which variables a place sees

A variable is declared by a node or among the parameters of a lambda. A `Course` says how a construct
is gone through: its parts in order, each with the variables of the construct that it sees, and the
variables that the construct leaves to what follows it. Blocks, loops, handlers, methods and lambdas
keep their variables to themselves; a declaration that is the whole body of an `if` or of a loop is left
to what follows. The condition of a loop comes before its body, that of a `do` statement too.

`TreeNode.marks` collects along a path what the place at its end sees, the nearest first: the variables
declared before it and the class bodies around it.
-/

namespace LockDiscipline

/-- Where a variable is declared. -/
inductive VariableSite where
  /-- The node with this number declares a variable of this name. -/
  | node (id : NodeId) (name : String)
  /-- The lambda at this place has a parameter of this name behind those before it. -/
  | lambda (span : Span) (before : List String) (name : String)

namespace VariableSite

/-- The name of the variable. -/
def name : VariableSite → String
  | .node _ name | .lambda _ _ name => name

/-- The number of the node that declares the variable, if one does. -/
def nodes : VariableSite → List NodeId
  | .node id _ => [id]
  | .lambda .. => []

/-- The parameters of a lambda behind those before them, the last one first. -/
def ofLambda (span : Span) (before : List String) : List String → List VariableSite
  | [] => []
  | name :: rest => ofLambda span (before ++ [name]) rest ++ [.lambda span before name]

theorem nodes_ofLambda (span : Span) (before names : List String) :
    ∀ site ∈ ofLambda span before names, site.nodes = [] := by
  induction names generalizing before with
  | nil => exact List.forall_mem_nil _
  | cons name rest ih => exact List.forall_mem_append.mpr ⟨ih _, List.forall_mem_singleton.mpr rfl⟩

end VariableSite

/-! ### What a part leaves to the next one -/

/-- The variables that a statement leaves to the next one, the last one first. -/
def Stmt.declared : Stmt → List VariableSite
  | ⟨_, .localVars _ declarators, _⟩ => declarators.reverse.map fun node => .node node.id node.name
  | ⟨_, .ifElse _ whenTrue none, _⟩ => whenTrue.declared
  | ⟨_, .ifElse _ whenTrue (some whenFalse), _⟩ => whenFalse.declared ++ whenTrue.declared
  | ⟨_, .whileLoop _ body, _⟩ | ⟨_, .doWhile body _, _⟩ | ⟨_, .labeled _ body, _⟩ => body.declared
  | _ => []

/-- The variables that statements leave to the next one, the last one first. -/
def declaredIn (stmts : List Stmt) : List VariableSite :=
  stmts.reverse.flatMap Stmt.declared

/-- The variables that a body of code declares in its outermost scope. The block of a lambda has one of
its own. -/
def UnitBody.declared : UnitBody → List VariableSite
  | .method decl => declaredIn (decl.body.getD [])
  | .initializer body => declaredIn body
  | .lambda _ => []

/-- The variables that a part leaves to the next one. A declarator that is not plain is that of a field.
-/
def Part.declared (part : Part) : List VariableSite :=
  match part.node with
  | .stmt node => node.declared
  | .declarator node =>
      match part.role with
      | .plain => [.node node.id node.name]
      | _ => []
  | .resource node => node.name.toList.map (.node node.id)
  | .param node => [.node node.id node.name]
  | .switchCase node => declaredIn node.body
  | .code body => body.declared
  | _ => []

/-! ### Courses -/

/-- A part with the variables of its construct that it sees, the nearest one first. -/
structure SeenPart where
  part : Part
  visible : List VariableSite

/-- The same part behind the declarations of more variables. -/
def SeenPart.behind (sites : List VariableSite) (seen : SeenPart) : SeenPart :=
  { seen with visible := seen.visible ++ sites }

/-- Parts in the order in which they are gone through, and the variables that they leave to what
follows, the last one first. -/
structure Course where
  seen : List SeenPart
  leaves : List VariableSite

namespace Course

/-- The parts of a course. -/
def parts (course : Course) : List Part :=
  course.seen.map (·.part)

/-- The course that goes through nothing. -/
def nil : Course :=
  ⟨[], []⟩

/-- One course and then another, which sees what the first one leaves. -/
def append (first second : Course) : Course :=
  ⟨first.seen ++ second.seen.map (.behind first.leaves), second.leaves ++ first.leaves⟩

instance : Append Course := ⟨append⟩

/-- The course through a single part. -/
def one (part : Part) : Course :=
  ⟨[⟨part, []⟩], part.declared⟩

/-- The declaration of variables by the construct itself. -/
def declares (sites : List VariableSite) : Course :=
  ⟨[], sites⟩

/-- A course in a scope of its own. -/
def confined (course : Course) : Course :=
  ⟨course.seen, []⟩

/-- The course through parts that stand in one scope. -/
def ofParts : List Part → Course
  | [] => nil
  | part :: rest => one part ++ ofParts rest

variable {first second third : Course}

@[simp] theorem seen_append : (first ++ second).seen =
    first.seen ++ second.seen.map (.behind first.leaves) := rfl

@[simp] theorem leaves_append : (first ++ second).leaves = second.leaves ++ first.leaves := rfl

@[simp] theorem leaves_confined : first.confined.leaves = [] := rfl

@[simp] theorem parts_confined : first.confined.parts = first.parts := rfl

@[simp] theorem leaves_one (part : Part) : (one part).leaves = part.declared := rfl

@[simp] theorem parts_one (part : Part) : (one part).parts = [part] := rfl

@[simp] theorem parts_declares (sites : List VariableSite) : (declares sites).parts = [] := rfl

@[simp] theorem parts_append : (first ++ second).parts = first.parts ++ second.parts := by
  simp only [parts, seen_append, List.map_append, List.map_map]
  rfl

theorem map_behind_nil (seen : List SeenPart) : seen.map (.behind []) = seen := by
  refine (List.map_congr_left fun part _ => ?_).trans (List.map_id seen)
  rw [SeenPart.behind, List.append_nil]
  rfl

@[simp] theorem nil_append (course : Course) : nil ++ course = course := by
  change Course.mk ([] ++ course.seen.map (.behind [])) (course.leaves ++ []) = course
  rw [map_behind_nil, List.append_nil, List.nil_append]

@[simp] theorem append_nil (course : Course) : course ++ nil = course := by
  change Course.mk (course.seen ++ []) ([] ++ course.leaves) = course
  rw [List.append_nil, List.nil_append]

theorem append_assoc : first ++ second ++ third = first ++ (second ++ third) := by
  change Course.mk _ _ = Course.mk _ _
  simp only [seen_append, leaves_append, List.map_append, List.map_map, List.append_assoc]
  congr 4
  funext seen
  simp [SeenPart.behind]

theorem ofParts_append (parts parts' : List Part) :
    ofParts (parts ++ parts') = ofParts parts ++ ofParts parts' := by
  induction parts with
  | nil => exact (nil_append _).symm
  | cons part rest ih => rw [List.cons_append, ofParts, ofParts, ih, append_assoc]

@[simp] theorem parts_ofParts (parts : List Part) : (ofParts parts).parts = parts := by
  induction parts with
  | nil => rfl
  | cons part rest ih => rw [ofParts, parts_append, ih]; rfl

theorem leaves_ofParts (parts : List Part) :
    (ofParts parts).leaves = parts.reverse.flatMap Part.declared := by
  induction parts with
  | nil => rfl
  | cons part rest ih =>
      rw [ofParts, leaves_append, ih, List.reverse_cons, List.flatMap_append, List.flatMap_singleton]
      rfl

theorem leaves_ofParts_eq_nil {parts : List Part} (h : ∀ part ∈ parts, part.declared = []) :
    (ofParts parts).leaves = [] := by
  rw [leaves_ofParts, List.flatMap_eq_nil_iff]
  exact fun part hpart => h part (List.mem_reverse.mp hpart)

@[simp] theorem leaves_exprParts (role : PartRole) (exprs : List Expr) :
    (ofParts (exprParts role exprs)).leaves = [] := by
  refine leaves_ofParts_eq_nil fun part hpart => ?_
  obtain ⟨expr, -, rfl⟩ := List.mem_map.mp hpart
  rfl

theorem leaves_stmtParts (role : PartRole) (stmts : List Stmt) :
    (ofParts (stmtParts role stmts)).leaves = declaredIn stmts := by
  rw [leaves_ofParts, stmtParts, ← List.map_reverse, List.flatMap_map, declaredIn]
  rfl

/-- Behind parts that leave nothing a course is as it is alone. -/
theorem seen_append_of_leaves_eq_nil (h : first.leaves = []) :
    (first ++ second).seen = first.seen ++ second.seen := by
  rw [seen_append, h, map_behind_nil]

/-- Where no part leaves anything no part sees anything. -/
theorem seen_ofParts {parts : List Part} (h : ∀ part ∈ parts, part.declared = []) :
    (ofParts parts).seen = parts.map (⟨·, []⟩) := by
  induction parts with
  | nil => rfl
  | cons part rest ih =>
      obtain ⟨hpart, hrest⟩ := List.forall_mem_cons.mp h
      rw [ofParts, seen_append_of_leaves_eq_nil (by exact hpart), ih hrest]
      rfl

theorem mem_parts {course : Course} {part : Part} :
    part ∈ course.parts ↔ ∃ seen ∈ course.seen, seen.part = part :=
  List.mem_map

end Course

/-! ### The courses of constructs -/

open Course (one declares ofParts)

/-- How an expression is gone through. Only a lambda declares variables. -/
def ExprKind.course (span : Span) : ExprKind → Course
  | .lambda params body =>
      (declares (VariableSite.ofLambda span [] params) ++ one ⟨.code, .code (.lambda body)⟩).confined
  | kind => ofParts kind.parts

/-- How a statement is gone through, whose number is given. -/
def StmtKind.course (id : NodeId) : StmtKind → Course
  | .block body => (ofParts (stmtParts .plain body)).confined
  | .forLoop init cond update body =>
      (ofParts (StmtKind.forLoop init cond update body).parts).confined
  | .forEach _ name iterated body =>
      one ⟨.plain, .expr iterated⟩ ++
        (declares [.node id name] ++ one ⟨.plain, .stmt body⟩).confined
  | .tryCatch resources body catches finallyBody =>
      (ofParts (resources.map fun resource => ⟨.plain, .resource resource⟩) ++
          (ofParts (stmtParts (.protectedBy finallyBody) body)).confined).confined ++
        ofParts (catches.map fun clause => ⟨.protectedBy finallyBody, .catchClause clause⟩) ++
        (ofParts (stmtParts .plain (finallyBody.getD []))).confined
  | .synchronized lock body =>
      one ⟨.operand, .expr lock⟩ ++ (ofParts (stmtParts (.holding lock) body)).confined
  | .switch selector cases =>
      one ⟨.plain, .expr selector⟩ ++
        (ofParts (cases.map fun case => ⟨.plain, .switchCase case⟩)).confined
  | kind => ofParts kind.parts

/-- How a member of a class is gone through. -/
def MemberKind.course : MemberKind → Course
  | .method decl =>
      ofParts decl.modifiers.parts ++
        (ofParts (decl.params.map fun param => ⟨.declared, .param param⟩) ++
          one ⟨.code, .code (.method decl)⟩).confined
  | .initializer _ body => (one ⟨.code, .code (.initializer body)⟩).confined
  | kind => ofParts kind.parts

namespace TreeNode

/-- How a construct is gone through. -/
def course : TreeNode → Course
  | .expr node => node.kind.course node.span
  | .stmt node => node.kind.course node.id
  | .catchClause node =>
      (declares [.node node.id node.name] ++ ofParts (stmtParts .plain node.body)).confined
  | .member node => node.kind.course
  | node => ofParts node.parts

@[simp] theorem parts_course (node : TreeNode) : node.course.parts = node.parts := by
  cases node with
  | expr node =>
      rw [course, parts]
      cases node.kind <;> simp [ExprKind.course, ExprKind.parts]
  | stmt node =>
      rw [course, parts]
      cases node.kind <;> simp [StmtKind.course, StmtKind.parts, exprParts, stmtParts]
  | member node =>
      rw [course, parts]
      cases node.kind <;> simp [MemberKind.course, MemberKind.parts]
  | _ => simp [course, parts]

theorem exists_seen_of_parts {node : TreeNode} {index : Nat} {part : Part}
    (h : node.parts[index]? = some part) :
    ∃ seen, node.course.seen[index]? = some seen ∧ seen.part = part := by
  rwa [← parts_course, Course.parts, List.getElem?_map, Option.map_eq_some_iff] at h

end TreeNode

/-- An expression leaves no variables. -/
theorem ExprKind.leaves_course (span : Span) (kind : ExprKind) : (kind.course span).leaves = [] := by
  have hnested (decls : List ClassDecl) : (ofParts (decls.map nestedPart)).leaves = [] :=
    Course.leaves_ofParts_eq_nil (List.forall_mem_map.mpr fun _ _ => rfl)
  cases kind with
  | call | newArray => simp [course, parts, Course.ofParts_append]
  | new => simp [course, parts, Course.ofParts_append, hnested]
  | lambda | int | float | string | char | bool | null | name | this | «super» | qualifiedThis
  | classLiteral => rfl
  | _ => exact Course.leaves_exprParts ..

/-- A statement leaves to the next one what its course leaves. -/
theorem StmtKind.leaves_course (id : NodeId) (span : Span) (kind : StmtKind) :
    (kind.course id).leaves = Stmt.declared ⟨id, kind, span⟩ := by
  cases kind with
  | localVars type declarators =>
      have hcourse : course id (.localVars type declarators) =
        ofParts (declarators.map fun declarator => ⟨.plain, .declarator declarator⟩) := rfl
      rw [hcourse, Course.leaves_ofParts, ← List.map_reverse, List.flatMap_map, Stmt.declared]
      exact List.flatMap_pure_eq_map _ _
  | ifElse cond whenTrue whenFalse =>
      cases whenFalse <;>
        simp [course, parts, Course.ofParts_append, Course.leaves_stmtParts, declaredIn, Stmt.declared]
  | whileLoop | doWhile | labeled =>
      simp [course, parts, Course.ofParts_append, Course.leaves_stmtParts, declaredIn, Stmt.declared]
  | tryCatch resources body catches finallyBody =>
      have hcatches : (ofParts (catches.map fun clause =>
          ⟨.protectedBy finallyBody, .catchClause clause⟩)).leaves = [] :=
        Course.leaves_ofParts_eq_nil (List.forall_mem_map.mpr fun _ _ => rfl)
      simp [course, hcatches, Stmt.declared]
  | localClass | «break» | «continue» | empty => rfl
  | forEach | «synchronized» | switch =>
      simp only [course, Course.leaves_append, Course.leaves_confined, Stmt.declared]
      rfl
  | _ => simp [course, parts, Stmt.declared]

/-! ### The nodes that declare variables -/

/-- The variables of a course are declared by lambdas or by nodes with these numbers. -/
structure Course.SitesIn (course : Course) (ids : List NodeId) : Prop where
  visible : ∀ seen ∈ course.seen, ∀ site ∈ seen.visible, site.nodes ⊆ ids
  leaves : ∀ site ∈ course.leaves, site.nodes ⊆ ids

namespace Course.SitesIn

variable {course first second : Course} {ids ids' : List NodeId}

theorem mono (h : course.SitesIn ids) (hids : ids ⊆ ids') : course.SitesIn ids' where
  visible seen hseen site hsite := List.Subset.trans (h.visible seen hseen site hsite) hids
  leaves site hsite := List.Subset.trans (h.leaves site hsite) hids

theorem append (hfirst : first.SitesIn ids) (hsecond : second.SitesIn ids) :
    (first ++ second).SitesIn ids where
  visible seen hseen site hsite := by
    rcases List.mem_append.mp hseen with hseen | hseen
    · exact hfirst.visible seen hseen site hsite
    · obtain ⟨inner, hinner, rfl⟩ := List.mem_map.mp hseen
      rcases List.mem_append.mp hsite with hsite | hsite
      · exact hsecond.visible inner hinner site hsite
      · exact hfirst.leaves site hsite
  leaves := List.forall_mem_append.mpr ⟨hsecond.leaves, hfirst.leaves⟩

theorem confined (h : course.SitesIn ids) : course.confined.SitesIn ids where
  visible := h.visible
  leaves := List.forall_mem_nil _

theorem declares {sites : List VariableSite} (h : ∀ site ∈ sites, site.nodes ⊆ ids) :
    (Course.declares sites).SitesIn ids where
  visible := List.forall_mem_nil _
  leaves := h

end Course.SitesIn

theorem Stmt.nodes_declared (stmt : Stmt) :
    ∀ site ∈ stmt.declared, site.nodes ⊆ (TreeNode.stmt stmt).numbers := by
  have hsub {stmt inner : Stmt} (hinner : (⟨.plain, .stmt inner⟩ : Part) ∈ (TreeNode.stmt stmt).parts)
      (h : ∀ site ∈ inner.declared, site.nodes ⊆ (TreeNode.stmt inner).numbers) :
      ∀ site ∈ inner.declared, site.nodes ⊆ (TreeNode.stmt stmt).numbers :=
    fun site hsite _ hid => TreeNode.mem_numbers_of_part hinner (h site hsite hid)
  fun_induction Stmt.declared stmt with
  | case1 id type declarators span =>
      intro site hsite number hnumber
      obtain ⟨node, hnode, rfl⟩ := List.mem_map.mp hsite
      obtain rfl := List.mem_singleton.mp hnumber
      have hpart : (⟨.plain, .declarator node⟩ : Part) ∈
          (TreeNode.stmt ⟨id, .localVars type declarators, span⟩).parts :=
        List.mem_map.mpr ⟨node, List.mem_reverse.mp hnode, rfl⟩
      exact TreeNode.mem_numbers_of_part hpart
        (TreeNode.ownIds_subset_numbers (List.mem_singleton_self _))
  | case2 id cond whenTrue span ih =>
      exact hsub (List.mem_append_right _ List.mem_cons_self) ih
  | case3 id cond whenTrue whenFalse span ih ih' =>
      exact List.forall_mem_append.mpr
        ⟨hsub (List.mem_append_right _ (List.mem_cons_of_mem _ List.mem_cons_self)) ih,
          hsub (List.mem_append_right _ List.mem_cons_self) ih'⟩
  | case4 | case5 => exact hsub (List.mem_append_right _ List.mem_cons_self) ‹_›
  | case6 => exact hsub List.mem_cons_self ‹_›
  | case7 => exact List.forall_mem_nil _

theorem nodes_declaredIn {stmts : List Stmt} {parts : List Part}
    (hparts : stmtParts .plain stmts ⊆ parts) :
    ∀ site ∈ declaredIn stmts, site.nodes ⊆ TreeNode.numbersOf parts := by
  intro site hsite id hid
  obtain ⟨stmt, hstmt, hsite⟩ := List.mem_flatMap.mp hsite
  exact TreeNode.mem_numbersOf_of_mem
    (hparts (List.mem_map.mpr ⟨stmt, List.mem_reverse.mp hstmt, rfl⟩))
    (stmt.nodes_declared site hsite hid)

theorem Part.nodes_declared (part : Part) :
    ∀ site ∈ part.declared, site.nodes ⊆ part.node.numbers := by
  have hin {node : TreeNode} {stmts : List Stmt} (hparts : stmtParts .plain stmts ⊆ node.parts) :
      ∀ site ∈ declaredIn stmts, site.nodes ⊆ node.numbers := by
    rw [node.numbers_eq]
    exact fun site hsite =>
      List.Subset.trans (nodes_declaredIn hparts site hsite) (List.subset_append_right _ _)
  have hown {node : TreeNode} {id : NodeId} {name : String} (hid : id ∈ node.ownIds) :
      (VariableSite.node id name).nodes ⊆ node.numbers :=
    List.cons_subset.mpr ⟨TreeNode.ownIds_subset_numbers hid, List.nil_subset _⟩
  obtain ⟨role, node⟩ := part
  cases node with
  | stmt node => exact node.nodes_declared
  | declarator node =>
      cases role with
      | plain => exact List.forall_mem_singleton.mpr (hown (List.mem_singleton_self _))
      | _ => exact List.forall_mem_nil _
  | resource node => exact List.forall_mem_map.mpr fun _ _ => hown (List.mem_singleton_self _)
  | param node => exact List.forall_mem_singleton.mpr (hown (List.mem_singleton_self _))
  | switchCase node => exact hin (List.subset_append_right _ _)
  | code body =>
      cases body with
      | lambda => exact List.forall_mem_nil _
      | _ => exact hin (List.Subset.refl _)
  | _ => exact List.forall_mem_nil _

theorem Course.SitesIn.one (part : Part) : (one part).SitesIn part.node.numbers where
  visible := List.forall_mem_singleton.mpr (List.forall_mem_nil _)
  leaves := part.nodes_declared

theorem Course.SitesIn.ofParts {parts : List Part} {ids : List NodeId}
    (h : ∀ part ∈ parts, part.node.numbers ⊆ ids) : (Course.ofParts parts).SitesIn ids := by
  induction parts with
  | nil => exact ⟨List.forall_mem_nil _, List.forall_mem_nil _⟩
  | cons part rest ih =>
      obtain ⟨hpart, hrest⟩ := List.forall_mem_cons.mp h
      exact ((one part).mono hpart).append (ih hrest)

namespace TreeNode

/-- The variables of a construct are declared in it. -/
theorem sitesIn_course (node : TreeNode) : node.course.SitesIn node.numbers := by
  have hparts {parts : List Part} (h : parts ⊆ node.parts) :
      (ofParts parts).SitesIn node.numbers :=
    .ofParts fun part hpart _ hid => mem_numbers_of_part (h hpart) hid
  have hone {part : Part} (h : part ∈ node.parts) : (one part).SitesIn node.numbers :=
    (Course.SitesIn.one part).mono fun _ hid => mem_numbers_of_part h hid
  have hown {id : NodeId} {name : String} (hid : id ∈ node.ownIds) :
      (declares [.node id name]).SitesIn node.numbers :=
    .declares (List.forall_mem_singleton.mpr
      (List.cons_subset.mpr ⟨ownIds_subset_numbers hid, List.nil_subset _⟩))
  have hlambda (span : Span) (before params : List String) :
      (declares (VariableSite.ofLambda span before params)).SitesIn node.numbers :=
    .declares fun site hsite =>
      VariableSite.nodes_ofLambda span before params site hsite ▸ List.nil_subset _
  cases node with
  | expr node =>
      rw [course]
      obtain ⟨id, kind, span⟩ := node
      cases kind with
      | lambda params body => exact ((hlambda span [] params).append (hone List.mem_cons_self)).confined
      | _ => exact hparts (List.Subset.refl _)
  | stmt node =>
      rw [course]
      obtain ⟨id, kind, span⟩ := node
      cases kind with
      | block body => exact (hparts (List.Subset.refl _)).confined
      | forLoop init cond update body => exact (hparts (List.Subset.refl _)).confined
      | forEach type name iterated body =>
          exact (hone List.mem_cons_self).append
            ((hown List.mem_cons_self).append (hone (List.mem_cons_of_mem _ List.mem_cons_self))).confined
      | tryCatch resources body catches finallyBody =>
          refine ((hparts ?_).append (hparts ?_).confined).confined.append (hparts ?_)
            |>.append (hparts ?_).confined
          · exact List.subset_append_of_subset_left _
              (List.subset_append_of_subset_left _ (List.subset_append_left _ _))
          · exact List.subset_append_of_subset_left _
              (List.subset_append_of_subset_left _ (List.subset_append_right _ _))
          · exact List.subset_append_of_subset_left _ (List.subset_append_right _ _)
          · exact List.subset_append_right _ _
      | «synchronized» lock body =>
          exact (hone List.mem_cons_self).append (hparts (List.subset_cons_self _ _)).confined
      | switch selector cases =>
          exact (hone List.mem_cons_self).append (hparts (List.subset_cons_self _ _)).confined
      | _ => exact hparts (List.Subset.refl _)
  | catchClause node =>
      exact ((hown (List.mem_singleton_self _)).append (hparts (List.Subset.refl _))).confined
  | member node =>
      rw [course]
      obtain ⟨id, kind, span⟩ := node
      cases kind with
      | method decl =>
          refine (hparts ?_).append ((hparts ?_).append (hone ?_)).confined
          · exact List.subset_append_of_subset_left _ (List.subset_append_left _ _)
          · exact List.subset_append_of_subset_left _ (List.subset_append_right _ _)
          · exact List.mem_append_right _ List.mem_cons_self
      | initializer isStatic body => exact (hone List.mem_cons_self).confined
      | _ => exact hparts (List.Subset.refl _)
  | _ => exact hparts (List.Subset.refl _)

end TreeNode

/-! ### What a place sees -/

/-- What can give a name its meaning at a place. -/
inductive ScopeMark where
  | variable (site : VariableSite)
  /-- The body of the class with this number. -/
  | classBody (node : NodeId)

/-- The number of the node of a mark, if it has one. -/
def ScopeMark.nodes : ScopeMark → List NodeId
  | .variable site => site.nodes
  | .classBody node => [node]

/-- The class body that a part is in. -/
def PartRole.marks : PartRole → List ScopeMark
  | .member classNode => [.classBody classNode]
  | _ => []

namespace TreeNode

/-- What is seen at the end of a path into a construct because of the construct, the nearest first. -/
def marks : TreeNode → List PathStep → List ScopeMark
  | _, [] => []
  | node, step :: rest =>
      match node.course.seen[step.index]? with
      | some seen => seen.part.node.marks rest ++ step.role.marks ++ seen.visible.map .variable
      | none => []

theorem marks_cons {node : TreeNode} {seen : SeenPart} {step : PathStep}
    (hseen : node.course.seen[step.index]? = some seen) (rest : List PathStep) :
    node.marks (step :: rest) =
      seen.part.node.marks rest ++ step.role.marks ++ seen.visible.map .variable := by
  rw [marks, hseen]

end TreeNode

/-- What a place sees in a construct is declared there. -/
theorem Within.nodes_marks {outer inner : TreeNode} {path : List PathStep}
    (h : Within outer path inner) : ∀ mark ∈ outer.marks path, mark.nodes ⊆ outer.numbers := by
  induction h with
  | here => exact List.forall_mem_nil _
  | @part node child inner step path hpart hinner ih =>
      obtain ⟨⟨part, visible⟩, hseen, rfl⟩ := TreeNode.exists_seen_of_parts hpart
      rw [TreeNode.marks_cons hseen]
      have hmem := List.mem_of_getElem? hpart
      refine List.forall_mem_append.mpr ⟨List.forall_mem_append.mpr ⟨fun mark hmark id hid => ?_, ?_⟩,
        List.forall_mem_map.mpr fun site hsite => ?_⟩
      · exact TreeNode.mem_numbers_of_part hmem (ih mark hmark hid)
      · cases hrole : step.role with
        | member classNode =>
            refine List.forall_mem_singleton.mpr (List.cons_subset.mpr ⟨?_, List.nil_subset _⟩)
            exact (Within.part hpart hinner).mem_numbers_of_member List.mem_cons_self hrole
        | _ => exact List.forall_mem_nil _
      · exact node.sitesIn_course.visible _ (List.mem_of_getElem? hseen) site hsite

end LockDiscipline
