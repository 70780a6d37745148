import LockDiscipline.Proofs.Program.ClassBody
import LockDiscipline.Proofs.Tree.Parentheses
/-!
# The resolver goes through changed trees in step

The functions of the resolver call each other as the constructs lie in each other. `Resolving.InStep` keeps what
they do apart from what is shown of it: it relates a computation on a construct to the one on the changed construct
when both do the same things in the same order, and says what the first one goes through. A tree is changed by being
retouched and by losing extra parentheses. The recursion is followed here once, by one induction on the tree with a
case for each construct; what is to be shown of one run or of two runs is then shown of each thing that the resolver
does, by induction on `InStep`.
-/

namespace LockDiscipline

/-- The number of an expression of a kind that can refer to a symbol. -/
def ExprKind.referring (id : NodeId) : ExprKind → List NodeId
  | .name _ | .qualifiedThis _ | .classLiteral _ | .select .. | .call .. | .new .. => [id]
  | _ => []

theorem ExprKind.referring_sublist (id : NodeId) (kind : ExprKind) :
    (kind.referring id).Sublist [id] := by
  cases kind <;> first | exact List.Sublist.refl _ | exact List.nil_sublist _

/-! ### Courses of constructs -/

/-- The arguments of a call are gone through before its receiver, although they stand behind it. -/
theorem ExprKind.perm_call (receiver : Expr) (method : String) (args : List Expr) (span : Span) :
    (Course.ofParts (exprParts .plain args) ++ .one ⟨.plain, .expr receiver⟩).seen.Perm
      (ExprKind.course span (.call (some receiver) method args)).seen := by
  change List.Perm _ (Course.one _ ++ Course.ofParts (exprParts .plain args)).seen
  rw [Course.seen_append_of_leaves_eq_nil (Course.leaves_exprParts ..),
    Course.seen_append_of_leaves_eq_nil (by rfl)]
  exact List.perm_append_comm

theorem ExprKind.leaves_call (receiver : Expr) (method : String) (args : List Expr) (span : Span) :
    (Course.ofParts (exprParts .plain args) ++ .one ⟨.plain, .expr receiver⟩).leaves =
      (ExprKind.course span (.call (some receiver) method args)).leaves := by
  rw [ExprKind.leaves_course, Course.leaves_append, Course.leaves_exprParts]
  rfl

theorem ExprKind.course_new (type : String) (args : List Expr) (body : Option ClassDecl) (span : Span) :
    ExprKind.course span (.new type args body) =
      .ofParts (exprParts .plain args) ++ .ofParts (body.toList.map nestedPart) := by
  cases body <;> simp [ExprKind.course, ExprKind.parts, Course.ofParts_append, Course.ofParts]

theorem ExprKind.course_newArray (element : String) (dims : List Expr) (init : Option (List Expr))
    (span : Span) :
    ExprKind.course span (.newArray element dims init) =
      .ofParts (exprParts .plain dims) ++ .ofParts (exprParts .plain (init.getD [])) := by
  cases init <;> simp [ExprKind.course, ExprKind.parts, Course.ofParts_append, Course.ofParts, exprParts]

theorem StmtKind.course_forLoop (init : List Stmt) (cond : Option Expr) (update : List Expr) (body : Stmt)
    (id : NodeId) : StmtKind.course id (.forLoop init cond update body) =
      Course.confined (.ofParts (stmtParts .plain init) ++ (.ofParts (exprParts .plain cond.toList) ++
        (.ofParts (exprParts .plain update) ++ .one ⟨.plain, .stmt body⟩))) := by
  cases cond <;>
    simp [StmtKind.course, StmtKind.parts, Course.ofParts_append, Course.ofParts, exprParts, stmtParts]

/-! ### Changed trees -/

/-- How trees are retouched and parentheses taken away from them, such that every expression stays in one
place. Of the selections whose names become visible only those in `hidden` are considered, and of the bare names
only those that `spells` allows. -/
structure Shedding where
  retouch : Retouch
  extra : NodeId → Bool := fun _ => false
  hidden : NodeId → Prop := fun _ => False
  spells : String → Prop := fun _ => True
  span_strip : ∀ expr : Expr, ((expr.retouch retouch).strip extra).span = retouch.span expr.span

namespace Shedding

variable {shedding : Shedding} {node inner : TreeNode}

/-- The selections in a construct whose names become visible are considered, and so are the bare names in it. -/
structure Admits (shedding : Shedding) (node : TreeNode) : Prop where
  hides : node.HidesOnly shedding.extra shedding.hidden
  spells : ∀ ⦃path id name span⦄, Within node path (.expr ⟨id, .name name, span⟩) → shedding.spells name

theorem Admits.child (h : shedding.Admits node) (hinner : inner ∈ node.parts.map (·.node)) :
    shedding.Admits inner := by
  obtain ⟨part, hpart, rfl⟩ := List.mem_map.mp hinner
  refine ⟨h.hides.parts part hpart, fun path id name span hwithin => ?_⟩
  obtain ⟨index, hindex⟩ := List.getElem?_of_mem hpart
  have hpath : Within node (⟨index, part.role⟩ :: path) (.expr ⟨id, .name name, span⟩) := .part hindex hwithin
  exact h.spells hpath

/-- Trees stay as they are. -/
def idle : Shedding where
  retouch := ⟨id, fun _ keywords => keywords, fun _ name => name⟩
  span_strip expr := by rw [Expr.strip_none, Expr.span_retouch]

theorem admits_idle (node : TreeNode) : idle.Admits node :=
  ⟨.of_none node, fun _ _ _ _ _ => trivial⟩

end Shedding

namespace Resolving

/-- Resolve a label of a case, which names a constant where the selector is an enum. -/
def resolveLabel (selector : Option SymbolId) (label : Expr) : Tracked Unit := do
  match ← findConstant selector label.kind with
  | some constant => setUse label.id constant
  | none =>
      let _ ← resolveExpr label

/-- Record what a call on a receiver refers to, and keep in which class its method is looked up. -/
def useMethodOf (node : NodeId) (type : Option SymbolId) (method : String) (arity : Nat) : Tracked Denotation := do
  lookIn node type
  useMethod node (← ask fun program => type.bind fun owner => program.findMethod? owner method arity)

/-! ### Constructs by their parts -/

namespace Unfolds

theorem localVariable (node : Declarator) :
    Unfolds .plain (.declarator node) [node.id] (.ofParts (exprParts .plain node.init.toList) ++
      .declares [.node node.id node.name]) := by
  have hresolved : (TreeNode.declarator node).resolved = (TreeNode.declarator node).course.seen :=
    TreeNode.resolved_eq (List.forall_mem_map.mpr fun _ _ => rfl)
  refine ⟨rfl, .of_eq ?_, ?_, nofun, rfl, nofun⟩
  · rw [hresolved]
    exact List.append_nil _
  · rw [Course.leaves_append, Course.leaves_exprParts]
    rfl

theorem fieldVariable (node : Declarator) :
    Unfolds .declared (.declarator node) [] (.ofParts (exprParts .plain node.init.toList)) := by
  have hresolved : (TreeNode.declarator node).resolved = (TreeNode.declarator node).course.seen :=
    TreeNode.resolved_eq (List.forall_mem_map.mpr fun _ _ => rfl)
  exact ⟨rfl, .of_eq hresolved.symm, Course.leaves_exprParts .., nofun, rfl, nofun⟩

variable (role : PartRole) (hrole : role ≠ .nested)
include hrole

theorem resource (node : Resource) :
    Unfolds role (.resource node) [node.id] (.one ⟨.plain, .expr node.init⟩ ++
      .declares (node.name.toList.map (.node node.id))) :=
  ⟨rfl, .of_eq rfl, List.append_nil _, hrole, rfl, nofun⟩

theorem catchClause (node : CatchClause) :
    Unfolds role (.catchClause node) [node.id] (Course.confined (.declares [.node node.id node.name] ++
      .ofParts (stmtParts .plain node.body))) := by
  have hresolved : (TreeNode.catchClause node).resolved = (TreeNode.catchClause node).course.seen :=
    TreeNode.resolved_eq (List.forall_mem_map.mpr fun _ _ => rfl)
  exact ⟨rfl, .of_eq hresolved.symm, rfl, hrole, rfl, nofun⟩

theorem switchCase (node : SwitchCase) :
    Unfolds role (.switchCase node) []
      (.ofParts (exprParts .label node.labels) ++ .ofParts (stmtParts .plain node.body)) := by
  have hresolved : (TreeNode.switchCase node).resolved = (TreeNode.switchCase node).course.seen :=
    TreeNode.resolved_eq (List.forall_mem_append.mpr
      ⟨List.forall_mem_map.mpr fun _ _ => rfl, List.forall_mem_map.mpr fun _ _ => rfl⟩)
  refine ⟨rfl, .of_eq ?_, ?_, hrole, rfl, nofun⟩
  · exact hresolved.symm ▸ congrArg Course.seen (Course.ofParts_append ..).symm
  · rw [Course.leaves_append, Course.leaves_exprParts, List.append_nil, Course.leaves_stmtParts]
    rfl

theorem param (node : Param) :
    Unfolds role (.param node) [node.id] (.declares [.node node.id node.name]) :=
  ⟨rfl, .of_eq (TreeNode.filter_modifiers _).symm, rfl, hrole, rfl, nofun⟩

theorem code {course : Course} (body : UnitBody) (hseen : course.seen = (Course.ofParts body.parts).seen)
    (hleaves : course.leaves = body.declared) : Unfolds role (.code body) [] course := by
  have hresolved : (TreeNode.code body).resolved = (TreeNode.code body).course.seen := by
    refine TreeNode.resolved_eq fun part hpart => ?_
    rcases body with _ | _ | (_ | _) <;> obtain ⟨item, -, rfl⟩ := List.mem_map.mp hpart <;> rfl
  exact ⟨rfl, .of_eq (hseen.trans hresolved.symm), hleaves, hrole, rfl, nofun⟩

omit hrole

section Members

variable (id : NodeId) (span : Span)

/-- A member is gone through when its parts outside annotations are. -/
private theorem member {kind : MemberKind} {course : Course}
    (hseen : course.seen = kind.course.seen.filter (·.part.role.isResolved)) (hleaves : course.leaves = []) :
    Unfolds .declared (.member ⟨id, kind, span⟩) [] course :=
  ⟨rfl, .of_eq hseen, hleaves, nofun, rfl, nofun⟩

theorem field (modifiers : Modifiers) (type : String) (declarators : List Declarator) :
    Unfolds .declared (.member ⟨id, .field modifiers type declarators, span⟩) []
      (.ofParts (declarators.map fun declarator => ⟨.declared, .declarator declarator⟩)) := by
  refine member id span ?_ (Course.leaves_ofParts_eq_nil (List.forall_mem_map.mpr fun _ _ => rfl))
  rw [MemberKind.course, MemberKind.parts, Course.ofParts_append]
  · refine (TreeNode.filter_append_modifiers modifiers ?_).symm
    rw [Course.parts_ofParts]
    exact List.forall_mem_map.mpr fun _ _ => rfl
  all_goals simp

theorem enumConstant (name : String) (args : List Expr) (body : Option ClassDecl) :
    Unfolds .declared (.member ⟨id, .enumConstant name args body, span⟩) []
      (.ofParts (exprParts .declared args) ++ .ofParts (body.toList.map nestedPart)) := by
  have hcourse : MemberKind.course (.enumConstant name args body) =
      .ofParts (exprParts .declared args) ++ .ofParts (body.toList.map nestedPart) :=
    Course.ofParts_append ..
  refine member id span ?_ ?_
  · rw [hcourse, TreeNode.filter_seen]
    rw [Course.parts_append, Course.parts_ofParts, Course.parts_ofParts]
    exact List.forall_mem_append.mpr
      ⟨List.forall_mem_map.mpr fun _ _ => rfl, List.forall_mem_map.mpr fun _ _ => rfl⟩
  · rw [Course.leaves_append, Course.leaves_exprParts]
    cases body <;> rfl

theorem method (method : MethodDecl) : Unfolds .declared (.member ⟨id, .method method, span⟩) []
    (Course.confined (.ofParts (method.params.map fun param => ⟨.declared, .param param⟩) ++
      .one ⟨.code, .code (.method method)⟩)) := by
  refine member id span (TreeNode.filter_append_modifiers method.modifiers ?_).symm
    (List.append_eq_nil_iff.mpr ⟨rfl, rfl⟩)
  rw [Course.parts_confined, Course.parts_append, Course.parts_ofParts]
  exact List.forall_mem_append.mpr
    ⟨List.forall_mem_map.mpr fun _ _ => rfl, List.forall_mem_singleton.mpr rfl⟩

theorem initializer (isStatic : Bool) (body : List Stmt) :
    Unfolds .declared (.member ⟨id, .initializer isStatic body, span⟩) []
      (Course.confined (.one ⟨.code, .code (.initializer body)⟩)) :=
  member id span rfl rfl

theorem memberClass (decl : ClassDecl) : Unfolds .declared (.member ⟨id, .classDecl decl, span⟩) []
    (.one ⟨.declared, .classDecl decl⟩) :=
  member id span rfl rfl

end Members

end Unfolds

/-- A label is resolved before the labels behind it. -/
theorem resolveLabels_cons (selector : Option SymbolId) (label : Expr) (rest : List Expr) :
    resolveLabels selector (label :: rest) =
      resolveLabel selector label >>= fun _ => resolveLabels selector rest := by
  rw [resolveLabels, resolveLabel, bind_assoc]
  congr 1
  funext found
  cases found <;> rfl

/-! ### Computations in step -/

/-- A computation does what the resolver does with the parts of a construct, and the other one does the same with
the parts of the changed construct. Uses are recorded only for these and for some more numbers. -/
inductive InStep (shedding : Shedding) :
    {α : Type} → List NodeId → Course → Tracked α → Tracked α → Prop where
  | pure {α : Type} (value : α) : InStep shedding [] .nil (Pure.pure value) (Pure.pure value)
  | bind {α β : Type} {ids ids' : List NodeId} {course course' : Course} {first first' : Tracked α}
      {second second' : α → Tracked β} (hfirst : InStep shedding ids course first first')
      (hsecond : ∀ value, InStep shedding ids' course' (second value) (second' value)) :
      InStep shedding (ids ++ ids') (course ++ course') (first >>= second) (first' >>= second')
  | weaken {α : Type} {ids ids' : List NodeId} {course course' : Course} {build build' : Tracked α}
      (h : InStep shedding ids course build build') (hids : ids.Sublist ids')
      (hseen : course.seen.Perm course'.seen) (hleaves : course.leaves = course'.leaves) :
      InStep shedding ids' course' build build'
  | inScope {α : Type} {ids : List NodeId} {course : Course} {build build' : Tracked α} (kind : ScopeKind)
      (hkind : kind.class? = none) (h : InStep shedding ids course build build') :
      InStep shedding ids course.confined (inScope kind build) (inScope kind build')
  | currentClass? : InStep shedding [] .nil currentClass? currentClass?
  | superclass (context : Option SymbolId) : InStep shedding [] .nil
      (ask fun program => context.bind program.superclass?) (ask fun program => context.bind program.superclass?)
  | used (node : NodeId) : InStep shedding [] .nil (ask (·.use? node)) (ask (·.use? node))
  | findTypeHere (type : String) : InStep shedding [] .nil (findTypeHere type) (findTypeHere type)
  | setUse (node : NodeId) (id : SymbolId) : InStep shedding [node] .nil (setUse node id) (setUse node id)
  | useType (node : NodeId) (found : Option SymbolId) :
      InStep shedding [node] .nil (useType node found) (useType node found)
  | useMethod (node : NodeId) (found : Option SymbolId) :
      InStep shedding [node] .nil (useMethod node found) (useMethod node found)
  | findScopedMethod (method : String) (arity : Nat) :
      InStep shedding [] .nil (findScopedMethod method arity) (findScopedMethod method arity)
  | useMethodOf (node : NodeId) (type : Option SymbolId) (method : String) (arity : Nat) :
      InStep shedding [node] .nil (useMethodOf node type method arity) (useMethodOf node type method arity)
  | resolveName (node : NodeId) {name : String} (hname : shedding.spells name) : InStep shedding [node] .nil
      (resolveName node name) (resolveName node (shedding.retouch.name node name))
  | resolveSelect {node : NodeId} {object : Expr} {name : String} {span : Span}
      (hadmits : shedding.Admits (.expr ⟨node, .select object name, span⟩)) (qualifier : Denotation) :
      InStep shedding [node] .nil
        (resolveSelect node qualifier name (object.dottedName?.map (· ++ "." ++ name)))
        (resolveSelect node qualifier name
          ((((object.retouch shedding.retouch).strip shedding.extra)).dottedName?.map (· ++ "." ++ name)))
  | localType (type : Option String) (init : Denotation) :
      InStep shedding [] .nil (localType type init) (localType type init)
  | localVariable (name : String) (type : Option String) (node : NodeId) (span : Span) :
      InStep shedding [node] (.declares [.node node name]) (declareVariable name type (some node) span false)
        (declareVariable (shedding.retouch.name node name) type (some node) (shedding.retouch.span span) false)
  | parameter (name : String) (type : Option String) (node : NodeId) (span : Span) :
      InStep shedding [node] (.declares [.node node name]) (declareVariable name type (some node) span true)
        (declareVariable name type (some node) (shedding.retouch.span span) true)
  | lambdaParams (span : Span) (names : List String) :
      InStep shedding [] (.declares (VariableSite.ofLambda span [] names)) (declareLambdaParams span names)
        (declareLambdaParams (shedding.retouch.span span) names)
  | unfold {α : Type} {role : PartRole} {node : TreeNode} {ids : List NodeId} {course : Course}
      {build build' : Tracked α} (hunfolds : Unfolds role node ids course)
      (h : InStep shedding ids course build build') : InStep shedding [] (.one ⟨role, node⟩) build build'
  | expr {id : NodeId} {kind kind' : ExprKind} {span : Span} (role : PartRole) (hrole : role ≠ .nested)
      (h : InStep shedding [id] (kind.course span) (resolveExprKind id span kind)
        (resolveExprKind id (shedding.retouch.span span) kind')) :
      InStep shedding [] (.one ⟨role, .expr ⟨id, kind, span⟩⟩) (resolveExpr ⟨id, kind, span⟩)
        (resolveExpr (Expr.shed shedding.extra ⟨id, kind', shedding.retouch.span span⟩))
  | stmt {id : NodeId} {kind : StmtKind} {span : Span} {build' : Tracked Unit} (role : PartRole)
      (hrole : role ≠ .nested)
      (h : InStep shedding [id] (kind.course id) (resolveStmt ⟨id, kind, span⟩) build') :
      InStep shedding [] (.one ⟨role, .stmt ⟨id, kind, span⟩⟩) (resolveStmt ⟨id, kind, span⟩) build'
  | label {id : NodeId} {kind : ExprKind} {span : Span} (selector : Option SymbolId)
      (h : InStep shedding [id] (kind.course span) (resolveExprKind id span kind)
        (resolveExprKind id (shedding.retouch.span span)
          (((kind.retouch shedding.retouch).respell (shedding.retouch.name id)).strip shedding.extra))) :
      InStep shedding [] (.one ⟨.label, .expr ⟨id, kind, span⟩⟩) (resolveLabel selector ⟨id, kind, span⟩)
        (resolveLabel selector
          ⟨id, ((kind.retouch shedding.retouch).respell (shedding.retouch.name id)).strip shedding.extra,
            shedding.retouch.span span⟩)
  | nested {decl : ClassDecl} (h : InStep shedding [] (.ofParts (memberParts decl.members))
      (resolveMembers decl.members)
      (resolveMembers (stripMembers shedding.extra (retouchMembers shedding.retouch decl.members)))) :
      InStep shedding [] (.one (nestedPart decl)) (resolveNested decl)
        (resolveNested ((decl.retouch shedding.retouch).strip shedding.extra))
  | memberClass {decl : ClassDecl} (h : InStep shedding [] (.ofParts (memberParts decl.members))
      (resolveMembers decl.members)
      (resolveMembers (stripMembers shedding.extra (retouchMembers shedding.retouch decl.members)))) :
      InStep shedding [] (.one ⟨.declared, .classDecl decl⟩) (resolveMemberClass decl)
        (resolveMemberClass ((decl.retouch shedding.retouch).strip shedding.extra))

namespace InStep

variable {shedding : Shedding} {α β : Type} {ids ids' : List NodeId} {course course' : Course}

/-- A computation may be followed by one that goes through nothing. -/
theorem finish {first first' : Tracked α} {second second' : α → Tracked β}
    (hfirst : InStep shedding ids course first first')
    (hsecond : ∀ value, InStep shedding ids' .nil (second value) (second' value)) :
    InStep shedding (ids ++ ids') course (first >>= second) (first' >>= second') := by
  simpa using hfirst.bind hsecond

/-- A computation may come before one that goes through something. -/
theorem prepare {first first' : Tracked α} {second second' : α → Tracked β}
    (hfirst : InStep shedding ids .nil first first')
    (hsecond : ∀ value, InStep shedding ids' course (second value) (second' value)) :
    InStep shedding (ids ++ ids') course (first >>= second) (first' >>= second') := by
  simpa using hfirst.bind hsecond

theorem idle {build build' : Tracked α} (h : InStep shedding [] course build build') :
    InStep shedding ids course build build' :=
  h.weaken (List.nil_sublist _) (List.Perm.refl _) rfl

theorem of_eq {build build' : Tracked α} (h : InStep shedding ids course build build') (hcourse : course = course') :
    InStep shedding ids course' build build' :=
  hcourse ▸ h

/-- A local variable has the declared type or that of its initial value. -/
theorem declareLocal (name : String) (type : Option String) (node : NodeId) (span : Span) (init : Denotation) :
    InStep shedding [node] (.declares [.node node name])
      (do
        let declared ← Resolving.localType type init
        declareVariable name declared (some node) span false)
      (do
        let declared ← Resolving.localType type init
        declareVariable (shedding.retouch.name node name) declared (some node) (shedding.retouch.span span) false) :=
  (localType type init).prepare fun declared => localVariable name declared node span

/-- The parameters of a method are declared in its scope. -/
theorem declareParams (params : List Param) :
    InStep shedding [] (.ofParts (params.map fun param => ⟨.declared, .param param⟩)) (declareParams params)
      (declareParams (retouchParams shedding.retouch params)) := by
  induction params with
  | nil => exact pure ()
  | cons param rest ih =>
      obtain ⟨node, name, type, modifiers, isVarargs, span⟩ := param
      rw [Resolving.declareParams]
      exact (unfold (.param .declared nofun _) (parameter name _ node span)).bind fun _ => ih

end InStep

/-! ### The recursion of the resolver -/

section Bodies

variable {shedding : Shedding}

attribute [local simp] TreeNode.parts ExprKind.parts StmtKind.parts MemberKind.parts UnitBody.parts exprParts
  stmtParts nestedPart

mutual

theorem inStep_resolveExpr (role : PartRole) (hrole : role ≠ .nested) : ∀ expr : Expr,
    shedding.Admits (.expr expr) →
    InStep shedding [] (.one ⟨role, .expr expr⟩) (resolveExpr expr)
      (resolveExpr ((expr.retouch shedding.retouch).strip shedding.extra))
  | ⟨id, kind, span⟩, h => .expr role hrole
      ((inStep_resolveExprKind id span kind h).weaken (kind.referring_sublist id) (List.Perm.refl _) rfl)

theorem inStep_resolveExprKind (id : NodeId) (span : Span) : ∀ kind : ExprKind,
    shedding.Admits (.expr ⟨id, kind, span⟩) → InStep shedding (kind.referring id) (kind.course span)
      (resolveExprKind id span kind) (resolveExprKind id (shedding.retouch.span span)
        (((kind.retouch shedding.retouch).respell (shedding.retouch.name id)).strip shedding.extra))
  | .name name, h => by
    rw [resolveExprKind]
    exact .resolveName id (h.spells (.here _))
  | .this, _ => by
    rw [resolveExprKind]
    exact InStep.currentClass?.finish fun _ => .pure _
  | .super, _ => by
    rw [resolveExprKind]
    exact InStep.currentClass?.finish fun context => (InStep.superclass context).finish fun _ => .pure _
  | .qualifiedThis type, _ => by
    rw [resolveExprKind]
    refine (InStep.findTypeHere type).finish fun found => ?_
    cases found with
    | some found => exact (InStep.setUse id found).finish fun _ => .pure _
    | none => exact (InStep.pure _).idle
  | .classLiteral type, _ => by
    rw [resolveExprKind]
    exact (InStep.findTypeHere type).finish fun found => (InStep.useType id found).finish fun _ => .pure _
  | .select object name, h => by
    rw [resolveExprKind]
    exact (inStep_resolveExpr .plain nofun object (h.child (by simp))).finish fun qualifier =>
      .resolveSelect h qualifier
  | .call none method args, h => by
    have hlength : (stripExprs shedding.extra (retouchExprs shedding.retouch args)).length = args.length := by
      simp
    simp only [ExprKind.retouch, ExprKind.respell, ExprKind.strip, retouchOption, stripOption, resolveExprKind,
      hlength]
    exact (inStep_resolveExprs .plain nofun args fun arg harg => h.child (by simp [harg])).finish fun _ =>
      (InStep.findScopedMethod method args.length).finish fun found => .useMethod id found
  | .call (some receiver) method args, h => by
    have hlength : (stripExprs shedding.extra (retouchExprs shedding.retouch args)).length = args.length := by
      simp
    simp only [ExprKind.retouch, ExprKind.respell, ExprKind.strip, retouchOption, stripOption, resolveExprKind,
      hlength]
    exact .weaken ((inStep_resolveExprs .plain nofun args fun arg harg => h.child (by simp [harg])).bind fun _ =>
      (inStep_resolveExpr .plain nofun receiver (h.child (by simp))).finish fun target =>
        .useMethodOf id target.memberClass? method args.length)
      (List.Sublist.refl _) (ExprKind.perm_call ..) (ExprKind.leaves_call ..)
  | .new type args none, h => by
    rw [resolveExprKind]
    exact .of_eq ((inStep_resolveExprs .plain nofun args fun arg harg => h.child (by simp [harg])).bind fun _ =>
      (InStep.findTypeHere type).finish fun created =>
        (InStep.useType id created).finish fun _ => .pure _) (ExprKind.course_new type args none span).symm
  | .new type args (some body), h => by
    rw [resolveExprKind]
    exact .of_eq ((inStep_resolveExprs .plain nofun args fun arg harg => h.child (by simp [harg])).bind fun _ =>
      (inStep_resolveNested body (h.child (by simp))).finish fun created =>
        (InStep.useType id created).finish fun _ => .pure _)
      (ExprKind.course_new type args (some body) span).symm
  | .newArray element dims none, h => by
    rw [resolveExprKind]
    exact .of_eq ((inStep_resolveExprs .plain nofun dims fun dim hdim => h.child (by simp [hdim])).bind fun _ =>
      (InStep.pure _).finish fun _ => .pure _) (ExprKind.course_newArray element dims none span).symm
  | .newArray element dims (some items), h => by
    rw [resolveExprKind]
    exact .of_eq ((inStep_resolveExprs .plain nofun dims fun dim hdim => h.child (by simp [hdim])).bind fun _ =>
      (inStep_resolveExprs .plain nofun items fun item hitem => h.child (by simp [hitem])).finish fun _ => .pure _)
      (ExprKind.course_newArray element dims (some items) span).symm
  | .arrayInit items, h => by
    rw [resolveExprKind]
    exact (inStep_resolveExprs .plain nofun items fun item hitem => h.child (by simp [hitem])).finish fun _ => .pure _
  | .index object index, h => by
    rw [resolveExprKind]
    exact (inStep_resolveExpr .plain nofun object (h.child (by simp))).bind fun _ =>
      (inStep_resolveExpr .plain nofun index (h.child (by simp))).finish fun _ => .pure _
  | .unary op operand, h => by
    rw [resolveExprKind]
    exact (inStep_resolveExpr .plain nofun operand (h.child (by simp))).finish fun _ => .pure _
  | .binary op left right, h => by
    rw [resolveExprKind]
    exact (inStep_resolveExpr .plain nofun left (h.child (by simp))).bind fun _ =>
      (inStep_resolveExpr .plain nofun right (h.child (by simp))).finish fun _ => .pure _
  | .assign op target value, h => by
    rw [resolveExprKind]
    exact (inStep_resolveExpr .plain nofun target (h.child (by simp))).bind fun _ =>
      (inStep_resolveExpr .plain nofun value (h.child (by simp))).finish fun _ => .pure _
  | .conditional cond whenTrue whenFalse, h => by
    rw [resolveExprKind]
    exact (inStep_resolveExpr .plain nofun cond (h.child (by simp))).bind fun _ =>
      (inStep_resolveExpr .plain nofun whenTrue (h.child (by simp))).bind fun _ =>
        (inStep_resolveExpr .plain nofun whenFalse (h.child (by simp))).finish fun _ => .pure _
  | .instanceOf expr type, h => by
    rw [resolveExprKind]
    exact (inStep_resolveExpr .plain nofun expr (h.child (by simp))).finish fun _ => .pure _
  | .cast type expr, h => by
    rw [resolveExprKind]
    exact (inStep_resolveExpr .plain nofun expr (h.child (by simp))).finish fun _ =>
      (InStep.findTypeHere type).finish fun _ => .pure _
  | .lambda params body, h => by
    rw [resolveExprKind]
    have hbody := (@InStep.lambdaParams shedding span params).bind fun _ =>
      inStep_resolveLambdaBody body (h.child (by simp))
    exact (hbody.inScope .lambda rfl).finish fun _ => .pure _
  | .methodRef target name, h => by
    rw [resolveExprKind]
    exact (inStep_resolveExpr .plain nofun target (h.child (by simp))).finish fun _ => .pure _
  | .paren inner, h => by
    rw [resolveExprKind]
    exact inStep_resolveExpr .plain nofun inner (h.child (by simp))
  | .int _, _ | .float _, _ | .string _, _ | .char _, _ | .bool _, _ | .null, _ => by
    rw [resolveExprKind]
    exact .pure _

theorem inStep_resolveExprs (role : PartRole) (hrole : role ≠ .nested) : ∀ exprs : List Expr,
    (∀ expr ∈ exprs, shedding.Admits (.expr expr)) →
    InStep shedding [] (.ofParts (exprParts role exprs)) (resolveExprs exprs)
      (resolveExprs (stripExprs shedding.extra (retouchExprs shedding.retouch exprs)))
  | [], _ => by
    rw [resolveExprs]
    exact .pure ()
  | expr :: rest, h => by
    obtain ⟨hexpr, hrest⟩ := List.forall_mem_cons.mp h
    rw [resolveExprs]
    exact (inStep_resolveExpr role hrole expr hexpr).bind fun _ => inStep_resolveExprs role hrole rest hrest

theorem inStep_resolveLambdaBody : ∀ body : LambdaBody, shedding.Admits (.code (.lambda body)) →
    InStep shedding [] (.one ⟨.code, .code (.lambda body)⟩) (resolveLambdaBody body)
      (resolveLambdaBody ((body.retouch shedding.retouch).strip shedding.extra))
  | .expr value, h => by
    rw [resolveLambdaBody]
    exact .unfold (.code .code nofun (.lambda (.expr value)) rfl rfl)
      ((inStep_resolveExpr .plain nofun value (h.child (by simp))).finish fun _ => .pure _)
  | .block body, h => by
    rw [resolveLambdaBody]
    have hbody := (inStep_resolveStmts .plain nofun body fun stmt hstmt => h.child (by simp [hstmt])).inScope
      .block rfl
    refine .unfold (.code .code nofun (.lambda (.block body)) ?_ ?_) hbody <;> rfl

theorem inStep_resolveStmts (role : PartRole) (hrole : role ≠ .nested) : ∀ stmts : List Stmt,
    (∀ stmt ∈ stmts, shedding.Admits (.stmt stmt)) →
    InStep shedding [] (.ofParts (stmtParts role stmts)) (resolveStmts stmts)
      (resolveStmts (stripStmts shedding.extra (retouchStmts shedding.retouch stmts)))
  | [], _ => by
    rw [resolveStmts]
    exact .pure ()
  | stmt :: rest, h => by
    obtain ⟨hstmt, hrest⟩ := List.forall_mem_cons.mp h
    rw [resolveStmts]
    exact (inStep_resolveStmt role hrole stmt hstmt).bind fun _ => inStep_resolveStmts role hrole rest hrest

theorem inStep_resolveStmt (role : PartRole) (hrole : role ≠ .nested) : ∀ stmt : Stmt,
    shedding.Admits (.stmt stmt) →
    InStep shedding [] (.one ⟨role, .stmt stmt⟩) (resolveStmt stmt)
      (resolveStmt ((stmt.retouch shedding.retouch).strip shedding.extra))
  | ⟨id, kind, span⟩, h => .stmt role hrole (inStep_resolveStmtKind id span kind h)

theorem inStep_resolveStmtKind (id : NodeId) (span : Span) : ∀ kind : StmtKind,
    shedding.Admits (.stmt ⟨id, kind, span⟩) →
    InStep shedding [id] (kind.course id) (resolveStmt ⟨id, kind, span⟩)
      (resolveStmt (((⟨id, kind, span⟩ : Stmt).retouch shedding.retouch).strip shedding.extra))
  | .expr value, h | .throw value, h => by
    rw [resolveStmt]
    exact ((inStep_resolveExpr .plain nofun value (h.child (by simp))).finish fun _ => .pure _).idle
  | .localVars type declarators, h => by
    rw [resolveStmt]
    exact (inStep_resolveDeclarators type declarators fun declarator hmem => h.child (by simp [hmem])).idle
  | .block body, h => by
    rw [resolveStmt]
    exact ((inStep_resolveStmts .plain nofun body fun stmt hstmt => h.child (by simp [hstmt])).inScope .block
      rfl).idle
  | .ifElse cond whenTrue none, h => by
    rw [resolveStmt]
    exact ((inStep_resolveExpr .plain nofun cond (h.child (by simp))).bind fun _ =>
      (inStep_resolveStmt .plain nofun whenTrue (h.child (by simp))).finish fun _ => .pure _).idle
  | .ifElse cond whenTrue (some whenFalse), h => by
    rw [resolveStmt]
    exact ((inStep_resolveExpr .plain nofun cond (h.child (by simp))).bind fun _ =>
      (inStep_resolveStmt .plain nofun whenTrue (h.child (by simp))).bind fun _ =>
        inStep_resolveStmt .plain nofun whenFalse (h.child (by simp))).idle
  | .whileLoop cond body, h | .doWhile body cond, h => by
    rw [resolveStmt]
    exact ((inStep_resolveExpr .plain nofun cond (h.child (by simp))).bind fun _ =>
      inStep_resolveStmt .plain nofun body (h.child (by simp))).idle
  | .forLoop init none update body, h => by
    rw [resolveStmt]
    have hbody := (inStep_resolveStmts .plain nofun init fun stmt hstmt => h.child (by simp [hstmt])).bind fun _ =>
      (InStep.pure ()).bind fun _ =>
        (inStep_resolveExprs .plain nofun update fun expr hexpr => h.child (by simp [hexpr])).bind fun _ =>
          inStep_resolveStmt .plain nofun body (h.child (by simp))
    exact .idle ((hbody.inScope .block rfl).of_eq (StmtKind.course_forLoop init none update body id).symm)
  | .forLoop init (some cond) update body, h => by
    rw [resolveStmt]
    have hbody := (inStep_resolveStmts .plain nofun init fun stmt hstmt => h.child (by simp [hstmt])).bind fun _ =>
      (inStep_resolveExpr .plain nofun cond (h.child (by simp))).bind fun _ =>
        (inStep_resolveExprs .plain nofun update fun expr hexpr => h.child (by simp [hexpr])).bind fun _ =>
          inStep_resolveStmt .plain nofun body (h.child (by simp))
    exact .idle
      ((hbody.inScope .block rfl).of_eq (StmtKind.course_forLoop init (some cond) update body id).symm)
  | .forEach type name iterated body, h => by
    rw [resolveStmt]
    have hvariable := @InStep.localVariable shedding name (if type == "var" then none else some type) id span
    have hbody := hvariable.bind fun _ => inStep_resolveStmt .plain nofun body (h.child (by simp))
    exact (inStep_resolveExpr .plain nofun iterated (h.child (by simp))).bind fun _ => hbody.inScope .block rfl
  | .return none, _ => by
    rw [resolveStmt]
    exact (InStep.pure _).idle
  | .return (some value), h => by
    rw [resolveStmt]
    exact ((inStep_resolveExpr .plain nofun value (h.child (by simp))).finish fun _ => .pure _).idle
  | .tryCatch resources body catches none, h => by
    rw [resolveStmt]
    have hbody := (inStep_resolveResources resources fun resource hmem => h.child (by simp [hmem])).bind fun _ =>
      (inStep_resolveStmts (.protectedBy none) nofun body fun stmt hstmt => h.child (by simp [hstmt])).inScope
        .block rfl
    have hrest := (hbody.inScope .block rfl).bind fun _ =>
      (inStep_resolveCatches (.protectedBy none) nofun catches fun clause hmem => h.child (by simp [hmem])).finish
        fun _ => InStep.pure ()
    exact .idle (hrest.of_eq (Course.append_nil _).symm)
  | .tryCatch resources body catches (some finallyBody), h => by
    rw [resolveStmt]
    have hbody := (inStep_resolveResources resources fun resource hmem => h.child (by simp [hmem])).bind fun _ =>
      (inStep_resolveStmts (.protectedBy (some finallyBody)) nofun body fun stmt hstmt =>
        h.child (by simp [hstmt])).inScope .block rfl
    have hrest := (hbody.inScope .block rfl).bind fun _ =>
      (inStep_resolveCatches (.protectedBy (some finallyBody)) nofun catches fun clause hmem =>
        h.child (by simp [hmem])).bind fun _ =>
        (inStep_resolveStmts .plain nofun finallyBody fun stmt hstmt => h.child (by simp [hstmt])).inScope .block rfl
    exact .idle (hrest.of_eq Course.append_assoc.symm)
  | .synchronized lock body, h => by
    rw [resolveStmt]
    exact ((inStep_resolveExpr .operand nofun lock (h.child (by simp))).bind fun _ =>
      (inStep_resolveStmts (.holding lock) nofun body fun stmt hstmt => h.child (by simp [hstmt])).inScope .block
        rfl).idle
  | .switch selector cases, h => by
    rw [resolveStmt]
    exact ((inStep_resolveExpr .plain nofun selector (h.child (by simp))).bind fun denoted =>
      (inStep_resolveCases denoted.valueClass? cases fun case hcase => h.child (by simp [hcase])).inScope .block
        rfl).idle
  | .labeled label body, h => by
    rw [resolveStmt]
    exact (inStep_resolveStmt .plain nofun body (h.child (by simp))).idle
  | .localClass decl, h => by
    rw [resolveStmt]
    exact ((inStep_resolveNested decl (h.child (by simp))).finish fun _ => .pure _).idle
  | .assert cond none, h => by
    rw [resolveStmt]
    exact ((inStep_resolveExpr .plain nofun cond (h.child (by simp))).finish fun _ => .pure _).idle
  | .assert cond (some message), h => by
    rw [resolveStmt]
    exact ((inStep_resolveExpr .plain nofun cond (h.child (by simp))).bind fun _ =>
      (inStep_resolveExpr .plain nofun message (h.child (by simp))).finish fun _ => .pure _).idle
  | .break label, _ | .continue label, _ | .empty, _ => by
    rw [resolveStmt]
    exact (InStep.pure _).idle

theorem inStep_resolveDeclarators (type : String) : ∀ declarators : List Declarator,
    (∀ declarator ∈ declarators, shedding.Admits (.declarator declarator)) →
    InStep shedding [] (.ofParts (declarators.map fun declarator => ⟨.plain, .declarator declarator⟩))
      (resolveDeclarators type declarators)
      (resolveDeclarators type (stripDeclarators shedding.extra (retouchDeclarators shedding.retouch declarators)))
  | [], _ => by
    rw [resolveDeclarators]
    exact .pure ()
  | ⟨id, name, none, span⟩ :: rest, h => by
    obtain ⟨-, hrest⟩ := List.forall_mem_cons.mp h
    rw [resolveDeclarators]
    have hnode := InStep.unfold (.localVariable ⟨id, name, none, span⟩)
      ((@InStep.pure shedding _ .unknown).bind (.declareLocal name (some type) id span))
    have hnodes := hnode.bind fun _ => inStep_resolveDeclarators type rest hrest
    simp only [bind_assoc] at hnodes
    exact hnodes
  | ⟨id, name, some init, span⟩ :: rest, h => by
    obtain ⟨hfirst, hrest⟩ := List.forall_mem_cons.mp h
    rw [resolveDeclarators]
    have hnode := InStep.unfold (.localVariable ⟨id, name, some init, span⟩)
      ((inStep_resolveExpr .plain nofun init (hfirst.child (by simp))).bind (.declareLocal name (some type) id span))
    have hnodes := hnode.bind fun _ => inStep_resolveDeclarators type rest hrest
    simp only [bind_assoc] at hnodes
    exact hnodes

theorem inStep_resolveResources : ∀ resources : List Resource,
    (∀ resource ∈ resources, shedding.Admits (.resource resource)) →
    InStep shedding [] (.ofParts (resources.map fun resource => ⟨.plain, .resource resource⟩))
      (resolveResources resources)
      (resolveResources (stripResources shedding.extra (retouchResources shedding.retouch resources)))
  | [], _ => by
    rw [resolveResources]
    exact .pure ()
  | ⟨id, type, none, init⟩ :: rest, h => by
    obtain ⟨hfirst, hrest⟩ := List.forall_mem_cons.mp h
    rw [resolveResources]
    have hnode := InStep.unfold (.resource .plain nofun ⟨id, type, none, init⟩)
      (inStep_resolveExpr .plain nofun init (hfirst.child (by simp))).idle
    exact hnode.bind fun _ => inStep_resolveResources rest hrest
  | ⟨id, type, some name, init⟩ :: rest, h => by
    obtain ⟨hfirst, hrest⟩ := List.forall_mem_cons.mp h
    rw [resolveResources]
    have hnode := InStep.unfold (.resource .plain nofun ⟨id, type, some name, init⟩)
      ((inStep_resolveExpr .plain nofun init (hfirst.child (by simp))).bind
        (.declareLocal name type id init.span))
    have hnodes := hnode.bind fun _ => inStep_resolveResources rest hrest
    rw [← shedding.span_strip init] at hnodes
    simp only [bind_assoc] at hnodes
    exact hnodes

theorem inStep_resolveCatches (role : PartRole) (hrole : role ≠ .nested) : ∀ catches : List CatchClause,
    (∀ clause ∈ catches, shedding.Admits (.catchClause clause)) →
    InStep shedding [] (.ofParts (catches.map fun clause => ⟨role, .catchClause clause⟩)) (resolveCatches catches)
      (resolveCatches (stripCatches shedding.extra (retouchCatches shedding.retouch catches)))
  | [], _ => by
    rw [resolveCatches]
    exact .pure ()
  | ⟨id, types, name, body, span⟩ :: rest, h => by
    obtain ⟨hfirst, hrest⟩ := List.forall_mem_cons.mp h
    rw [resolveCatches.eq_def]
    have hbody (type : Option String) := (@InStep.parameter shedding name type id span).bind
      fun _ => inStep_resolveStmts .plain nofun body fun stmt hstmt => hfirst.child (by simp [hstmt])
    have hclause (type : Option String) := InStep.unfold (.catchClause role hrole ⟨id, types, name, body, span⟩)
      ((hbody type).inScope .block rfl)
    exact (hclause _).bind fun _ => inStep_resolveCatches role hrole rest hrest

theorem inStep_resolveCases (selector : Option SymbolId) : ∀ cases : List SwitchCase,
    (∀ case ∈ cases, shedding.Admits (.switchCase case)) →
    InStep shedding [] (.ofParts (cases.map fun case => ⟨.plain, .switchCase case⟩)) (resolveCases selector cases)
      (resolveCases selector (stripCases shedding.extra (retouchCases shedding.retouch cases)))
  | [], _ => by
    rw [resolveCases]
    exact .pure ()
  | ⟨labels, isDefault, body⟩ :: rest, h => by
    obtain ⟨hfirst, hrest⟩ := List.forall_mem_cons.mp h
    rw [resolveCases]
    have hnode := InStep.unfold (.switchCase .plain nofun ⟨labels, isDefault, body⟩)
      ((inStep_resolveLabels selector labels fun label hlabel => hfirst.child (by simp [hlabel])).bind fun _ =>
        inStep_resolveStmts .plain nofun body fun stmt hstmt => hfirst.child (by simp [hstmt]))
    have hnodes := hnode.bind fun _ => inStep_resolveCases selector rest hrest
    simp only [bind_assoc] at hnodes
    exact hnodes

theorem inStep_resolveLabels (selector : Option SymbolId) : ∀ labels : List Expr,
    (∀ label ∈ labels, shedding.Admits (.expr label)) →
    InStep shedding [] (.ofParts (exprParts .label labels)) (resolveLabels selector labels)
      (resolveLabels selector (stripLabels shedding.extra (retouchExprs shedding.retouch labels)))
  | [], _ => by
    rw [resolveLabels]
    exact .pure ()
  | ⟨id, kind, span⟩ :: rest, h => by
    obtain ⟨hfirst, hrest⟩ := List.forall_mem_cons.mp h
    rw [resolveLabels_cons, retouchExprs, Expr.retouch, stripLabels, resolveLabels_cons]
    exact (InStep.label selector ((inStep_resolveExprKind id span kind hfirst).weaken (kind.referring_sublist id)
      (List.Perm.refl _) rfl)).bind fun _ => inStep_resolveLabels selector rest hrest

theorem inStep_resolveNested : ∀ decl : ClassDecl, shedding.Admits (.classDecl decl) →
    InStep shedding [] (.one (nestedPart decl)) (resolveNested decl)
      (resolveNested ((decl.retouch shedding.retouch).strip shedding.extra))
  | ⟨_, _, _, _, _, _, _, members, _⟩, h =>
      .nested (inStep_resolveMembers members fun member hmember => h.child (by simp [hmember]))

theorem inStep_resolveMembers : ∀ members : List Member,
    (∀ member ∈ members, shedding.Admits (.member member)) →
    InStep shedding [] (.ofParts (memberParts members)) (resolveMembers members)
      (resolveMembers (stripMembers shedding.extra (retouchMembers shedding.retouch members)))
  | [], _ => by
    rw [resolveMembers]
    exact .pure ()
  | ⟨id, kind, span⟩ :: rest, h => by
    obtain ⟨hfirst, hrest⟩ := List.forall_mem_cons.mp h
    rw [resolveMembers]
    exact (inStep_resolveMember id span kind hfirst).bind fun _ => inStep_resolveMembers rest hrest

theorem inStep_resolveMember (id : NodeId) (span : Span) : ∀ kind : MemberKind,
    shedding.Admits (.member ⟨id, kind, span⟩) →
    InStep shedding [] (.one ⟨.declared, .member ⟨id, kind, span⟩⟩) (resolveMember kind)
      (resolveMember ((kind.retouch shedding.retouch).strip shedding.extra))
  | .field modifiers type declarators, h => by
    rw [resolveMember]
    exact .unfold (.field id span modifiers type declarators)
      (inStep_resolveInits declarators fun declarator hmem => h.child (by simp [hmem]))
  | .enumConstant name args none, h => by
    rw [resolveMember]
    exact .unfold (.enumConstant id span name args none)
      ((inStep_resolveExprs .declared nofun args fun arg harg => h.child (by simp [harg])).bind fun _ => .pure ())
  | .enumConstant name args (some body), h => by
    rw [resolveMember]
    exact .unfold (.enumConstant id span name args (some body))
      ((inStep_resolveExprs .declared nofun args fun arg harg => h.child (by simp [harg])).bind fun _ =>
        (inStep_resolveNested body (h.child (by simp))).finish fun _ => .pure ())
  | .method method, h => by
    rw [resolveMember]
    exact .unfold (.method id span method) (inStep_resolveMethod method (h.child (by simp)))
  | .initializer isStatic body, h => by
    have hcode : shedding.Admits (.code (.initializer body)) := h.child (by simp)
    rw [resolveMember]
    have hbody := InStep.unfold (.code .code nofun (.initializer body) rfl (Course.leaves_stmtParts ..))
      (inStep_resolveStmts .plain nofun body fun stmt hstmt => hcode.child (by simp [hstmt]))
    exact .unfold (.initializer id span isStatic body) (hbody.inScope (.method none) rfl)
  | .classDecl decl, h => by
    rw [resolveMember]
    exact .unfold (.memberClass id span decl) (inStep_resolveMemberClass decl (h.child (by simp)))

theorem inStep_resolveInits : ∀ declarators : List Declarator,
    (∀ declarator ∈ declarators, shedding.Admits (.declarator declarator)) →
    InStep shedding [] (.ofParts (declarators.map fun declarator => ⟨.declared, .declarator declarator⟩))
      (resolveInits declarators)
      (resolveInits (stripDeclarators shedding.extra (retouchDeclarators shedding.retouch declarators)))
  | [], _ => by
    rw [resolveInits]
    exact .pure ()
  | ⟨id, name, none, span⟩ :: rest, h => by
    obtain ⟨-, hrest⟩ := List.forall_mem_cons.mp h
    rw [resolveInits]
    exact (InStep.unfold (.fieldVariable ⟨id, name, none, span⟩) (InStep.pure ())).bind
      fun _ => inStep_resolveInits rest hrest
  | ⟨id, name, some init, span⟩ :: rest, h => by
    obtain ⟨hfirst, hrest⟩ := List.forall_mem_cons.mp h
    rw [resolveInits]
    exact (InStep.unfold (.fieldVariable ⟨id, name, some init, span⟩)
      (inStep_resolveExpr .plain nofun init (hfirst.child (by simp)))).bind fun _ => inStep_resolveInits rest hrest

theorem inStep_resolveMethod : ∀ method : MethodDecl, shedding.Admits (.code (.method method)) →
    InStep shedding [] (Course.confined (.ofParts (method.params.map fun param => ⟨.declared, .param param⟩) ++
      .one ⟨.code, .code (.method method)⟩)) (resolveMethod method)
      (resolveMethod ((method.retouch shedding.retouch).strip shedding.extra))
  | ⟨id, name, modifiers, typeParams, returnType, params, throws, none, span⟩, _ => by
    rw [resolveMethod]
    have hcode := InStep.unfold (.code .code nofun
      (.method ⟨id, name, modifiers, typeParams, returnType, params, throws, none, span⟩) rfl rfl)
      (@InStep.pure shedding _ ())
    have hbody := (InStep.declareParams params).bind fun _ => hcode
    exact (InStep.used id).prepare fun symbol => hbody.inScope (.method symbol) rfl
  | ⟨id, name, modifiers, typeParams, returnType, params, throws, some body, span⟩, h => by
    rw [resolveMethod]
    have hcode := InStep.unfold (.code .code nofun
      (.method ⟨id, name, modifiers, typeParams, returnType, params, throws, some body, span⟩) rfl
      (Course.leaves_stmtParts ..))
      (inStep_resolveStmts .plain nofun body fun stmt hstmt => h.child (by simp [hstmt]))
    have hbody := (InStep.declareParams params).bind fun _ => hcode
    exact (InStep.used id).prepare fun symbol => hbody.inScope (.method symbol) rfl

theorem inStep_resolveMemberClass : ∀ decl : ClassDecl, shedding.Admits (.classDecl decl) →
    InStep shedding [] (.one ⟨.declared, .classDecl decl⟩) (resolveMemberClass decl)
      (resolveMemberClass ((decl.retouch shedding.retouch).strip shedding.extra))
  | ⟨_, _, _, _, _, _, _, members, _⟩, h =>
      .memberClass (inStep_resolveMembers members fun member hmember => h.child (by simp [hmember]))

end

end Bodies

end Resolving
end LockDiscipline
