import LockDiscipline.Check.Access
import LockDiscipline.Proofs.Lock.Sets
import LockDiscipline.Proofs.Tree.Visiting
/-!
# Accesses and their sites

The scan of a unit of code threads the held locks through its statements. Here it is shown to report
what is told of each place by itself: a name, a selection or a call is a site if no class, lambda,
`synchronized` operand or case label lies on the path to it, and what is held at a site are the
locks held on entry with those of the regions on that path. No statement about the scan has to
follow its recursion after this.
-/

namespace LockDiscipline

/-- A part that is in the same code as its construct and is analysed with it. -/
def PartRole.isOpen : PartRole → Bool
  | .plain | .holding _ | .protectedBy _ => true
  | _ => false

theorem PartRole.isOpen_eq_false {role : PartRole} (h : role.isInCode = false) : role.isOpen = false := by
  cases role with
  | plain | holding lock | protectedBy finallyBody => cases h
  | _ => rfl

namespace Viewpoint

variable (view : Viewpoint)

/-- The locks that are held in a part because of its role. -/
def locksOf : PartRole → List LockExpr
  | .holding lock => (view.bindExpr lock).toOption.toList
  | .protectedBy finallyBody => (view.releasedLocks finallyBody).toList
  | _ => []

/-- The locks that are held at the end of a path, given those held at its start. -/
def heldAlong (held : LockSet) (path : List PathStep) : LockSet :=
  path.foldl (fun held step => held.insertAll (view.locksOf step.role)) held

end Viewpoint

namespace CodeUnit

/-- The viewpoint of the unit's code. -/
def view (unit : CodeUnit) (program : Program) : Viewpoint :=
  ⟨program, unit.self⟩

/-- The locks held where the unit begins. Only methods hold locks on entry. -/
def entryLocks (unit : CodeUnit) (program : Program) : LockSet :=
  match unit.body with
  | .method decl => ((unit.view program).entryLocks decl).2
  | .initializer _ | .lambda _ => .empty

/-- A name, selection or call that the analysis of a unit looks at. -/
def IsSite (unit : CodeUnit) (place : Place) : Prop :=
  Within (.code unit.body) place.path place.node ∧ (∀ step ∈ place.path, step.role.isOpen) ∧
    ∃ expr, place.node = .expr expr ∧ Viewpoint.mayAccess expr.kind

/-- The access at a place, if a guarded member is accessed there and its lock can be told. -/
def accessAt? (unit : CodeUnit) (program : Program) (place : Place) : Option Access := do
  let .expr expr := place.node | none
  let (member, guard) ← (unit.view program).guardedMember? expr
  let required ← ((unit.view program).lockFor expr member guard).toOption
  return ⟨expr, member, required,
    (unit.view program).heldAlong (unit.entryLocks program) place.path⟩

end CodeUnit

namespace Viewpoint

variable (view : Viewpoint)

/-- What is held at the end of a path was held at its start or is held because of a step. -/
theorem contains_heldAlong (held : LockSet) (path : List PathStep) (lock : LockExpr) :
    (view.heldAlong held path).contains lock =
      (held.contains lock || path.any fun step => (view.locksOf step.role).any lock.same) := by
  induction path generalizing held with
  | nil => simp [heldAlong]
  | cons step rest ih =>
      change (view.heldAlong (held.insertAll (view.locksOf step.role)) rest).contains lock = _
      rw [ih, LockSet.contains_insertAll, List.any_cons, Bool.or_assoc]

/-! ### The scan as a traversal -/

/-- The locks held in a part that the scan enters. -/
private def enterHolding (held : LockSet) (role : PartRole) : Option LockSet :=
  if role.isOpen then some (held.insertAll (view.locksOf role)) else none

private theorem enterHolding_plain (held : LockSet) :
    view.enterHolding held .plain = some held := rfl

private theorem follow_enterHolding (held : LockSet) (path : List PathStep) :
    TreeNode.follow view.enterHolding held path =
      if path.all (·.role.isOpen) then some (view.heldAlong held path) else none := by
  induction path generalizing held with
  | nil => rfl
  | cons step rest ih =>
      rw [TreeNode.follow_cons, enterHolding, List.all_cons]
      cases hopen : step.role.isOpen with
      | false => rfl
      | true => simpa [heldAlong] using ih (held.insertAll (view.locksOf step.role))

/-- The accesses among the steps of a scan. -/
private def accessesAmong (steps : List ScanStep) : List Access :=
  steps.filterMap (·.access?)

private theorem accessesAmong_append (first second : List ScanStep) :
    accessesAmong (first ++ second) = accessesAmong first ++ accessesAmong second :=
  List.filterMap_append

private theorem accessesAmong_flatMap {α : Type} (items : List α) (steps : α → List ScanStep) :
    accessesAmong (items.flatMap steps) = items.flatMap fun item => accessesAmong (steps item) :=
  List.filterMap_flatMap ..

/-- The accesses that the scan finds in a construct that is reached with locks held. -/
private def accessesIn (held : LockSet) : TreeNode → List Access
  | .expr node => accessesAmong (view.scanExprs held [node])
  | .stmt node => accessesAmong (view.scanStmt held node)
  | .declarator node => accessesAmong (view.scanExprs held node.init.toList)
  | .resource node => accessesAmong (view.scanExprs held [node.init])
  | .catchClause node => accessesAmong (view.scanStmts held node.body)
  | .switchCase node => accessesAmong (view.scanStmts held node.body)
  | .code (.method decl) => accessesAmong (view.scanStmts held (decl.body.getD []))
  | .code (.initializer body) => accessesAmong (view.scanStmts held body)
  | .code (.lambda (.block body)) => accessesAmong (view.scanStmts held body)
  | .code (.lambda (.expr value)) => accessesAmong (view.scanExprs held [value])
  | .classDecl _ | .member _ | .param _ => []

/-- The access at a construct itself. -/
private def ownAccesses (held : LockSet) : TreeNode → List Access
  | .expr node => accessesAmong (view.scanNode held node)
  | _ => []

/-- The accesses in the parts that the scan enters. -/
private def accessesInParts (held : LockSet) (parts : List Part) : List Access :=
  TreeNode.foundInParts view.enterHolding view.accessesIn held parts

private theorem accessesInParts_append (held : LockSet) (first second : List Part) :
    view.accessesInParts held (first ++ second) =
      view.accessesInParts held first ++ view.accessesInParts held second :=
  List.flatMap_append

private theorem accessesInParts_map {α : Type} {held inside : LockSet} {role : PartRole}
    (hrole : view.enterHolding held role = some inside) (make : α → TreeNode) (items : List α) :
    view.accessesInParts held (items.map fun item => ⟨role, make item⟩) =
      items.flatMap fun item => view.accessesIn inside (make item) := by
  simp only [accessesInParts, TreeNode.foundInParts, List.flatMap_map, hrole]

private theorem accessesInParts_of_closed {held : LockSet} {parts : List Part}
    (hclosed : ∀ part ∈ parts, part.role.isOpen = false) :
    view.accessesInParts held parts = [] := by
  refine List.flatMap_eq_nil_iff.mpr fun part hpart => ?_
  rw [enterHolding, hclosed part hpart]
  rfl

private theorem scanExprs_append (held : LockSet) (first second : List Expr) :
    view.scanExprs held (first ++ second) =
      view.scanExprs held first ++ view.scanExprs held second := by
  rw [scanExprs, visitedExprs_append, List.flatMap_append]
  rfl

private theorem scanExprs_eq (held : LockSet) (exprs : List Expr) :
    view.scanExprs held exprs = exprs.flatMap fun expr => view.scanExprs held [expr] := by
  induction exprs with
  | nil => rfl
  | cons expr rest ih => rw [← List.singleton_append, scanExprs_append, ih]; rfl

private theorem scanStmts_eq (held : LockSet) (stmts : List Stmt) :
    view.scanStmts held stmts = stmts.flatMap (view.scanStmt held) := by
  induction stmts with
  | nil => rfl
  | cons stmt rest ih => rw [scanStmts, ih, List.flatMap_cons]

private theorem scanCatches_eq (held : LockSet) (catches : List CatchClause) :
    view.scanCatches held catches =
      catches.flatMap fun clause => view.scanStmts held clause.body := by
  induction catches with
  | nil => rfl
  | cons clause rest ih =>
      obtain ⟨id, types, name, body, span⟩ := clause
      rw [scanCatches, ih, List.flatMap_cons]

private theorem scanCases_eq (held : LockSet) (cases : List SwitchCase) :
    view.scanCases held cases = cases.flatMap fun case => view.scanStmts held case.body := by
  induction cases with
  | nil => rfl
  | cons case rest ih =>
      obtain ⟨labels, isDefault, body⟩ := case
      rw [scanCases, ih, List.flatMap_cons]

private theorem accessesInParts_exprs (held : LockSet) (exprs : List Expr) :
    view.accessesInParts held (exprParts .plain exprs) =
      accessesAmong (view.scanExprs held exprs) := by
  rw [exprParts, view.accessesInParts_map (view.enterHolding_plain held), scanExprs_eq,
    accessesAmong_flatMap]
  rfl

private theorem accessesInParts_stmts {held inside : LockSet} {role : PartRole}
    (hrole : view.enterHolding held role = some inside) (stmts : List Stmt) :
    view.accessesInParts held (stmtParts role stmts) =
      accessesAmong (view.scanStmts inside stmts) := by
  rw [stmtParts, view.accessesInParts_map hrole, scanStmts_eq, accessesAmong_flatMap]
  rfl

private theorem accessesInParts_plainStmts (held : LockSet) (stmts : List Stmt) :
    view.accessesInParts held (stmtParts .plain stmts) =
      accessesAmong (view.scanStmts held stmts) :=
  view.accessesInParts_stmts (view.enterHolding_plain held) stmts

private theorem accessesInParts_nested (held : LockSet) (decls : List ClassDecl) :
    view.accessesInParts held (decls.map nestedPart) = [] := by
  refine view.accessesInParts_of_closed fun part hpart => ?_
  obtain ⟨decl, -, rfl⟩ := List.mem_map.mp hpart
  rfl

/-- The parts of an expression hold the accesses among the expressions visited inside it. -/
private theorem accessesInParts_exprKind (held : LockSet) (kind : ExprKind) :
    view.accessesInParts held kind.parts =
      accessesAmong (kind.visited.flatMap (view.scanNode held)) := by
  have hexprs (exprs : List Expr) : accessesAmong (view.scanExprs held exprs) =
      accessesAmong ((visitedExprs exprs).flatMap (view.scanNode held)) := rfl
  cases kind with
  | call receiver method args =>
      rw [ExprKind.parts, accessesInParts_append, accessesInParts_exprs, accessesInParts_exprs,
        ExprKind.visited, List.flatMap_append, accessesAmong_append]
      cases receiver with
      | none => rfl
      | some receiver => simp [hexprs, visitedExprs, visitedOption]
  | new type args body =>
      rw [ExprKind.parts, accessesInParts_append, accessesInParts_exprs, accessesInParts_nested,
        List.append_nil]
      rfl
  | newArray element dims init =>
      rw [ExprKind.parts, accessesInParts_append, accessesInParts_exprs, accessesInParts_exprs]
      cases init with
      | none => simp [scanExprs, ExprKind.visited, accessesAmong, visitedExprs]
      | some items => simp [scanExprs, ExprKind.visited, accessesAmong]
  | lambda params body => rfl
  | _ =>
      first
      | rfl
      | rw [ExprKind.parts, accessesInParts_exprs, hexprs]
        simp [ExprKind.visited, visitedExprs]

private theorem scanExprs_filterMap (held : LockSet) (declarators : List Declarator) :
    view.scanExprs held (declarators.filterMap (·.init)) =
      declarators.flatMap fun declarator => view.scanExprs held declarator.init.toList := by
  induction declarators with
  | nil => rfl
  | cons declarator rest ih =>
      rw [List.flatMap_cons, ← ih]
      cases hinit : declarator.init with
      | none => rw [List.filterMap_cons_none hinit]; rfl
      | some init => rw [List.filterMap_cons_some hinit, ← List.singleton_append,
          scanExprs_append, Option.toList_some]

/-- The parts of a statement hold the accesses that the scan of the statement reports. -/
private theorem accessesInParts_stmtKind (held : LockSet) (id : NodeId) (kind : StmtKind)
    (span : Span) :
    view.accessesInParts held kind.parts =
      accessesAmong (view.scanStmt held ⟨id, kind, span⟩) := by
  cases kind with
  | localVars type declarators =>
      rw [StmtKind.parts, view.accessesInParts_map (view.enterHolding_plain held), scanStmt,
        scanExprs_filterMap, accessesAmong_flatMap]
      rfl
  | tryCatch resources body catches finallyBody =>
      have hprotected : view.enterHolding held (.protectedBy finallyBody) =
          some (held.insertAll (view.releasedLocks finallyBody).toList) := rfl
      have hresources : view.accessesInParts held
          (resources.map fun resource => ⟨.plain, .resource resource⟩) =
            accessesAmong (view.scanExprs held (resources.map (·.init))) := by
        rw [view.accessesInParts_map (view.enterHolding_plain held), scanExprs_eq, List.flatMap_map,
          accessesAmong_flatMap]
        rfl
      have hcatches : view.accessesInParts held
          (catches.map fun clause => ⟨.protectedBy finallyBody, .catchClause clause⟩) =
            accessesAmong (view.scanCatches
              (held.insertAll (view.releasedLocks finallyBody).toList) catches) := by
        rw [view.accessesInParts_map hprotected, scanCatches_eq, accessesAmong_flatMap]
        rfl
      rw [StmtKind.parts]
      simp only [accessesInParts_append, hresources, hcatches,
        view.accessesInParts_stmts hprotected, accessesInParts_plainStmts]
      cases finallyBody with
      | none =>
          simp only [scanStmt, accessesAmong_append, Option.getD_none]
          exact List.append_nil _
      | some finallyBody =>
          simp only [scanStmt, accessesAmong_append, Option.getD_some, List.append_assoc]
          rfl
  | «synchronized» lock body =>
      rw [StmtKind.parts, accessesInParts_append, scanStmt]
      cases hbind : view.bindExpr lock with
      | ok bound =>
          have hholding : view.enterHolding held (.holding lock) = some (held.insert bound) := by
            simp [enterHolding, PartRole.isOpen, locksOf, hbind, Except.toOption, LockSet.insertAll]
          rw [view.accessesInParts_stmts hholding]
          rfl
      | error error =>
          have hholding : view.enterHolding held (.holding lock) = some held := by
            simp [enterHolding, PartRole.isOpen, locksOf, hbind, Except.toOption, LockSet.insertAll]
          rw [view.accessesInParts_stmts hholding]
          rfl
  | switch selector cases =>
      rw [StmtKind.parts, accessesInParts_append, accessesInParts_exprs,
        view.accessesInParts_map (view.enterHolding_plain held), scanStmt, accessesAmong_append,
        scanCases_eq, accessesAmong_flatMap]
      rfl
  | ifElse cond whenTrue whenFalse =>
      rw [StmtKind.parts, accessesInParts_append, accessesInParts_exprs,
        accessesInParts_plainStmts]
      cases whenFalse <;> simp [scanStmt, scanStmts, scanExpr, accessesAmong]
  | localClass decl => rfl
  | «break» label => rfl
  | «continue» label => rfl
  | empty => rfl
  | _ =>
      simp only [StmtKind.parts, accessesInParts_append, accessesInParts_exprs,
        accessesInParts_plainStmts]
      simp [scanStmt, scanStmts, scanExpr, accessesAmong, scanExprs_append]

/-- The scan of a construct looks at the construct itself and then at the parts that it enters. -/
private theorem accessesIn_eq (held : LockSet) (node : TreeNode) :
    view.accessesIn held node =
      view.ownAccesses held node ++ view.accessesInParts held node.parts := by
  cases node with
  | expr node =>
      obtain ⟨id, kind, span⟩ := node
      rw [TreeNode.parts, accessesInParts_exprKind]
      simp [accessesIn, ownAccesses, scanExprs, visitedExprs, Expr.visited, accessesAmong]
  | stmt node =>
      obtain ⟨id, kind, span⟩ := node
      exact (view.accessesInParts_stmtKind held id kind span).symm
  | declarator node => exact (view.accessesInParts_exprs held _).symm
  | resource node => exact (view.accessesInParts_exprs held _).symm
  | catchClause node => exact (view.accessesInParts_plainStmts held _).symm
  | switchCase node =>
      rw [TreeNode.parts, accessesInParts_append, accessesInParts_plainStmts,
        view.accessesInParts_of_closed (by simp [exprParts, PartRole.isOpen])]
      rfl
  | classDecl _ | member _ | param _ =>
      exact (view.accessesInParts_of_closed fun part hpart =>
        PartRole.isOpen_eq_false (TreeNode.isInCode_eq_false rfl hpart)).symm
  | code body =>
      cases body with
      | method decl => exact (view.accessesInParts_plainStmts held _).symm
      | initializer body => exact (view.accessesInParts_plainStmts held _).symm
      | lambda body =>
          cases body with
          | expr value => exact (view.accessesInParts_exprs held _).symm
          | block body => exact (view.accessesInParts_plainStmts held _).symm

end Viewpoint

namespace CodeUnit

/-- The access at a place that is reached through open parts is what the scan finds there. -/
private theorem accessAt?_eq (unit : CodeUnit) (program : Program) (place : Place) :
    ((unit.view program).ownAccesses
        ((unit.view program).heldAlong (unit.entryLocks program) place.path) place.node) =
      (unit.accessAt? program place).toList := by
  obtain ⟨path, node⟩ := place
  cases node with
  | expr expr =>
      simp only [Viewpoint.ownAccesses, Viewpoint.accessesAmong, Viewpoint.scanNode, accessAt?]
      cases (unit.view program).guardedMember? expr with
      | none => rfl
      | some found =>
          obtain ⟨member, guard⟩ := found
          cases hlock : (unit.view program).lockFor expr member guard <;>
            simp [hlock, Except.toOption, ScanStep.access?]
  | _ => rfl

private theorem accesses_eq_accessesIn (unit : CodeUnit) (program : Program) :
    unit.accesses program =
      (unit.view program).accessesIn (unit.entryLocks program) (.code unit.body) := by
  obtain ⟨body, self⟩ := unit
  cases body with
  | method decl =>
      -- What is met in finding the locks on entry is never an access.
      have hentry : Viewpoint.accessesAmong (Viewpoint.entryLocks ⟨program, self⟩ decl).1 = [] := by
        unfold Viewpoint.entryLocks
        split
        · rfl
        · dsimp only
          split <;> rfl
      change Viewpoint.accessesAmong ((Viewpoint.entryLocks ⟨program, self⟩ decl).1 ++
        Viewpoint.scanStmts ⟨program, self⟩ (Viewpoint.entryLocks ⟨program, self⟩ decl).2
          (decl.body.getD [])) = _
      rw [Viewpoint.accessesAmong_append, hentry, List.nil_append]
      rfl
  | initializer body => rfl
  | lambda body => cases body <;> rfl

/-- Whether a construct is an expression that can be an access. -/
def isSiteNode : TreeNode → Bool
  | .expr expr => Viewpoint.mayAccess expr.kind
  | _ => false

private theorem accessAt?_of_not_isSiteNode {unit : CodeUnit} {program : Program} {place : Place}
    (h : isSiteNode place.node = false) : unit.accessAt? program place = none := by
  obtain ⟨path, node⟩ := place
  cases node with
  | expr expr =>
      change Viewpoint.mayAccess expr.kind = false at h
      simp [accessAt?, Viewpoint.guardedMember?, h]
  | _ => rfl

/-- The sites of a unit, in the order in which they are visited. -/
def sites (unit : CodeUnit) : List Place :=
  (TreeNode.code unit.body).places.filter fun place =>
    place.path.all (·.role.isOpen) && isSiteNode place.node

theorem mem_sites {unit : CodeUnit} {place : Place} : place ∈ unit.sites ↔ unit.IsSite place := by
  obtain ⟨path, node⟩ := place
  rw [sites, List.mem_filter, TreeNode.mem_places, IsSite, Bool.and_eq_true, List.all_eq_true]
  cases node <;> simp [isSiteNode]

/-- The sites are listed in the order of their positions, each once. -/
theorem pairwise_sites (unit : CodeUnit) : unit.sites.Pairwise Place.Before :=
  (TreeNode.pairwise_places _).filter _

/-- The accesses of a unit are found site by site. -/
theorem accesses_eq_filterMap_sites (unit : CodeUnit) (program : Program) :
    unit.accesses program = unit.sites.filterMap (unit.accessAt? program) := by
  rw [accesses_eq_accessesIn, TreeNode.run_eq_flatMap_places (unit.view program).enterHolding
    (unit.view program).ownAccesses (unit.view program).accessesIn
    (unit.view program).accessesIn_eq, sites]
  induction (TreeNode.code unit.body).places with
  | nil => rfl
  | cons place rest ih =>
      rw [List.flatMap_cons, ih, TreeNode.foundAt, Viewpoint.follow_enterHolding]
      cases hopen : place.path.all (·.role.isOpen) with
      | false => simp [hopen]
      | true =>
          simp only [if_true]
          rw [accessAt?_eq]
          cases hsite : isSiteNode place.node with
          | false => simp [hopen, hsite, accessAt?_of_not_isSiteNode hsite]
          | true =>
              simp only [List.filter_cons, hopen, hsite, Bool.and_self, if_true]
              cases haccess : unit.accessAt? program place with
              | none => rw [List.filterMap_cons_none haccess]; rfl
              | some access => rw [List.filterMap_cons_some haccess]; rfl

/-- An access is reported for the expression at its place. -/
theorem node_of_accessAt? {unit : CodeUnit} {program : Program} {place : Place} {access : Access}
    (h : unit.accessAt? program place = some access) : place.node = .expr access.expr := by
  obtain ⟨path, node⟩ := place
  cases node with
  | expr expr =>
      obtain ⟨⟨member, guard⟩, -, h⟩ := Option.bind_eq_some_iff.mp h
      obtain ⟨required, -, h⟩ := Option.bind_eq_some_iff.mp h
      rw [← Option.some.inj h]
  | _ => cases h

/-- The analysis of a unit reports an access at exactly those sites that access a guarded member with
a lock that can be told, in the order of their positions. What is held there is what is held where
the unit begins and what the steps of the path to the site hold, and nothing else. -/
theorem accesses_exact (unit : CodeUnit) (program : Program) :
    ∃ sites : List Place, sites.Pairwise Place.Before ∧
      (∀ place, place ∈ sites ↔ unit.IsSite place) ∧
      unit.accesses program = sites.filterMap (unit.accessAt? program) ∧
      ∀ place access, unit.accessAt? program place = some access → ∀ lock,
        access.held.contains lock ↔
          (unit.entryLocks program).contains lock ∨
            ∃ step ∈ place.path, ∃ held ∈ (unit.view program).locksOf step.role,
              lock.same held := by
  refine ⟨unit.sites, unit.pairwise_sites, fun _ => mem_sites,
    unit.accesses_eq_filterMap_sites program, fun place access haccess lock => ?_⟩
  have hheld : access.held =
      (unit.view program).heldAlong (unit.entryLocks program) place.path := by
    obtain ⟨path, node⟩ := place
    cases node with
    | expr expr =>
        simp only [accessAt?, Option.bind_eq_bind, Option.bind_eq_some_iff] at haccess
        obtain ⟨⟨member, guard⟩, -, required, -, hsome⟩ := haccess
        rw [← Option.some.inj hsome]
    | _ => cases haccess
  rw [hheld, Viewpoint.contains_heldAlong, Bool.or_eq_true, List.any_eq_true]
  simp only [List.any_eq_true]

end CodeUnit
end LockDiscipline
