import LockDiscipline.Proofs.Check.Homes
import LockDiscipline.Proofs.Lock.Retouched
import LockDiscipline.Proofs.Program.RetouchedBodies
/-!
# Accesses in retouched code

The units of code and the classes of a retouched compilation unit are the retouched ones, in the same order,
and the analysis of a retouched unit of code reports its accesses at the same sites, each with the same
required lock. Only what is held there may differ, and it does so no more than what is held where the unit
begins.
-/

namespace LockDiscipline

/-- A unit of code retouched. -/
def CodeUnit.retouch (retouch : Retouch) (unit : CodeUnit) : CodeUnit :=
  { unit with body := unit.body.retouch retouch }

/-- A class retouched. -/
def ClassUnit.retouch (retouch : Retouch) (unit : ClassUnit) : ClassUnit :=
  { unit with decl := unit.decl.retouch retouch }

@[simp] theorem PartRole.isOpen_retouch (retouch : Retouch) (role : PartRole) :
    (role.retouch retouch).isOpen = role.isOpen := by
  cases role <;> rfl

@[simp] theorem Viewpoint.mayAccess_retouch (retouch : Retouch) (kind : ExprKind) :
    mayAccess (kind.retouch retouch) = mayAccess kind := by
  cases kind <;> rfl

@[simp] theorem Viewpoint.mayAccess_respell (change : String → String) (kind : ExprKind) :
    mayAccess (kind.respell change) = mayAccess kind := by
  cases kind <;> rfl

/-! ### What the search for units finds -/

namespace CodeUnits

/-- What is found place by place in the classes of a unit is found retouched in the retouched ones. -/
private theorem flatMap_places_retouch (retouch : Retouch) {α : Type} {at? at?' : Place → Option α} {change : α → α}
    (hat : ∀ place, at?' (place.retouch retouch) = (at? place).map change) (unit : CompilationUnit) :
    ((unit.retouch retouch).types.flatMap fun decl =>
        (TreeNode.classDecl decl).places.filterMap at?') =
      (unit.types.flatMap fun decl => (TreeNode.classDecl decl).places.filterMap at?).map change := by
  rw [CompilationUnit.retouch, List.flatMap_map, List.map_flatMap]
  apply List.flatMap_congr
  intro decl _
  have hplaces : (TreeNode.classDecl (decl.retouch retouch)).places =
      (TreeNode.classDecl decl).places.map (·.retouch retouch) :=
    TreeNode.places_retouch retouch (.classDecl decl)
  rw [hplaces, List.filterMap_map, List.map_filterMap]
  congr 1
  funext place
  exact hat place

variable (retouch : Retouch) {program program' : Program}
  (huse : ∀ node, program'.use? node = program.use? node)
include huse

theorem follow_retouch (self : SymbolId) (path : List PathStep) :
    TreeNode.follow (enterClass program') self (path.map (·.retouch retouch)) =
      TreeNode.follow (enterClass program) self path := by
  induction path generalizing self with
  | nil => rfl
  | cons step rest ih =>
      have henter : enterClass program' self (step.role.retouch retouch) =
          enterClass program self step.role := by
        cases step.role <;> first | rfl | exact huse _
      rw [List.map_cons, TreeNode.follow_cons, TreeNode.follow_cons, PathStep.retouch, henter]
      congr 1
      funext inside
      exact ih inside

theorem unitAt?_retouch (place : Place) :
    unitAt? program' (place.retouch retouch) = (unitAt? program place).map (·.retouch retouch) := by
  obtain ⟨path, node⟩ := place
  cases node with
  | code body =>
      simp only [unitAt?, Place.retouch, TreeNode.retouch, follow_retouch retouch huse]
      cases TreeNode.follow (enterClass program) 0 path <;> rfl
  | _ => rfl

theorem classAt?_retouch (place : Place) :
    classAt? program' (place.retouch retouch) = (classAt? program place).map (·.retouch retouch) := by
  obtain ⟨path, node⟩ := place
  cases node with
  | classDecl decl =>
      simp only [classAt?, Place.retouch, TreeNode.retouch, follow_retouch retouch huse,
        ClassDecl.id_retouch, huse]
      cases TreeNode.follow (enterClass program) 0 path with
      | none => rfl
      | some self => cases program.use? decl.id <;> rfl
  | _ => rfl

/-- The units of code of a retouched compilation unit are the retouched ones if its nodes refer to what they
referred to. -/
theorem bodies_retouch (unit : CompilationUnit) :
    (ofUnit program' (unit.retouch retouch)).bodies =
      (ofUnit program unit).bodies.map (·.retouch retouch) := by
  rw [bodies_ofUnit, bodies_ofUnit]
  exact flatMap_places_retouch retouch (unitAt?_retouch retouch huse) unit

/-- The classes of a retouched compilation unit are the retouched ones. -/
theorem classes_retouch (unit : CompilationUnit) :
    (ofUnit program' (unit.retouch retouch)).classes =
      (ofUnit program unit).classes.map (·.retouch retouch) := by
  rw [classes_ofUnit, classes_ofUnit]
  exact flatMap_places_retouch retouch (classAt?_retouch retouch huse) unit

end CodeUnits

/-! ### Guarded members -/

namespace Viewpoint.Matches

variable {retouch : Retouch} {view view' : Viewpoint} (h : view.Matches retouch.span view')
include h

theorem locksOf_eq [retouch.KeepsNames] (role : PartRole) :
    view'.locksOf (role.retouch retouch) = view.locksOf role := by
  cases role with
  | holding lock => exact congrArg (·.toOption.toList) (h.bindExpr_eq lock)
  | protectedBy finallyBody => exact congrArg LockSet.toList (h.releasedLocks_eq finallyBody)
  | _ => rfl

theorem heldAlong_eq [retouch.KeepsNames] (held : LockSet) (path : List PathStep) :
    view'.heldAlong held (path.map (·.retouch retouch)) = view.heldAlong held path := by
  rw [heldAlong, List.foldl_map, heldAlong]
  congr 1
  funext held step
  exact congrArg held.insertAll (h.locksOf_eq step.role)

theorem usedSymbol?_cases (node : NodeId) :
    (view.program.usedSymbol? node = none ∧ view'.program.usedSymbol? node = none) ∨
      ∃ id symbol symbol', view.program.symbol? id = some symbol ∧
        view.program.usedSymbol? node = some symbol ∧ view'.program.usedSymbol? node = some symbol' ∧
          symbol.Matches (Program.moveAt retouch.span id) symbol' := by
  simp only [Program.usedSymbol?, h.program.use?_eq]
  cases view.program.use? node with
  | none => exact .inl ⟨rfl, rfl⟩
  | some id =>
      rcases h.program.symbol?_cases id with hnone | ⟨symbol, symbol', hsome, hsome', hmatches⟩
      · exact .inl hnone
      · exact .inr ⟨id, symbol, symbol', hsome, hsome, hsome', hmatches⟩

/-- A member with a guard is a symbol of the unit, so that its span is moved with the unit. -/
theorem guardedMember?_cases (expr : Expr) :
    (view.guardedMember? expr = none ∧ view'.guardedMember? (expr.retouch retouch) = none) ∨
      ∃ member member' guard, view.guardedMember? expr = some (member, guard) ∧
        view'.guardedMember? (expr.retouch retouch) = some (member', guard) ∧
          member.Matches retouch.span member' := by
  simp only [guardedMember?, Expr.kind_retouch, mayAccess_respell, mayAccess_retouch, Expr.id_retouch]
  by_cases haccess : mayAccess expr.kind
  · simp only [haccess, if_true]
    rcases h.usedSymbol?_cases expr.id with
      ⟨hnone, hnone'⟩ | ⟨id, member, member', hsymbol, hsome, hsome', hmember⟩
    · exact .inl ⟨by rw [hnone]; rfl, by rw [hnone']; rfl⟩
    · simp only [hsome, hsome', Option.bind_eq_bind, Option.bind_some, hmember.isField_eq,
        hmember.isMethod_eq, hmember.guard_eq]
      by_cases hkind : member.isField || member.isMethod
      · cases hguard : member.guard with
        | none => exact .inl (by simp [hkind])
        | some guard =>
            have hown : Library.size ≤ id := h.program.apart.guarded hsymbol (by simp [hguard])
            rw [Program.moveAt_of_le retouch.span hown] at hmember
            exact .inr ⟨member, member', guard, by simp [hkind], by simp [hkind], hmember⟩
      · exact .inl (by simp [hkind])
  · exact .inl (by simp [haccess])

variable {shift : Span → Span}

theorem ofMember?_eq {member member' : NamedSymbol} (hmember : member.Matches shift member')
    (guard : String) : ((view'.ofMember? member').getD view').bindGuard guard =
      ((view.ofMember? member).getD view).bindGuard guard := by
  simp only [ofMember?, hmember.owner?_eq]
  cases member.owner? with
  | none => exact h.bindGuard_eq guard
  | some owner => exact (h.withSelf owner).bindGuard_eq guard

theorem lockFor_eq [retouch.KeepsNames] (access : Expr) {member member' : NamedSymbol}
    (hmember : member.Matches shift member') (guard : String) :
    view'.lockFor (access.retouch retouch) member' guard = view.lockFor access member guard := by
  simp only [lockFor, ofMember?, hmember.owner?_eq]
  cases member.owner? with
  | none => rfl
  | some owner =>
      simp only [Option.map_some, (h.withSelf owner).bindGuard_eq, h.requiredLock_eq]

theorem entryGuard?_eq {method method' : NamedSymbol} (hmethod : method.Matches shift method') :
    view'.entryGuard? method' = view.entryGuard? method := by
  simp only [entryGuard?, hmethod.guard_eq]
  cases method.guard with
  | none => rfl
  | some guard => exact congrArg some (h.ofMember?_eq hmethod guard)

end Viewpoint.Matches

/-! ### Locks on entry -/

/-- A method takes the monitor of its class if it is static, and of its instance if it is not. -/
theorem Viewpoint.entryMonitor?_eq (view : Viewpoint) (method : NamedSymbol) :
    view.entryMonitor? method =
      if method.isSynchronized then
        if method.isStatic then
          method.owner?.bind fun owner =>
            (view.program.symbol? owner).map fun type => .classLiteral (.ofSymbol type)
        else some .this
      else none := by
  obtain ⟨id, name, kind, type, guard, span⟩ := method
  cases kind with
  | method owner isStatic isSynchronized arity => cases isStatic <;> cases isSynchronized <;> rfl
  | _ => rfl

namespace Viewpoint.Matches

variable {retouch : Retouch} {shift : Span → Span} {view view' : Viewpoint}
  (h : view.Matches retouch.span view')
include h

/-- Whether a method is synchronized decides whether it takes its monitor, and which monitor that would be
stays as it is. -/
theorem entryMonitor?_cases {method method' : NamedSymbol} (hmethod : method.Matches shift method') :
    ∃ monitor, view.entryMonitor? method = (if method.isSynchronized then monitor else none) ∧
      view'.entryMonitor? method' = if method'.isSynchronized then monitor else none := by
  have htype (owner : SymbolId) :
      (view'.program.symbol? owner).map (fun type => LockExpr.classLiteral (.ofSymbol type)) =
        (view.program.symbol? owner).map fun type => LockExpr.classLiteral (.ofSymbol type) := by
    rcases h.program.symbol?_cases owner with ⟨hnone, hnone'⟩ | ⟨type, type', hsome, hsome', hmatches⟩
    · rw [hnone, hnone']
    · rw [hsome, hsome', Option.map_some, Option.map_some, hmatches.ofSymbol_eq]
  refine ⟨_, view.entryMonitor?_eq method, ?_⟩
  simp only [view'.entryMonitor?_eq method', hmethod.isStatic_eq, hmethod.owner?_eq, htype]

/-- What a method holds on entry stays held if the method stays synchronized. -/
theorem contains_entryLocks (decl : MethodDecl)
    (hmonitor : ∀ method method', view.program.usedSymbol? decl.id = some method →
      view'.program.usedSymbol? decl.id = some method' → method.isSynchronized → method'.isSynchronized)
    {lock : LockExpr} (hheld : (view.entryLocks decl).2.contains lock) :
    (view'.entryLocks (decl.retouch retouch)).2.contains lock := by
  simp only [entryLocks, MethodDecl.id_retouch] at hheld ⊢
  rcases h.usedSymbol?_cases decl.id with ⟨hnone, hnone'⟩ | ⟨_, method, method', -, hsome, hsome', hmethod⟩
  · rw [hnone] at hheld
    cases hheld
  · obtain ⟨monitor, hentry, hentry'⟩ := h.entryMonitor?_cases hmethod
    have hmonitors (hmem : (LockSet.ofList (view.entryMonitor? method).toList).contains lock) :
        (LockSet.ofList (view'.entryMonitor? method').toList).contains lock := by
      rw [hentry] at hmem
      by_cases hsync : method.isSynchronized
      · rw [if_pos hsync] at hmem
        rw [hentry', if_pos (hmonitor method method' hsome hsome' hsync)]
        exact hmem
      · rw [if_neg hsync] at hmem
        cases hmem
    rw [hsome] at hheld
    simp only [hsome', h.entryGuard?_eq hmethod]
    dsimp only at hheld
    cases hguard : view.entryGuard? method with
    | none =>
        rw [hguard] at hheld
        exact hmonitors hheld
    | some bound =>
        rw [hguard] at hheld
        cases bound with
        | error error => exact hmonitors hheld
        | ok guard =>
            rw [LockSet.contains_insert, Bool.or_eq_true] at hheld ⊢
            exact hheld.imp_left hmonitors

/-- A method holds the same locks on entry if it is synchronized as it was. -/
theorem entryLocks_eq (decl : MethodDecl)
    (hmonitor : ∀ method method', view.program.usedSymbol? decl.id = some method →
      view'.program.usedSymbol? decl.id = some method' → method'.isSynchronized = method.isSynchronized) :
    (view'.entryLocks (decl.retouch retouch)).2 = (view.entryLocks decl).2 := by
  simp only [entryLocks, MethodDecl.id_retouch]
  rcases h.usedSymbol?_cases decl.id with ⟨hnone, hnone'⟩ | ⟨_, method, method', -, hsome, hsome', hmethod⟩
  · rw [hnone, hnone']
  · obtain ⟨monitor, hentry, hentry'⟩ := h.entryMonitor?_cases hmethod
    rw [hmonitor method method' hsome hsome', ← hentry] at hentry'
    simp only [hsome, hsome', hentry', h.entryGuard?_eq hmethod]
    cases view.entryGuard? method with
    | none => rfl
    | some bound => cases bound <;> rfl

end Viewpoint.Matches

/-! ### Accesses -/

/-- An access in retouched code is the access that was there, up to what is held. -/
structure Access.Matches (retouch : Retouch) (holds : LockSet → LockSet → Prop) (access access' : Access) :
    Prop where
  expr : access'.expr = access.expr.retouch retouch
  member : access.member.Matches retouch.span access'.member
  required : access'.required = access.required
  held : holds access.held access'.held

theorem Access.Matches.id_eq {retouch : Retouch} {holds : LockSet → LockSet → Prop} {access access' : Access}
    (h : Matches retouch holds access access') : access'.expr.id = access.expr.id := by
  rw [h.expr, Expr.id_retouch]

namespace CodeUnit

theorem sites_retouch (retouch : Retouch) (unit : CodeUnit) :
    (unit.retouch retouch).sites = unit.sites.map (·.retouch retouch) := by
  have hplaces : (TreeNode.code (unit.body.retouch retouch)).places =
      (TreeNode.code unit.body).places.map (·.retouch retouch) :=
    TreeNode.places_retouch retouch (.code unit.body)
  simp only [sites, CodeUnit.retouch, hplaces, List.filter_map]
  congr 1
  apply List.filter_congr
  intro place _
  obtain ⟨path, node⟩ := place
  cases node <;>
    simp [Place.retouch, TreeNode.retouch, PathStep.retouch, List.all_map, Function.comp_def, isSiteNode,
      Expr.kind_retouch]

variable {retouch : Retouch} {program program' : Program} (unit : CodeUnit)
  (h : program.Matches retouch.span program')
include h

theorem view_retouch : (unit.view program).Matches retouch.span ((unit.retouch retouch).view program') :=
  ⟨h, rfl⟩

/-- The analysis of a retouched unit of code reports the accesses of the unit, with the same required locks. -/
theorem accesses_retouch [retouch.KeepsNames] {holds : LockSet → LockSet → Prop}
    (hheld : ∀ path, holds ((unit.view program).heldAlong (unit.entryLocks program) path)
      ((unit.view program).heldAlong ((unit.retouch retouch).entryLocks program') path)) :
    List.Forall₂ (Access.Matches retouch holds) (unit.accesses program)
      ((unit.retouch retouch).accesses program') := by
  have hview := unit.view_retouch h
  have haccess (place : Place) : Option.Rel (Access.Matches retouch holds) (unit.accessAt? program place)
      ((unit.retouch retouch).accessAt? program' (place.retouch retouch)) := by
    obtain ⟨path, node⟩ := place
    cases node with
    | expr expr =>
        simp only [accessAt?, Place.retouch, TreeNode.retouch]
        rcases hview.guardedMember?_cases expr with
          ⟨hnone, hnone'⟩ | ⟨member, member', guard, hsome, hsome', hmember⟩
        · rw [hnone, hnone']
          exact .none
        · simp only [hsome, hsome', Option.bind_eq_bind, Option.bind_some, hview.lockFor_eq expr hmember]
          cases ((unit.view program).lockFor expr member guard).toOption with
          | none => exact .none
          | some required =>
              have hplace := hheld path
              rw [← hview.heldAlong_eq ((unit.retouch retouch).entryLocks program') path] at hplace
              exact .some ⟨rfl, hmember, rfl, hplace⟩
    | _ => exact .none
  have hsites : List.Forall₂ (fun place place' => place' = place.retouch retouch) unit.sites
      (unit.sites.map (·.retouch retouch)) :=
    List.forall₂_map_right_iff.mpr (List.forall₂_same.mpr fun _ _ => rfl)
  rw [accesses_eq_filterMap_sites, accesses_eq_filterMap_sites, sites_retouch]
  apply List.rel_filterMap _ hsites
  rintro place _ rfl
  exact haccess place

end CodeUnit
end LockDiscipline
