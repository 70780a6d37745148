import LockDiscipline.Proofs.Check.Monitors
import LockDiscipline.Proofs.Lock.Respelled
import LockDiscipline.Proofs.Program.Obscuring
import LockDiscipline.Proofs.Program.RespelledBodies
/-!
# Accesses where a local variable is respelled

What is held at a place and what is required there are locks, which stay the same locks when a variable gets another
name. So the units of code of a respelled compilation unit are the respelled ones, and each of them has the accesses
that it had, with the locks that they required and the locks that were held, up to the name that these show.
-/

namespace LockDiscipline

/-- An access in respelled code, with its locks respelled. The member that is accessed is no variable. -/
def Access.respell (respelling : Respelling) (retouch : Retouch) (access : Access) : Access :=
  { access with
    expr := access.expr.retouch retouch
    required := access.required.respell respelling
    held := access.held.respell respelling }

open NotALock (Becomes)

theorem Program.usedSymbol?_respell (respelling : Respelling) (program : Program) (node : NodeId) :
    (program.respell respelling).usedSymbol? node = (program.usedSymbol? node).map (·.respell respelling) := by
  simp only [usedSymbol?, use?_respell]
  cases program.use? node with
  | none => rfl
  | some id => exact program.symbol?_respell respelling id

/-- Fields and methods are no variables, so that guarded members stay as they are. -/
theorem Viewpoint.guardedMember?_respell (respelling : Respelling) (view : Viewpoint) (retouch : Retouch)
    (expr : Expr) : (view.respell respelling).guardedMember? (expr.retouch retouch) = view.guardedMember? expr := by
  simp only [guardedMember?, Viewpoint.respell, Expr.kind_retouch, mayAccess_respell, mayAccess_retouch,
    Expr.id_retouch, Program.usedSymbol?_respell]
  split
  · cases view.program.usedSymbol? expr.id with
    | none => rfl
    | some member =>
        simp only [Option.map_some, Option.bind_eq_bind, Option.bind_some, NamedSymbol.isField_respell,
          NamedSymbol.isMethod_respell]
        split
        case isTrue hmember =>
          have hvariable : member.isVariable = false :=
            (Bool.or_eq_true_iff.mp hmember).elim member.isVariable_eq_false_of_isField
              member.isVariable_eq_false_of_isMethod
          rw [member.respell_of_not_variable respelling hvariable]
        case isFalse => rfl
  · rfl

namespace Respelling.Applies

variable {respelling : Respelling} {view : Viewpoint} (h : respelling.Applies view.program) (retouch : Retouch)
include h

/-! ### Held locks -/

theorem locksOf_respell (role : PartRole) : (view.respell respelling).locksOf (role.retouch retouch) =
    (view.locksOf role).map (·.respell respelling) := by
  cases role with
  | holding lock =>
      simp only [PartRole.retouch, Viewpoint.locksOf, (h.bindExpr retouch lock).toOption_eq]
      cases (view.bindExpr lock).toOption <;> rfl
  | protectedBy finallyBody => exact congrArg LockSet.toList (h.releasedLocks_respell retouch finallyBody)
  | _ => rfl

/-- Along a path the respelled locks are held. -/
theorem heldAlong_respell (held : LockSet) (path : List PathStep) :
    (view.respell respelling).heldAlong (held.respell respelling) (path.map (·.retouch retouch)) =
      (view.heldAlong held path).respell respelling := by
  induction path generalizing held with
  | nil => rfl
  | cons step rest ih =>
      have hstep : (held.respell respelling).insertAll
          ((view.respell respelling).locksOf (step.role.retouch retouch)) =
            (held.insertAll (view.locksOf step.role)).respell respelling := by
        rw [h.locksOf_respell, LockSet.respell_insertAll]
      exact (congrArg (Viewpoint.heldAlong _ · _) hstep).trans (ih _)

/-! ### Required locks -/

/-- The class that declares a member binds its guard to the lock that it was bound to. -/
theorem bindGuard_owner {id owner : SymbolId} {member : NamedSymbol}
    (hmember : view.program.symbol? id = some member) (howner : member.owner? = some owner) (guard : String) :
    Becomes (·.respell respelling) ((view.withSelf owner).bindGuard guard)
      (((view.withSelf owner).respell respelling).bindGuard guard) := by
  have hclass : view.program.IsClass owner :=
    h.inClasses hmember (NamedSymbol.around?_of_owner? howner).1
  have happlies : respelling.Applies (view.withSelf owner).program := h
  exact happlies.bindGuard hclass guard

/-- A respelled access requires the lock that the access requires. -/
theorem lockFor {id : SymbolId} {member : NamedSymbol} (hmember : view.program.symbol? id = some member)
    (access : Expr) (guard : String) : Becomes (·.respell respelling) (view.lockFor access member guard)
      ((view.respell respelling).lockFor (access.retouch retouch) member guard) := by
  simp only [Viewpoint.lockFor, Viewpoint.ofMember?]
  cases howner : member.owner? with
  | none => exact .error _ _
  | some owner =>
      exact (h.bindGuard_owner hmember howner guard).bind fun lock _ => h.requiredLock retouch lock access

/-! ### Locks on entry -/

theorem entryMonitor?_respell (method : NamedSymbol) :
    (view.respell respelling).entryMonitor? (method.respell respelling) =
      (view.entryMonitor? method).map (·.respell respelling) := by
  have htype (owner : SymbolId) : (view.program.symbol? owner).map (fun type =>
      LockExpr.classLiteral (.ofSymbol (type.respell respelling))) = (view.program.symbol? owner).map fun type =>
        (LockExpr.classLiteral (.ofSymbol type)).respell respelling := by
    cases hsymbol : view.program.symbol? owner with
    | none => rfl
    | some type => simp only [Option.map_some, h.ofSymbol_respell hsymbol, LockExpr.respell]
  simp only [Viewpoint.entryMonitor?_eq, NamedSymbol.isSynchronized_respell, NamedSymbol.isStatic_respell,
    NamedSymbol.owner?_respell, Viewpoint.respell, Program.symbol?_respell, Option.map_map, Function.comp_def]
  split
  · split
    · cases method.owner? with
      | none => rfl
      | some owner => simpa [Option.map_map, Function.comp_def] using htype owner
    · rfl
  · rfl

/-- On entry a method that a class owns holds the respelled locks. -/
theorem entryLocks_respell {decl : MethodDecl} {method : NamedSymbol} {owner : SymbolId}
    (hmethod : view.program.usedSymbol? decl.id = some method) (howner : method.owner? = some owner) :
    ((view.respell respelling).entryLocks (decl.retouch retouch)).2 = (view.entryLocks decl).2.respell respelling := by
  obtain ⟨id, huse, hsymbol⟩ := Option.bind_eq_some_iff.mp hmethod
  have hused : (view.respell respelling).program.usedSymbol? decl.id = some (method.respell respelling) := by
    rw [Viewpoint.respell, Program.usedSymbol?_respell, hmethod, Option.map_some]
  have hmonitors : LockSet.ofList ((view.respell respelling).entryMonitor? (method.respell respelling)).toList =
      (LockSet.ofList (view.entryMonitor? method).toList).respell respelling := by
    rw [h.entryMonitor?_respell, LockSet.respell_ofList]
    cases view.entryMonitor? method <;> rfl
  simp only [Viewpoint.entryLocks, MethodDecl.id_retouch, hused, hmethod, hmonitors, Viewpoint.entryGuard?,
    NamedSymbol.guard_respell, Viewpoint.ofMember?, NamedSymbol.owner?_respell, howner, Option.map_some,
    Option.getD_some]
  cases method.guard with
  | none => rfl
  | some guard =>
      have hguard := h.bindGuard_owner hsymbol howner guard
      have hself : (view.respell respelling).withSelf owner = (view.withSelf owner).respell respelling := rfl
      simp only [Option.map_some, hself]
      generalize (view.withSelf owner).bindGuard guard = bound,
        ((view.withSelf owner).respell respelling).bindGuard guard = bound' at hguard ⊢
      cases hguard with
      | ok lock => exact (LockSet.respell_insert ..).symm
      | error => rfl

end Respelling.Applies

/-! ### Respelled units -/

namespace CompilationUnit.Respellable

variable {unit : CompilationUnit} {respelling : Respelling} (h : unit.Respellable respelling)
include h

theorem use?_eq (node : NodeId) :
    (Program.ofUnit (unit.respell respelling)).use? node = (Program.ofUnit unit).use? node := by
  rw [h.respell_ofUnit, Program.use?_respell]

/-- The units of code of the respelled unit are the respelled ones. -/
theorem bodies_respell :
    (unit.respell respelling).bodies = unit.bodies.map (·.retouch (respelling.retouch (.ofUnit unit))) :=
  CodeUnits.bodies_retouch _ h.use?_eq unit

theorem view_respell (visiting : CodeUnit) (retouch : Retouch) :
    (visiting.retouch retouch).view (.ofUnit (unit.respell respelling)) =
      (visiting.view (.ofUnit unit)).respell respelling := by
  rw [CodeUnit.view, h.respell_ofUnit]
  rfl

/-- A unit of code holds the respelled locks on entry. -/
theorem entryLocks_respell {visiting : CodeUnit} (hvisiting : visiting ∈ unit.bodies) (retouch : Retouch) :
    (visiting.retouch retouch).entryLocks (.ofUnit (unit.respell respelling)) =
      (visiting.entryLocks (.ofUnit unit)).respell respelling := by
  have hview := h.view_respell visiting retouch
  obtain ⟨body, self⟩ := visiting
  cases body with
  | initializer body | lambda body => rfl
  | method decl =>
      obtain ⟨declaring, hdeclaring, ⟨number, kind, span⟩, hmember, rfl⟩ :=
        exists_declaring_of_mem_bodies hvisiting rfl
      obtain ⟨id, method, huse, hsymbol, howner, -⟩ :=
        carries_of_mem_classes h.nodup hdeclaring hmember (List.mem_singleton_self _)
      have hmethod : (Program.ofUnit unit).usedSymbol? decl.id = some method := by
        rw [Program.usedSymbol?, huse, Option.bind_some, hsymbol]
      change (Viewpoint.entryLocks (CodeUnit.view _ _) (decl.retouch retouch)).2 = _
      rw [hview]
      exact h.applies.entryLocks_respell retouch hmethod howner

/-- A respelled unit of code has the accesses that it had, with their locks respelled. -/
theorem accesses_respell {visiting : CodeUnit} (hvisiting : visiting ∈ unit.bodies) (retouch : Retouch) :
    (visiting.retouch retouch).accesses (.ofUnit (unit.respell respelling)) =
      (visiting.accesses (.ofUnit unit)).map (·.respell respelling retouch) := by
  have happlies : respelling.Applies (visiting.view (.ofUnit unit)).program := h.applies
  rw [CodeUnit.accesses_eq_filterMap_sites, CodeUnit.accesses_eq_filterMap_sites, CodeUnit.sites_retouch,
    List.filterMap_map, List.map_filterMap]
  congr 1
  funext ⟨path, node⟩
  cases node with
  | expr expr =>
      simp only [Function.comp_apply, CodeUnit.accessAt?, Place.retouch, TreeNode.retouch, h.view_respell,
        Viewpoint.guardedMember?_respell, h.entryLocks_respell hvisiting, happlies.heldAlong_respell]
      cases hguarded : (visiting.view (.ofUnit unit)).guardedMember? expr with
      | none => rfl
      | some found =>
          obtain ⟨member, guard⟩ := found
          obtain ⟨id, -, hsymbol⟩ :=
            Option.bind_eq_some_iff.mp (Viewpoint.accessed_of_guardedMember? hguarded).use_eq
          simp only [Option.bind_eq_bind, Option.bind_some, (happlies.lockFor retouch hsymbol expr guard).toOption_eq]
          cases ((visiting.view (.ofUnit unit)).lockFor expr member guard).toOption <;> rfl
  | _ => rfl

end CompilationUnit.Respellable

/-! ### What the name of a variable matters -/

/-- Where a local variable is respelled everything stays as it is but for the name of the variable: what the nodes
refer to and the symbols themselves, the locks that expressions and guards are bound to, the units of code, and the
accesses in them with the locks that are required and held. -/
structure CompilationUnit.Withstands (unit : CompilationUnit) (respelling : Respelling) : Prop where
  program : Program.ofUnit (unit.respell respelling) = (Program.ofUnit unit).respell respelling
  bindExpr : ∀ self expr, Becomes (·.respell respelling) (Viewpoint.bindExpr ⟨.ofUnit unit, self⟩ expr)
    (Viewpoint.bindExpr ⟨.ofUnit (unit.respell respelling), self⟩ (expr.retouch (respelling.retouch (.ofUnit unit))))
  bindGuard : ∀ self, (Program.ofUnit unit).IsClass self → ∀ guard,
    Becomes (·.respell respelling) (Viewpoint.bindGuard ⟨.ofUnit unit, self⟩ guard)
      (Viewpoint.bindGuard ⟨.ofUnit (unit.respell respelling), self⟩ guard)
  bodies : (unit.respell respelling).bodies = unit.bodies.map (·.retouch (respelling.retouch (.ofUnit unit)))
  accesses : ∀ visiting ∈ unit.bodies,
    (visiting.retouch (respelling.retouch (.ofUnit unit))).accesses (.ofUnit (unit.respell respelling)) =
      (visiting.accesses (.ofUnit unit)).map (·.respell respelling (respelling.retouch (.ofUnit unit)))

theorem CompilationUnit.Respellable.withstands {unit : CompilationUnit} {respelling : Respelling}
    (h : unit.Respellable respelling) : unit.Withstands respelling where
  program := h.respell_ofUnit
  bindExpr self expr := by
    have happlies : respelling.Applies (Viewpoint.mk (.ofUnit unit) self).program := h.applies
    rw [h.respell_ofUnit]
    exact happlies.bindExpr _ expr
  bindGuard self hself guard := by
    have happlies : respelling.Applies (Viewpoint.mk (.ofUnit unit) self).program := h.applies
    rw [h.respell_ofUnit]
    exact happlies.bindGuard hself guard
  bodies := h.bodies_respell
  accesses visiting hvisiting := h.accesses_respell hvisiting _

/-- The name of a local variable matters only where it leads to a class. As long as neither its name nor the new one
does so, a unit withstands its respelling. But names that are selected from a variable of unknown class are resolved
link by link as if the variable were a package, so that they denote a class where one bears the dotted name. -/
theorem CompilationUnit.localName_spec (unit : CompilationUnit) (respelling : Respelling) :
    (unit.Respellable respelling → unit.Withstands respelling) ∧
    ∀ {draft : TrackedDraft} {fromClass : SymbolId} {head : String} {names : List String} {expr : Expr},
      draft.program.WellFormed → draft.program.IsClass fromClass →
      draft.SpellsUnknown fromClass head names expr → Resolving.ResolvesTo expr draft
        (draft.program.typeAlong? fromClass draft.program.memberClass? (some head) none names) :=
  ⟨Respellable.withstands, Resolving.resolvesTo_spellsUnknown⟩

/-- In a source the numbers are apart. -/
theorem ParsedUnit.respellable_ofSource {source : List Char} {respelling : Respelling}
    (hfits : respelling.Fits (.ofUnit (ofSource source).unit))
    (hfresh : respelling.new ∉ (ofSource source).unit.bareNames) :
    (ofSource source).unit.Respellable respelling :=
  ⟨nodup_numbers_ofTokens (Lexer.tokenize source).tokens, hfits, hfresh⟩

/-- Code that locks a local variable for an access through it. Behind the library the variable has the number 27. -/
def lockedLocalSource : List Char :=
  ("class A \x7b @GuardedBy(\"this\") int x; " ++
    "void f() \x7b A o; synchronized (o) \x7b o.x = 1; \x7d \x7d \x7d").toList

open Resolving in
theorem CompilationUnit.localName_spec_lockedLocal :
    let unit := (ParsedUnit.ofSource lockedLocalSource).unit
    let draft := behindLocal (localUnit "java") "java"
    (unit.Respellable ⟨27, "o", "p"⟩ ∧ unit.Withstands ⟨27, "o", "p"⟩ ∧
      ∃ visiting ∈ unit.bodies, ∃ access ∈ visiting.accesses (.ofUnit unit),
        access.required = .localVar ⟨27, "o"⟩ ∧ access.held.toList = [.localVar ⟨27, "o"⟩]) ∧
    draft.program.WellFormed ∧ draft.program.IsClass 24 ∧
      draft.SpellsUnknown 24 "java" ["lang", "Object"] (localSelection "java") ∧
        ResolvesTo (localSelection "java") draft (some 0) := by
  intro unit draft
  have hnames : Respelling.Fits ⟨27, "o", "p"⟩ (.ofUnit unit) ∧ "p" ∉ unit.bareNames := by decide +kernel
  have hrespellable : unit.Respellable ⟨27, "o", "p"⟩ := ParsedUnit.respellable_ofSource hnames.1 hnames.2
  obtain ⟨hprogram, hclass, hspells, htype⟩ := typeAlong?_local
  have hspec := localName_spec unit ⟨27, "o", "p"⟩
  have hresolved := hspec.2 hprogram hclass hspells
  rw [htype] at hresolved
  exact ⟨⟨hrespellable, hspec.1 hrespellable, by decide +kernel⟩, hprogram, hclass, hspells, hresolved⟩

end LockDiscipline
