import LockDiscipline.Check.Run
import LockDiscipline.Proofs.Check.Homes
import LockDiscipline.Proofs.Lock.Rebasing
import LockDiscipline.Proofs.Program.Provenance
/-!
# No access is skipped in silence

The analysis of a unit of code skips an access whose required lock cannot be told, and says nothing.
The rule on guards that do not name a lock is there to say something, but it goes another way: through
the members of the classes and their annotations, and not through code and what its names refer to.
Here the two are shown to meet. A guarded member that code can refer to was declared in the body of a
class, the search for units finds this class, and the rule binds the same guard from the same class. So
an access is only skipped with a finding at the annotation of its member, or because the guard is
relative and the access itself does not show what object the member is taken from.
-/

namespace LockDiscipline

/-! ### What explains a skipped access -/

/-- A guard in the body of a class is declared for a field or method of the class, by the annotation
that the declaration of the member bears. -/
structure ClassUnit.DeclaresGuard (program : Program) (declaring : ClassUnit)
    (declared : DeclaredGuard) (member : NamedSymbol) : Prop where
  node : ∃ classMember ∈ declaring.decl.members, ∃ carrier ∈ classMember.carriers,
    program.use? carrier.2 = some member.id ∧ carrier.1.guardUse? = some declared.declaration
  symbol : program.symbol? member.id = some member
  value : declared.declaration.value? = some declared.guard
  owner : member.owner? = some declaring.id
  guard : member.guard = some declared.guard

/-- A finding reports the guard of a member: bound from the class that declares the member, the guard is
no lock, and the finding shows the annotation. -/
def CompilationUnit.Reports (unit : CompilationUnit) (options : CheckOptions) (finding : Diagnostic)
    (member : NamedSymbol) : Prop :=
  ∃ declaring ∈ (CodeUnits.ofUnit (.ofUnit unit) unit).classes, ∃ declared error,
    declaring.DeclaresGuard (.ofUnit unit) declared member ∧
      (declaring.view (.ofUnit unit)).bindGuard declared.guard = .error error ∧
      finding = declaring.guardDiagnostic (.ofUnit unit) options.guardSeverity declared error ∧
      finding.primarySpan? = some declared.declaration.span

/-- The guard of a member is relative, and an access does not show what object the member is taken
from. -/
def Viewpoint.LacksReceiver (view : Viewpoint) (expr : Expr) (member : NamedSymbol) : Prop :=
  ∃ declaring guard lock, view.ofMember? member = some declaring ∧ member.guard = some guard ∧
    declaring.bindGuard guard = .ok lock ∧ lock.isRelative ∧
      ∀ base selected, view.bindAccess expr ≠ .ok (.select base selected)

/-- Every access to a guarded member is reported with the lock that it requires, or there is a reason
that shows. -/
structure CompilationUnit.ExplainsSkips (unit : CompilationUnit) (options : CheckOptions) :
    Prop where
  /-- An access that a unit visits is one of its guarded accesses, or the guard is reported, or the guard
  is relative and the access lacks a receiver. -/
  explained : ∀ visiting ∈ unit.bodies, ∀ expr, visiting.Visits expr → ∀ member guard,
    (Program.ofUnit unit).usedSymbol? expr.id = some member → member.isField ∨ member.isMethod →
    member.guard = some guard →
      (∃ access ∈ visiting.accesses (.ofUnit unit), access.expr = expr ∧ access.member = member) ∨
      (∃ finding ∈ (CheckSubject.ofUnit unit).findings options .invalidGuard,
        unit.Reports options finding member) ∨
      (visiting.view (.ofUnit unit)).LacksReceiver expr member
  /-- Every finding of the rule reports the guard of a field or method that does not bind from the
  class that declares the member. -/
  sound : ∀ finding ∈ (CheckSubject.ofUnit unit).findings options .invalidGuard,
    ∃ member, unit.Reports options finding member

/-! ### The lock that an access requires -/

namespace Viewpoint

variable {view : Viewpoint} {expr : Expr} {member : NamedSymbol} {guard : String}

/-- The lock that a guard requires can be told unless the guard is relative and the access lacks a
receiver. -/
theorem exists_requiredLock {lock : LockExpr} (h : lock.isRelative →
    ∃ base selected, view.bindAccess expr = .ok (.select base selected)) :
    ∃ required, view.requiredLock lock expr = .ok required := by
  rw [requiredLock]
  cases hrelative : lock.isRelative with
  | false => exact ⟨lock, rfl⟩
  | true =>
      obtain ⟨base, selected, hbind⟩ := h hrelative
      obtain ⟨carried, hcarried⟩ := LockExpr.exists_rebase hrelative base
      exact ⟨carried, by rw [if_pos rfl, hbind]; exact hcarried⟩

theorem guardedMember?_eq_some (haccess : mayAccess expr.kind)
    (hused : view.program.usedSymbol? expr.id = some member) (hkind : member.isField ∨ member.isMethod)
    (hguard : member.guard = some guard) : view.guardedMember? expr = some (member, guard) := by
  have hmember : member.isField = false → member.isMethod = true := fun hfield =>
    hkind.resolve_left (by rw [hfield]; exact Bool.false_ne_true)
  simpa [guardedMember?, haccess, hused, hguard] using hmember

/-- The lock for an access can be told, or the guard does not bind from the class that declares the
member, or the access lacks a receiver. -/
theorem lockFor_cases (view : Viewpoint) (expr : Expr) {owner : SymbolId} (howner : member.owner? = some owner)
    (hguard : member.guard = some guard) :
    (∃ required, view.lockFor expr member guard = .ok required) ∨
      (∃ error, (view.withSelf owner).bindGuard guard = .error error) ∨
        view.LacksReceiver expr member := by
  have hdeclaring : view.ofMember? member = some (view.withSelf owner) := by
    rw [ofMember?, howner]
    rfl
  cases hbind : (view.withSelf owner).bindGuard guard with
  | error error => exact .inr (.inl ⟨error, rfl⟩)
  | ok lock =>
      by_cases hselect : lock.isRelative →
          ∃ base selected, view.bindAccess expr = .ok (.select base selected)
      · obtain ⟨required, hrequired⟩ := exists_requiredLock hselect
        refine .inl ⟨required, ?_⟩
        rw [lockFor, hdeclaring]
        dsimp only
        rw [hbind]
        exact hrequired
      · obtain ⟨hrelative, hnone⟩ := Classical.not_imp.mp hselect
        exact .inr (.inr ⟨_, guard, lock, hdeclaring, hguard, hbind, hrelative,
          fun base selected h => hnone ⟨base, selected, h⟩⟩)

end Viewpoint

/-- An access whose lock can be told is among the guarded accesses of the unit that visits it. -/
theorem CodeUnit.exists_access {visiting : CodeUnit} {program : Program} {expr : Expr}
    (hvisits : visiting.Visits expr) {member : NamedSymbol} {guard : String} {required : LockExpr}
    (hguarded : (visiting.view program).guardedMember? expr = some (member, guard))
    (hlock : (visiting.view program).lockFor expr member guard = .ok required) :
    ∃ access ∈ visiting.accesses program, access.expr = expr ∧ access.member = member := by
  obtain ⟨path, hsite⟩ := hvisits
  refine ⟨⟨expr, member, required, (visiting.view program).heldAlong
    (visiting.entryLocks program) path⟩, ?_, rfl, rfl⟩
  rw [accesses_eq_filterMap_sites]
  refine List.mem_filterMap.mpr ⟨⟨path, .expr expr⟩, mem_sites.mpr hsite, ?_⟩
  simp [accessAt?, hguarded, hlock, Except.toOption]

/-! ### The classes that the rule goes through -/

/-- Code that holds no class and no code of its own is made up of code. -/
theorem Within.isCode_of_plain {node inner : TreeNode} {path : List PathStep}
    (h : Within node path inner) (hnode : node.isCode)
    (hpath : ∀ step ∈ path, step.role.isInnerCode = false) : inner.isCode := by
  induction h with
  | here => exact hnode
  | @part node child inner step path hpart _ ih =>
      obtain ⟨hstep, hpath⟩ := List.forall_mem_cons.mp hpath
      refine ih ?_ hpath
      obtain ⟨index, role⟩ := step
      cases Fits.of_mem_parts (List.mem_of_getElem? hpart) with
      | inCode _ _ hchild => exact hchild
      | body | nested => cases hstep
      | annotationArg => rfl
      | declared | member => cases hnode

/-- No label stands on the path to a class, if no code is declared behind labels. -/
theorem Within.not_isLabel_of_classDecl {node : TreeNode} {path : List PathStep} {decl : ClassDecl}
    (h : Within node path (.classDecl decl)) (hplain : plainBehindLabels path) :
    ∀ step ∈ path, step.role.isLabel = false := by
  generalize hinner : TreeNode.classDecl decl = inner at h
  induction h with
  | here => exact fun step hstep => absurd hstep List.not_mem_nil
  | @part node child inner step path hpart hwithin ih =>
      obtain ⟨hstep, hrest⟩ := Bool.and_eq_true_iff.mp hplain
      refine List.forall_mem_cons.mpr ⟨?_, ih hrest hinner⟩
      by_contra hlabel
      rw [Bool.not_eq_false] at hlabel
      rw [hlabel, Bool.not_true, Bool.false_or, List.all_eq_true] at hstep
      have hchild : child.isCode := by
        obtain ⟨index, role⟩ := step
        cases Fits.of_mem_parts (List.mem_of_getElem? hpart) with
        | inCode _ _ hchild => exact hchild
        | _ => cases hlabel
      have hcode := hwithin.isCode_of_plain hchild fun step hstep' => by
        simpa using hstep step hstep'
      rw [← hinner] at hcode
      cases hcode

namespace PartRole

theorem isCertain_of_isResolved {role : PartRole} (h : role.isResolved) (hlabel : role.isLabel = false) :
    role.isCertain := by
  cases role with
  | annotationArg => cases h
  | label => cases hlabel
  | _ => rfl

end PartRole

namespace DeclaredGuard

/-- The rule looks at a node that a member is declared by. -/
theorem mem_carriers_of_carrier? {member : Member} {carrier : Modifiers × NodeId}
    (h : carrier? member.kind = some carrier) : carrier ∈ member.carriers := by
  obtain ⟨node, kind, span⟩ := member
  cases kind with
  | field modifiers type declarators =>
      cases declarators with
      | nil => cases h
      | cons declarator rest =>
          obtain rfl := Option.some.inj h
          exact List.mem_cons_self
  | method decl =>
      obtain rfl := Option.some.inj h
      exact List.mem_singleton_self _
  | _ => cases h

/-- The rule looks at the modifiers of every field and method with a guard, though perhaps not at its
node, since it looks at the first variable of a declaration only. -/
theorem exists_carrier? {member : Member} {carrier : Modifiers × NodeId}
    (h : carrier ∈ member.carriers) (hguard : carrier.1.guardedBy?.isSome) :
    ∃ node, carrier? member.kind = some (carrier.1, node) := by
  obtain ⟨node, kind, span⟩ := member
  cases kind with
  | field modifiers type declarators =>
      cases declarators with
      | nil => cases h
      | cons declarator rest =>
          obtain ⟨other, -, rfl⟩ := List.mem_map.mp h
          exact ⟨declarator.id, rfl⟩
  | method decl =>
      obtain rfl := List.mem_singleton.mp h
      exact ⟨decl.id, rfl⟩
  | enumConstant name args body =>
      obtain rfl := List.mem_singleton.mp h
      cases hguard
  | _ => cases h

theorem ofMember?_eq_some {program : Program} {member : Member} {declared : DeclaredGuard} :
    ofMember? program member = some declared ↔ ∃ modifiers node,
      carrier? member.kind = some (modifiers, node) ∧
        modifiers.guardUse? = some declared.declaration ∧
          declared.declaration.value? = some declared.guard ∧ (program.use? node).isSome := by
  obtain ⟨guard, declared⟩ := declared
  constructor
  · intro h
    obtain ⟨⟨modifiers, node⟩, hcarrier, h⟩ := Option.bind_eq_some_iff.mp h
    obtain ⟨declaration, huse, h⟩ := Option.bind_eq_some_iff.mp h
    obtain ⟨text, hvalue, h⟩ := Option.bind_eq_some_iff.mp h
    split at h
    case isTrue hused =>
      obtain ⟨rfl, rfl⟩ := DeclaredGuard.mk.inj (Option.some.inj h)
      exact ⟨modifiers, node, hcarrier, huse, hvalue, hused⟩
    case isFalse => cases h
  · rintro ⟨modifiers, node, hcarrier, huse, hvalue, hused⟩
    simp [ofMember?, hcarrier, huse, hvalue, hused]

end DeclaredGuard

namespace CompilationUnit

variable {unit : CompilationUnit}

/-- A class that the search finds stands somewhere in a class and has a symbol. -/
theorem mem_classes {declaring : ClassUnit} :
    declaring ∈ (CodeUnits.ofUnit (.ofUnit unit) unit).classes ↔ ∃ outer ∈ unit.types, ∃ path,
      Within (.classDecl outer) path (.classDecl declaring.decl) ∧
        (∃ self, TreeNode.follow (CodeUnits.enterClass (.ofUnit unit)) 0 path = some self) ∧
          (Program.ofUnit unit).use? declaring.decl.id = some declaring.id := by
  rw [CodeUnits.classes_ofUnit]
  simp only [List.mem_flatMap, List.mem_filterMap]
  constructor
  · rintro ⟨outer, houter, ⟨path, node⟩, hplace, hclass⟩
    cases node with
    | classDecl decl =>
        obtain ⟨self, hself, hclass⟩ := Option.bind_eq_some_iff.mp hclass
        obtain ⟨id, hid, hclass⟩ := Option.bind_eq_some_iff.mp hclass
        obtain rfl := Option.some.inj hclass
        exact ⟨outer, houter, path, TreeNode.mem_places.mp hplace, ⟨self, hself⟩, hid⟩
    | _ => cases hclass
  · rintro ⟨outer, houter, path, hwithin, ⟨self, hself⟩, hid⟩
    refine ⟨outer, houter, ⟨path, .classDecl declaring.decl⟩, TreeNode.mem_places.mpr hwithin, ?_⟩
    simp [CodeUnits.classAt?, hself, hid]

theorem mem_findings_invalidGuard {options : CheckOptions} {finding : Diagnostic} :
    finding ∈ (CheckSubject.ofUnit unit).findings options .invalidGuard ↔
      ∃ declaring ∈ (CodeUnits.ofUnit (.ofUnit unit) unit).classes, ∃ member ∈ declaring.decl.members,
        ∃ declared error, DeclaredGuard.ofMember? (.ofUnit unit) member = some declared ∧
          (declaring.view (.ofUnit unit)).bindGuard declared.guard = .error error ∧
            finding = declaring.guardDiagnostic (.ofUnit unit) options.guardSeverity declared error := by
  rw [CheckSubject.findings, CheckSubject.ofUnit]
  simp only [List.mem_flatMap, ClassUnit.guardFindings, ClassUnit.guards, List.mem_filterMap]
  refine exists_congr fun declaring => and_congr_right fun _ => ?_
  constructor
  · rintro ⟨declared, ⟨member, hmember, hdeclared⟩, hfinding⟩
    split at hfinding
    case h_1 => cases hfinding
    case h_2 error herror =>
      exact ⟨member, hmember, declared, error, hdeclared, herror, (Option.some.inj hfinding).symm⟩
  · rintro ⟨member, hmember, declared, error, hdeclared, herror, rfl⟩
    exact ⟨declared, ⟨member, hmember, hdeclared⟩, by rw [herror]⟩

variable (hnodup : unit.numbers.Nodup)
include hnodup

/-- What the members of a class that the search finds declare belongs to this class. -/
theorem carries_of_mem_classes {declaring : ClassUnit}
    (hdeclaring : declaring ∈ (CodeUnits.ofUnit (.ofUnit unit) unit).classes) {member : Member}
    (hmember : member ∈ declaring.decl.members) {carrier : Modifiers × NodeId}
    (hcarrier : carrier ∈ member.carriers) :
    (Program.ofUnit unit).Carries declaring.id (declaring.decl.kind == .interface) member carrier := by
  obtain ⟨outer, houter, path, hwithin, ⟨self, hself⟩, huse⟩ := mem_classes.mp hdeclaring
  obtain ⟨around, hdeclared⟩ := Program.exists_declared_ofUnit hnodup houter hwithin
    (CodeUnits.follow_eq_some hself).1
  obtain ⟨huse', -, -, hcarriers, -⟩ := hdeclared
  obtain rfl := Option.some.inj (huse.symm.trans huse')
  exact hcarriers member hmember carrier hcarrier

/-- The rule reads the guard of every declaration in a class that the search finds. -/
theorem exists_declaredGuard {declaring : ClassUnit}
    (hdeclaring : declaring ∈ (CodeUnits.ofUnit (.ofUnit unit) unit).classes) {member : Member}
    (hmember : member ∈ declaring.decl.members) {carrier : Modifiers × NodeId}
    (hcarrier : carrier ∈ member.carriers) {guard : String}
    (hguard : carrier.1.guardedBy? = some guard) :
    ∃ declaration, carrier.1.guardUse? = some declaration ∧ declaration.value? = some guard ∧
      DeclaredGuard.ofMember? (.ofUnit unit) member = some ⟨guard, declaration⟩ := by
  obtain ⟨declaration, hdeclaration, hvalue⟩ := Option.bind_eq_some_iff.mp hguard
  obtain ⟨node, hnode⟩ := DeclaredGuard.exists_carrier? hcarrier (by rw [hguard]; rfl)
  obtain ⟨first, -, hfirst, -⟩ := carries_of_mem_classes hnodup hdeclaring hmember
    (DeclaredGuard.mem_carriers_of_carrier? hnode)
  exact ⟨declaration, hdeclaration, hvalue, DeclaredGuard.ofMember?_eq_some.mpr
    ⟨carrier.1, node, hnode, hdeclaration, hvalue, by rw [hfirst]; rfl⟩⟩

/-- The search finds the class in which a field or method with a guard is declared. -/
theorem exists_mem_classes_of_guard (hlabels : unit.PlainLabels) {member : NamedSymbol} {id : SymbolId}
    (hsymbol : (Program.ofUnit unit).symbol? id = some member) {owner : SymbolId}
    (howner : member.owner? = some owner) {guard : String} (hguard : member.guard = some guard) :
    ∃ declaring ∈ (CodeUnits.ofUnit (.ofUnit unit) unit).classes,
      ∃ classMember ∈ declaring.decl.members, ∃ carrier ∈ classMember.carriers,
        (Program.ofUnit unit).use? carrier.2 = some id ∧ declaring.id = owner ∧
          carrier.1.guardedBy? = some guard := by
  obtain ⟨outer, houter, path, decl, hwithin, hpath, classMember, hclassMember, carrier, hcarrier,
    huse⟩ := Program.exists_carrier_ofUnit hnodup hsymbol howner hguard
  have hlabel := hwithin.not_isLabel_of_classDecl (hlabels outer houter path _ hwithin)
  have hcertain : ∀ step ∈ path, step.role.isCertain := fun step hstep =>
    PartRole.isCertain_of_isResolved (hpath step hstep) (hlabel step hstep)
  obtain ⟨around, hdeclared⟩ := Program.exists_declared_ofUnit hnodup houter hwithin hcertain
  obtain ⟨self, hself⟩ := hdeclared.exists_use?
  have hdeclaring : (⟨decl, self⟩ : ClassUnit) ∈ (CodeUnits.ofUnit (.ofUnit unit) unit).classes :=
    mem_classes.mpr ⟨outer, houter, path, hwithin,
      exists_follow_of_isCertain hnodup houter hwithin hcertain, hself⟩
  -- The symbol that is recorded for the node is the one that the class declared there.
  obtain ⟨id', member', huse', hsymbol', howner', hguard', -⟩ :=
    carries_of_mem_classes hnodup hdeclaring hclassMember hcarrier
  obtain rfl := Option.some.inj (huse.symm.trans huse')
  obtain rfl := Option.some.inj (hsymbol.symm.trans hsymbol')
  exact ⟨_, hdeclaring, classMember, hclassMember, carrier, hcarrier, huse,
    Option.some.inj (howner'.symm.trans howner), hguard'.symm.trans hguard⟩

/-- A guard that does not bind from the class that declares its member is reported. -/
theorem exists_finding_of_guard (hlabels : unit.PlainLabels) (options : CheckOptions)
    {member : NamedSymbol} {id : SymbolId} (hsymbol : (Program.ofUnit unit).symbol? id = some member)
    {owner : SymbolId} (howner : member.owner? = some owner) {guard : String}
    (hguard : member.guard = some guard) {error : NotALock}
    (herror : (⟨.ofUnit unit, owner⟩ : Viewpoint).bindGuard guard = .error error) :
    ∃ finding ∈ (CheckSubject.ofUnit unit).findings options .invalidGuard,
      unit.Reports options finding member := by
  have hid := (Program.wellFormed_ofUnit unit).id_eq hsymbol
  obtain ⟨declaring, hdeclaring, classMember, hclassMember, carrier, hcarrier, huse, rfl, hcarried⟩ :=
    exists_mem_classes_of_guard hnodup hlabels hsymbol howner hguard
  obtain ⟨declaration, hdeclaration, hvalue, hdeclared⟩ :=
    exists_declaredGuard hnodup hdeclaring hclassMember hcarrier hcarried
  subst hid
  have hdeclares : declaring.DeclaresGuard (.ofUnit unit) ⟨guard, declaration⟩ member :=
    { node := ⟨classMember, hclassMember, carrier, hcarrier, huse, hdeclaration⟩
      symbol := hsymbol
      value := hvalue
      owner := howner
      guard := hguard }
  refine ⟨declaring.guardDiagnostic (.ofUnit unit) options.guardSeverity ⟨guard, declaration⟩ error,
    mem_findings_invalidGuard.mpr ?_, ?_⟩
  · exact ⟨declaring, hdeclaring, classMember, hclassMember, _, error, hdeclared, herror, rfl⟩
  · exact ⟨declaring, hdeclaring, _, error, hdeclares, herror, rfl, rfl⟩

/-- What is reported is the guard of a member of the class from which it does not bind. -/
theorem exists_reports_of_finding {options : CheckOptions} {finding : Diagnostic}
    (h : finding ∈ (CheckSubject.ofUnit unit).findings options .invalidGuard) :
    ∃ member, unit.Reports options finding member := by
  obtain ⟨declaring, hdeclaring, classMember, hclassMember, declared, error, hdeclared, herror, rfl⟩ :=
    mem_findings_invalidGuard.mp h
  obtain ⟨modifiers, node, hcarrier, hdeclaration, hvalue, -⟩ :=
    DeclaredGuard.ofMember?_eq_some.mp hdeclared
  have hmem := DeclaredGuard.mem_carriers_of_carrier? hcarrier
  obtain ⟨id, member, huse, hsymbol, howner, hguard, -⟩ :=
    carries_of_mem_classes hnodup hdeclaring hclassMember hmem
  obtain rfl := (Program.wellFormed_ofUnit unit).id_eq hsymbol
  refine ⟨member, declaring, hdeclaring, declared, error, ?_, herror, rfl, rfl⟩
  exact
    { node := ⟨classMember, hclassMember, _, hmem, huse, hdeclaration⟩
      symbol := hsymbol
      value := hvalue
      owner := howner
      guard := hguard.trans (Option.bind_eq_some_iff.mpr ⟨_, hdeclaration, hvalue⟩) }

end CompilationUnit

/-- No access to a guarded member is skipped without a reason that shows, as long as no label of a case
contains a class body or a lambda. -/
theorem ParsedUnit.explainsSkips_ofTokens (tokens : List Token) (options : CheckOptions)
    (hlabels : (ofTokens tokens).unit.PlainLabels) : (ofTokens tokens).unit.ExplainsSkips options := by
  have hnodup := nodup_numbers_ofTokens tokens
  generalize (ofTokens tokens).unit = unit at hlabels hnodup
  refine ⟨fun visiting _ expr hvisits member guard hused hkind hguard => ?_, fun finding hfinding =>
    CompilationUnit.exists_reports_of_finding hnodup hfinding⟩
  obtain ⟨id, -, hsymbol⟩ := Option.bind_eq_some_iff.mp hused
  obtain ⟨owner, howner⟩ : ∃ owner, member.owner? = some owner := by
    cases hmember : member.kind <;>
      simp_all [NamedSymbol.owner?, NamedSymbol.isField, NamedSymbol.isMethod]
  have haccess : Viewpoint.mayAccess expr.kind := by
    obtain ⟨path, -, -, expr', hexpr, haccess⟩ := hvisits
    obtain rfl := TreeNode.expr.inj hexpr
    exact haccess
  have hguarded : (visiting.view (.ofUnit unit)).guardedMember? expr = some (member, guard) :=
    Viewpoint.guardedMember?_eq_some haccess hused hkind hguard
  rcases (visiting.view (.ofUnit unit)).lockFor_cases expr howner hguard with
    ⟨required, hrequired⟩ | ⟨error, herror⟩ | hlacks
  · exact .inl (CodeUnit.exists_access hvisits hguarded hrequired)
  · exact .inr (.inl (CompilationUnit.exists_finding_of_guard hnodup hlabels options hsymbol howner
      hguard herror))
  · exact .inr (.inr hlacks)

/-- A class with a guard that names nothing, and with a relative guard whose field is selected from a
call with arguments. -/
def skippingTokens : List Token :=
  (Lexer.tokenize ("class A \x7b @GuardedBy(\"lost\") int x; @GuardedBy(\"this\") int y; " ++
    "A at(int i) \x7b return this; \x7d void f() \x7b x = 1; at(1).y = 2; \x7d \x7d").toList).tokens

private theorem skipping_plainLabels : (ParsedUnit.ofTokens skippingTokens).unit.PlainLabels := by
  decide +kernel

/-- Both accesses are skipped there, one of them with a finding. -/
private theorem skipping_skips :
    let unit := (ParsedUnit.ofTokens skippingTokens).unit
    (unit.bodies.flatMap (·.accesses (.ofUnit unit))).length = 0 ∧
      ((CheckSubject.ofUnit unit).findings .default .invalidGuard).length = 1 := by
  decide +kernel

theorem explainsSkips_skippingTokens :
    let unit := (ParsedUnit.ofTokens skippingTokens).unit
    unit.PlainLabels ∧ unit.ExplainsSkips .default ∧
      (unit.bodies.flatMap (·.accesses (.ofUnit unit))).length = 0 ∧
        ((CheckSubject.ofUnit unit).findings .default .invalidGuard).length = 1 :=
  ⟨skipping_plainLabels,
    ParsedUnit.explainsSkips_ofTokens skippingTokens .default skipping_plainLabels, skipping_skips⟩

end LockDiscipline
