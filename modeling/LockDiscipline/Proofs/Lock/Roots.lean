import LockDiscipline.Proofs.Check.Sites
import LockDiscipline.Proofs.Lock.Binding
import LockDiscipline.Proofs.Program.Unit
/-!
# Where locks are rooted

A lock that is bound from the code of a class is rooted at `this`, at an instance of a class around
it, or at something that does not depend on the place. Both ways of binding keep this, and so does
carrying a relative guard over to the receiver of an access. A guard that is not relative is required
as it stands, so its root belongs to the class that declares the guarded member and need not be an
instance around the accessing code.
-/

namespace LockDiscipline

/-- A class lies around another one and is not that class itself. -/
def Program.Encloses (program : Program) (outer inner : SymbolId) : Prop :=
  outer ≠ inner ∧
    Relation.ReflTransGen (fun type around => program.outerClass? type = some around) inner outer

private theorem Program.reaches_of_mem_enclosingUpTo {program : Program} (steps : Nat)
    {self type : SymbolId} (h : type ∈ program.enclosingUpTo steps self) :
    Relation.ReflTransGen (fun type around => program.outerClass? type = some around) self type := by
  induction steps generalizing self with
  | zero => cases h
  | succ steps ih =>
      rw [enclosingUpTo] at h
      rcases List.mem_cons.mp h with rfl | h
      · exact .refl
      · cases houter : program.outerClass? self with
        | none => rw [houter] at h; cases h
        | some outer =>
            rw [houter] at h
            exact .head houter (ih h)

theorem Program.encloses_of_mem_enclosing {program : Program} {self type : SymbolId}
    (h : type ∈ program.enclosing self) (hne : type ≠ self) : program.Encloses type self :=
  ⟨hne, reaches_of_mem_enclosingUpTo _ h⟩

/-- An enclosing instance at the root of a lock is one of a class around the code of a class. -/
def Viewpoint.SeesRoot (view : Viewpoint) (lock : LockExpr) : Prop :=
  ∀ type, lock.root = .outer type → view.program.Encloses type.id view.self

namespace Viewpoint

variable {view : Viewpoint}

/-- A member has the root of what it is selected from. -/
theorem seesRoot_select {base : LockExpr} {member : LockSymbol} :
    view.SeesRoot (.select base member) ↔ view.SeesRoot base := Iff.rfl

/-- A relative lock that is carried over to a receiver has the root of the receiver. -/
theorem SeesRoot.rebase {receiver guard lock : LockExpr} (h : view.SeesRoot receiver)
    (hlock : LockExpr.rebase receiver guard = .ok lock) : view.SeesRoot lock := by
  induction guard generalizing lock with
  | this =>
      obtain rfl := Except.ok.inj hlock
      exact h
  | select base member ih =>
      rw [LockExpr.rebase] at hlock
      cases hbase : LockExpr.rebase receiver base with
      | error error => rw [hbase] at hlock; cases hlock
      | ok lock' =>
          rw [hbase] at hlock
          obtain rfl := Except.ok.inj hlock
          exact seesRoot_select.mpr (ih hbase)
  | _ => cases hlock

/-- Binding keeps that a root is seen. -/
theorem keeps_seesRoot (hprogram : view.program.WellFormed) : view.Keeps view.SeesRoot := by
  have henclosing {type : SymbolId} {lock : LockExpr} (h : view.enclosingInstance type = .ok lock) :
      view.SeesRoot lock := by
    rcases enclosingInstance_eq_ok.mp h with ⟨-, rfl⟩ | ⟨hne, hmem, symbol, hsymbol, rfl⟩
    · exact nofun
    · intro outer houter
      obtain rfl := LockExpr.outer.inj houter
      change view.program.Encloses symbol.id view.self
      rw [hprogram.id_eq hsymbol]
      exact Program.encloses_of_mem_enclosing hmem hne
  refine ⟨henclosing, fun _ => nofun, fun _ => nofun, fun hbase _ _ hlock => ?_⟩
  refine seesRoot_select.mpr ?_
  rcases selectBase_eq_ok.mp hlock with ⟨-, symbol, -, rfl⟩ | ⟨-, hwritten | ⟨-, himplied⟩⟩
  · exact nofun
  · exact hbase _ hwritten _ rfl
  · obtain ⟨type, -, htype⟩ := implicitReceiver_eq_ok.mp himplied
    exact henclosing htype

/-- A relative guard is carried over to a receiver that the accessing class sees, and any other guard
is required as it stands. -/
theorem requiredLock_root (hprogram : view.program.WellFormed) {guard required : LockExpr} {access : Expr}
    (h : view.requiredLock guard access = .ok required) :
    (guard.isRelative ∧ view.SeesRoot required) ∨
      (guard.isRelative = false ∧ required = guard) := by
  rw [requiredLock] at h
  cases hrelative : guard.isRelative with
  | false =>
      rw [hrelative, if_neg Bool.false_ne_true] at h
      exact .inr ⟨rfl, (Except.ok.inj h).symm⟩
  | true =>
      rw [hrelative, if_pos rfl] at h
      obtain ⟨bound, hbound, h⟩ := bind_eq_ok.mp h
      cases bound with
      | select base member =>
          have hbase := seesRoot_select.mp ((keeps_seesRoot hprogram).bindAccess hbound)
          exact .inl ⟨rfl, hbase.rebase h⟩
      | _ => cases h

/-- What an access to a guarded member is: a name, selection or call that was resolved to a field or
method with the guard. -/
structure Accessed (view : Viewpoint) (expr : Expr) (member : NamedSymbol) (text : String) :
    Prop where
  mayAccess : mayAccess expr.kind
  use_eq : view.program.usedSymbol? expr.id = some member
  isMember : member.isField ∨ member.isMethod
  guard_eq : member.guard = some text

theorem accessed_of_guardedMember? {expr : Expr} {member : NamedSymbol} {text : String}
    (h : view.guardedMember? expr = some (member, text)) : view.Accessed expr member text := by
  rw [guardedMember?] at h
  split at h
  case isFalse => cases h
  case isTrue hkind =>
    obtain ⟨symbol, hsymbol, h⟩ := Option.bind_eq_some_iff.mp h
    split at h
    case isFalse => cases h
    case isTrue hmember =>
      obtain ⟨guard, hguard, h⟩ := Option.bind_eq_some_iff.mp h
      obtain ⟨rfl, rfl⟩ := Prod.mk.inj (Option.some.inj h)
      exact ⟨hkind, hsymbol, by simpa using hmember, hguard⟩

end Viewpoint

namespace CodeUnit

/-- An access of a unit is to a member with a guard. The class that declares the member binds the
guard, and the access requires the lock that the guard is for it. -/
theorem guarded_of_mem_accesses {unit : CodeUnit} {program : Program} {access : Access}
    (h : access ∈ unit.accesses program) : ∃ text declaring guard,
      (unit.view program).guardedMember? access.expr = some (access.member, text) ∧
        access.member.owner? = some declaring ∧
          Viewpoint.bindGuard ⟨program, declaring⟩ text = .ok guard ∧
            (unit.view program).requiredLock guard access.expr = .ok access.required := by
  rw [accesses_eq_filterMap_sites] at h
  obtain ⟨⟨path, node⟩, -, hplace⟩ := List.mem_filterMap.mp h
  cases node with
  | expr expr =>
      obtain ⟨⟨member, text⟩, hmember, hplace⟩ := Option.bind_eq_some_iff.mp hplace
      obtain ⟨required, hrequired, hplace⟩ := Option.bind_eq_some_iff.mp hplace
      obtain rfl := Option.some.inj hplace
      replace hrequired := toOption_eq_some.mp hrequired
      rw [Viewpoint.lockFor, Viewpoint.ofMember?] at hrequired
      cases howner : member.owner? with
      | none => rw [howner] at hrequired; cases hrequired
      | some declaring =>
          rw [howner] at hrequired
          obtain ⟨guard, hguard, hrequired⟩ := bind_eq_ok.mp hrequired
          exact ⟨text, declaring, guard, hmember, rfl, hguard, hrequired⟩
  | _ => cases hplace

/-- The guard that an access requires is that of its member. -/
theorem required_of_mem_accesses {unit : CodeUnit} {program : Program} {access : Access}
    (h : access ∈ unit.accesses program) : ∃ text declaring guard,
      access.member.guard = some text ∧ access.member.owner? = some declaring ∧
        Viewpoint.bindGuard ⟨program, declaring⟩ text = .ok guard ∧
          (unit.view program).requiredLock guard access.expr = .ok access.required := by
  obtain ⟨text, declaring, guard, hmember, hrest⟩ := guarded_of_mem_accesses h
  exact ⟨text, declaring, guard, (Viewpoint.accessed_of_guardedMember? hmember).guard_eq, hrest⟩

/-- The lock that an access requires is what the guard of its member, which the declaring class binds,
is for the access. It is rooted at an enclosing instance in one of two ways. A relative guard was
carried over to a receiver that is rooted at an instance around the accessing unit. Any other guard is
required unchanged, and is rooted at an instance around the class that declares the member. -/
theorem encloses_of_required_root (source : CompilationUnit) (unit : CodeUnit) (access : Access)
    (haccess : access ∈ unit.accesses (Program.ofUnit source)) : ∃ text declaring guard,
      access.member.guard = some text ∧ access.member.owner? = some declaring ∧
        Viewpoint.bindGuard ⟨Program.ofUnit source, declaring⟩ text = .ok guard ∧
          (unit.view (Program.ofUnit source)).requiredLock guard access.expr = .ok access.required ∧
            ∀ type, access.required.root = .outer type →
              ((guard.isRelative ∧ (Program.ofUnit source).Encloses type.id unit.self) ∨
                (guard.isRelative = false ∧ access.required = guard ∧
                  (Program.ofUnit source).Encloses type.id declaring)) := by
  have hprogram := Program.wellFormed_ofUnit source
  obtain ⟨text, declaring, guard, htext, howner, hguard, hrequired⟩ :=
    required_of_mem_accesses haccess
  refine ⟨text, declaring, guard, htext, howner, hguard, hrequired, fun type hroot => ?_⟩
  rcases Viewpoint.requiredLock_root hprogram hrequired with ⟨hrelative, hsees⟩ | ⟨habsolute, heq⟩
  · exact .inl ⟨hrelative, hsees type hroot⟩
  · refine .inr ⟨habsolute, heq, ?_⟩
    exact (Viewpoint.keeps_seesRoot hprogram).bindGuard hguard type (heq ▸ hroot)

/-- A text in braces. -/
def braced (text : String) : String :=
  "\x7b" ++ text ++ "\x7d"

/-- A class and an inner class, each with code that accesses a guarded field of the other. -/
def crossingUnit : CompilationUnit :=
  let inner := "@GuardedBy(\"A.this\") int x; void g() " ++ braced "y = 1;"
  let outer := "@GuardedBy(\"this\") int y; void f(B b) " ++ braced "b.x = 1;" ++ " class B " ++
    braced inner
  (ParsedUnit.ofSource ("class A " ++ braced outer).toList).unit

private theorem crossingUnit_accesses :
    let bodies := (CodeUnits.ofUnit (.ofUnit crossingUnit) crossingUnit).bodies
    (∃ unit ∈ bodies, unit.self = 27 ∧ ∃ access ∈ unit.accesses (.ofUnit crossingUnit),
      access.required.root = .outer ⟨24, "A"⟩) ∧
    (∃ unit ∈ bodies, unit.self = 24 ∧ ∃ access ∈ unit.accesses (.ofUnit crossingUnit),
      access.required.root = .outer ⟨24, "A"⟩) := by
  decide +kernel

theorem encloses_of_required_root_crossingUnit :
    ∃ unit ∈ (CodeUnits.ofUnit (.ofUnit crossingUnit) crossingUnit).bodies,
      ∃ access ∈ unit.accesses (.ofUnit crossingUnit),
        access.required.root = .outer ⟨24, "A"⟩ ∧ ∃ text declaring guard,
          access.member.guard = some text ∧ access.member.owner? = some declaring ∧
            Viewpoint.bindGuard ⟨.ofUnit crossingUnit, declaring⟩ text = .ok guard ∧
              (unit.view (.ofUnit crossingUnit)).requiredLock guard access.expr =
                .ok access.required ∧
                ((guard.isRelative ∧ (Program.ofUnit crossingUnit).Encloses 24 unit.self) ∨
                  (guard.isRelative = false ∧ access.required = guard ∧
                    (Program.ofUnit crossingUnit).Encloses 24 declaring)) := by
  obtain ⟨⟨unit, hunit, -, access, haccess, hroot⟩, -⟩ := crossingUnit_accesses
  obtain ⟨text, declaring, guard, htext, howner, hguard, hrequired, houter⟩ :=
    encloses_of_required_root crossingUnit unit access haccess
  exact ⟨unit, hunit, access, haccess, hroot, text, declaring, guard, htext, howner, hguard,
    hrequired, houter ⟨24, "A"⟩ hroot⟩

/-- An access to a field of an inner class can require the instance of the accessing class by the
name that it has for the inner class. -/
theorem exists_required_root_not_encloses :
    ∃ unit ∈ (CodeUnits.ofUnit (.ofUnit crossingUnit) crossingUnit).bodies,
      ∃ access ∈ unit.accesses (.ofUnit crossingUnit), ∃ type,
        access.required.root = .outer type ∧ type.id = unit.self ∧
          ¬ (Program.ofUnit crossingUnit).Encloses type.id unit.self := by
  obtain ⟨-, unit, hunit, hself, access, haccess, hroot⟩ := crossingUnit_accesses
  exact ⟨unit, hunit, access, haccess, ⟨24, "A"⟩, hroot, hself.symm, fun h => h.1 hself.symm⟩

end CodeUnit
end LockDiscipline
