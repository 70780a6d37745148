import LockDiscipline.Proofs.Lock.Roots
/-!
# Well-formed locks

A type literal stands for the class of a static member, so in a well-formed lock it is never alone and
never before an instance member. Both ways of binding yield well-formed locks only, and so does carrying
a relative guard over to a receiver that is one. The receiver of a static member is a type literal, which
is none: a relative guard of a static member is carried over to it all the same, and this is the only way
in which an access can come to require a lock that is not well-formed.
-/

namespace LockDiscipline

namespace LockExpr

/-- A type literal stands in a lock only before a static member of the type. -/
inductive WellFormed (program : Program) : LockExpr → Prop where
  | this : WellFormed program .this
  | outer (type : LockSymbol) : WellFormed program (.outer type)
  | classLiteral (type : LockSymbol) : WellFormed program (.classLiteral type)
  | localVar (var : LockSymbol) : WellFormed program (.localVar var)
  | static {type member : LockSymbol} {symbol : NamedSymbol}
      (hsymbol : program.symbol? member.id = some symbol) (hstatic : symbol.isStatic)
      (howner : symbol.owner? = some type.id) :
      WellFormed program (.select (.typeLiteral type) member)
  | select {base : LockExpr} (member : LockSymbol) (hbase : WellFormed program base) :
      WellFormed program (.select base member)

/-- A lock as binding yields it: static members are selected from their class and all other members
from an instance. -/
inductive Formed (program : Program) : LockExpr → Prop where
  | this : Formed program .this
  | outer (type : LockSymbol) : Formed program (.outer type)
  | classLiteral (type : LockSymbol) : Formed program (.classLiteral type)
  | localVar (var : LockSymbol) : Formed program (.localVar var)
  | static {type member : LockSymbol} {symbol : NamedSymbol}
      (hsymbol : program.symbol? member.id = some symbol) (hstatic : symbol.isStatic)
      (howner : symbol.owner? = some type.id) : Formed program (.select (.typeLiteral type) member)
  | instance {base : LockExpr} {member : LockSymbol} {symbol : NamedSymbol}
      (hbase : Formed program base) (hsymbol : program.symbol? member.id = some symbol)
      (hinstance : symbol.isStatic = false) : Formed program (.select base member)

variable {program : Program}

theorem Formed.wellFormed {lock : LockExpr} (h : Formed program lock) : lock.WellFormed program := by
  induction h with
  | this => exact .this
  | outer type => exact .outer type
  | classLiteral type => exact .classLiteral type
  | localVar var => exact .localVar var
  | static hsymbol hstatic howner => exact .static hsymbol hstatic howner
  | «instance» _ _ _ ih => exact .select _ ih

theorem not_wellFormed_typeLiteral (type : LockSymbol) :
    ¬(LockExpr.typeLiteral type).WellFormed program := nofun

/-- A relative guard that is carried over to a well-formed receiver is well-formed. -/
theorem Formed.rebase {receiver guard lock : LockExpr} (hguard : Formed program guard)
    (hreceiver : Formed program receiver) (hlock : LockExpr.rebase receiver guard = .ok lock) :
    Formed program lock := by
  induction hguard generalizing lock with
  | this =>
      obtain rfl := Except.ok.inj hlock
      exact hreceiver
  | «instance» _ hsymbol hinstance ih =>
      rw [LockExpr.rebase] at hlock
      split at hlock
      case h_1 lock' hbase =>
        obtain rfl := Except.ok.inj hlock
        exact .instance (ih hbase) hsymbol hinstance
      case h_2 => cases hlock
  | _ => cases hlock

/-- A relative guard that is carried over to a type stays without an instance: the type is left alone
or before an instance member. -/
theorem Formed.not_wellFormed_rebase {guard lock : LockExpr} (hguard : Formed program guard)
    {type : LockSymbol} (hlock : LockExpr.rebase (.typeLiteral type) guard = .ok lock) :
    ¬lock.WellFormed program := by
  induction hguard generalizing lock with
  | this =>
      obtain rfl := Except.ok.inj hlock
      exact not_wellFormed_typeLiteral type
  | @«instance» base member symbol _ hsymbol hinstance ih =>
      rw [LockExpr.rebase] at hlock
      split at hlock
      case h_1 lock' hbase =>
        obtain rfl := Except.ok.inj hlock
        intro h
        cases h with
        | static hsymbol' hstatic =>
            obtain rfl := Option.some.inj (hsymbol.symm.trans hsymbol')
            rw [hinstance] at hstatic
            cases hstatic
        | select _ hlock' => exact ih hbase hlock'
      case h_2 => cases hlock
  | _ => cases hlock

end LockExpr

namespace Viewpoint

open LockExpr (Formed)

variable {view : Viewpoint}

/-- What a member is selected from: its class if it is static, and else a lock as binding yields it. -/
def FormedBase (view : Viewpoint) (member : NamedSymbol) (base : LockExpr) : Prop :=
  (member.isStatic ∧ ∃ type : LockSymbol, member.owner? = some type.id ∧ base = .typeLiteral type) ∨
    (member.isStatic = false ∧ base.Formed view.program)

section Binding

variable (hprogram : view.program.WellFormed)
include hprogram

theorem formedBase_selectBase {base : Option Bound} {member : NamedSymbol} {owner : SymbolId}
    {lock : LockExpr} (hbase : ∀ inner, base = some inner → BoundHas (Formed view.program) inner)
    (howner : member.owner? = some owner) (h : view.selectBase base member owner = .ok lock) :
    view.FormedBase member lock := by
  rcases selectBase_eq_ok.mp h with ⟨hstatic, symbol, hsymbol, rfl⟩ |
    ⟨hinstance, hwritten | ⟨-, himplied⟩⟩
  · refine .inl ⟨hstatic, .ofSymbol symbol, howner.trans ?_, rfl⟩
    rw [LockSymbol.ofSymbol, hprogram.id_eq hsymbol]
  · exact .inr ⟨hinstance, hbase _ hwritten lock rfl⟩
  · obtain ⟨type, -, htype⟩ := implicitReceiver_eq_ok.mp himplied
    rcases enclosingInstance_eq_ok.mp htype with ⟨-, rfl⟩ | ⟨-, -, symbol, -, rfl⟩
    · exact .inr ⟨hinstance, .this⟩
    · exact .inr ⟨hinstance, .outer _⟩

/-- Binding yields locks in which members are selected as they should be. -/
theorem keeps_formed : view.Keeps (Formed view.program) where
  enclosing h := by
    rcases enclosingInstance_eq_ok.mp h with ⟨-, rfl⟩ | ⟨-, -, symbol, -, rfl⟩
    · exact .this
    · exact .outer _
  classLiteral := .classLiteral
  localVar := .localVar
  selected {base id member owner lock} hbase hmember howner hlock := by
    have hsymbol : view.program.symbol? (LockSymbol.ofSymbol member).id = some member := by
      rw [LockSymbol.ofSymbol, hprogram.id_eq hmember, hmember]
    rcases formedBase_selectBase hprogram hbase howner hlock with
      ⟨hstatic, type, htype, rfl⟩ | ⟨hinstance, hlock⟩
    · exact .static hsymbol hstatic htype
    · exact .instance hlock hsymbol hinstance

end Binding

/-- An access is bound by selecting its member, from what the expression before the dot is bound to or
from nothing. -/
theorem Accessed.exists_select {expr : Expr} {member : NamedSymbol} {text : String}
    (h : view.Accessed expr member text) {allowArgs : Bool} {bound : Bound}
    (hbound : view.bindSource allowArgs expr = .ok bound) :
    ∃ base id, view.program.symbol? id = some member ∧ view.select base id = .ok bound ∧
      ∀ inner, base = some inner → ∃ object, view.bindSource false object = .ok inner := by
  obtain ⟨id, huse, hsymbol⟩ := Option.bind_eq_some_iff.mp h.use_eq
  have hresolved {id' : SymbolId} (hid : view.resolved expr = .ok id') : id' = id := by
    rw [resolved, huse] at hid
    exact (Except.ok.inj hid).symm
  have hknown {symbol : NamedSymbol} (hsymbol' : view.symbol id = .ok symbol) : symbol = member :=
    Option.some.inj ((symbol_eq_ok.mp hsymbol').symm.trans hsymbol)
  have hmayAccess := h.mayAccess
  obtain ⟨node, kind, span⟩ := expr
  cases kind with
  | name name =>
      rw [bindSource] at hbound
      obtain ⟨id', hid, hbound⟩ := bind_eq_ok.mp hbound
      obtain rfl := hresolved hid
      obtain ⟨symbol, hsymbol', hbound⟩ := bind_eq_ok.mp hbound
      obtain rfl := hknown hsymbol'
      have hvariable : symbol.isVariable = false := by
        rcases h.isMember with hmember | hmember <;>
          simp only [NamedSymbol.isField, NamedSymbol.isMethod, NamedSymbol.isVariable] at * <;>
            split at hmember <;> simp_all
      rw [hvariable, if_neg Bool.false_ne_true] at hbound
      exact ⟨none, _, hsymbol, hbound, fun _ heq => by cases heq⟩
  | select object name =>
      rw [bindSource] at hbound
      obtain ⟨id', hid, hbound⟩ := bind_eq_ok.mp hbound
      obtain rfl := hresolved hid
      obtain ⟨symbol, -, hbound⟩ := bind_eq_ok.mp hbound
      split at hbound
      case isTrue => exact ⟨none, _, hsymbol, hbound, fun _ heq => by cases heq⟩
      case isFalse =>
        obtain ⟨base, hbase, hbound⟩ := bind_eq_ok.mp hbound
        refine ⟨some base, _, hsymbol, hbound, fun inner hinner => ⟨object, ?_⟩⟩
        rw [← Option.some.inj hinner, hbase]
  | call receiver method args =>
      rw [bindSource] at hbound
      split at hbound
      case isTrue => cases hbound
      case isFalse =>
        obtain ⟨id', hid, hbound⟩ := bind_eq_ok.mp hbound
        obtain rfl := hresolved hid
        obtain ⟨symbol, -, hbound⟩ := bind_eq_ok.mp hbound
        split at hbound
        case isTrue => exact ⟨none, _, hsymbol, hbound, fun _ heq => by cases heq⟩
        case isFalse =>
          obtain ⟨base, hbase, hbound⟩ := bind_eq_ok.mp hbound
          refine ⟨base, _, hsymbol, hbound, fun inner hinner => ?_⟩
          cases receiver with
          | none =>
              rw [bindReceiver] at hbase
              rw [← Except.ok.inj hbase] at hinner
              cases hinner
          | some receiver =>
              rw [bindReceiver] at hbase
              obtain ⟨bound', hbound', hbase⟩ := bind_eq_ok.mp hbase
              obtain rfl := Except.ok.inj hbase
              exact ⟨receiver, by rw [← Option.some.inj hinner, hbound']⟩
  | _ => cases hmayAccess

/-- The member of an access is selected from its class if it is static, and else from a lock as binding
yields it. -/
theorem Accessed.formedBase_bindAccess (hprogram : view.program.WellFormed) {expr : Expr}
    {member : NamedSymbol} {text : String} (h : view.Accessed expr member text) {lock : LockExpr}
    (hlock : view.bindAccess expr = .ok lock) :
    ∃ receiver, lock = .select receiver (.ofSymbol member) ∧ view.FormedBase member receiver := by
  obtain ⟨bound, hbound, hlock⟩ := bind_eq_ok.mp hlock
  obtain ⟨base, id, hmember, hselect, hbase⟩ := h.exists_select hbound
  obtain ⟨member', hmember', ⟨hclass, -⟩ | ⟨-, owner, receiver, howner, hreceiver, rfl⟩⟩ :=
    select_eq_ok.mp hselect
  · obtain rfl := Option.some.inj (hmember.symm.trans hmember')
    rcases h.isMember with hmember | hmember <;>
      simp only [NamedSymbol.isField, NamedSymbol.isMethod, NamedSymbol.isClass,
        NamedSymbol.classInfo?] at * <;> split at hmember <;> simp_all
  · obtain rfl := Option.some.inj (hmember.symm.trans hmember')
    obtain rfl := Except.ok.inj hlock
    refine ⟨receiver, rfl, formedBase_selectBase hprogram (fun inner hinner => ?_) howner hreceiver⟩
    obtain ⟨object, hobject⟩ := hbase inner hinner
    exact (keeps_formed hprogram).bindSource false object hobject

/-- A guard that is required of an access gives a well-formed lock unless it is relative and the member
is static. -/
theorem Accessed.wellFormed_requiredLock_iff (hprogram : view.program.WellFormed) {expr : Expr}
    {member : NamedSymbol} {text : String} (h : view.Accessed expr member text)
    {guard required : LockExpr} (hguard : guard.Formed view.program)
    (hrequired : view.requiredLock guard expr = .ok required) :
    required.WellFormed view.program ↔ ¬(guard.isRelative ∧ member.isStatic) := by
  rw [requiredLock] at hrequired
  cases hrelative : guard.isRelative with
  | false =>
      rw [hrelative, if_neg Bool.false_ne_true] at hrequired
      obtain rfl := Except.ok.inj hrequired
      exact iff_of_true hguard.wellFormed fun h => Bool.false_ne_true h.1
  | true =>
      rw [hrelative, if_pos rfl] at hrequired
      obtain ⟨bound, hbound, hrequired⟩ := bind_eq_ok.mp hrequired
      obtain ⟨receiver, rfl, ⟨hstatic, type, -, rfl⟩ | ⟨hinstance, hreceiver⟩⟩ :=
        h.formedBase_bindAccess hprogram hbound
      · exact iff_of_false (hguard.not_wellFormed_rebase hrequired) fun h => h ⟨rfl, hstatic⟩
      · refine iff_of_true (hguard.rebase hreceiver hrequired).wellFormed fun h => ?_
        rw [hinstance] at h
        exact Bool.false_ne_true h.2

end Viewpoint

namespace CodeUnit

/-- The lock that an access requires is well-formed exactly if the guard of the accessed member does not
depend on how the member is reached or the member is not static. -/
theorem wellFormed_required_iff (source : CompilationUnit) (unit : CodeUnit) (access : Access)
    (haccess : access ∈ unit.accesses (Program.ofUnit source)) : ∃ text declaring guard,
      access.member.guard = some text ∧ access.member.owner? = some declaring ∧
        Viewpoint.bindGuard ⟨Program.ofUnit source, declaring⟩ text = .ok guard ∧
          (access.required.WellFormed (Program.ofUnit source) ↔
            ¬(guard.isRelative ∧ access.member.isStatic)) := by
  have hprogram := Program.wellFormed_ofUnit source
  obtain ⟨text, declaring, guard, hmember, howner, hguard, hrequired⟩ :=
    guarded_of_mem_accesses haccess
  have haccessed := Viewpoint.accessed_of_guardedMember? hmember
  let declared : Viewpoint := ⟨Program.ofUnit source, declaring⟩
  have hformed : guard.Formed declared.program := (Viewpoint.keeps_formed hprogram).bindGuard hguard
  exact ⟨text, declaring, guard, haccessed.guard_eq, howner, hguard,
    haccessed.wellFormed_requiredLock_iff hprogram hformed hrequired⟩

/-- A class whose static field is guarded by an instance, with code that accesses the field. -/
def staticGuardUnit : CompilationUnit :=
  let body := "@GuardedBy(\"this\") static int x; void f() " ++ braced "x = 1;"
  (ParsedUnit.ofSource ("class A " ++ braced body).toList).unit

private theorem staticGuardUnit_accesses :
    ∃ unit ∈ (CodeUnits.ofUnit (.ofUnit staticGuardUnit) staticGuardUnit).bodies,
      ∃ access ∈ unit.accesses (.ofUnit staticGuardUnit),
        access.required = .typeLiteral ⟨24, "A"⟩ := by
  decide +kernel

theorem wellFormed_required_iff_staticGuardUnit :
    ∃ unit ∈ (CodeUnits.ofUnit (.ofUnit staticGuardUnit) staticGuardUnit).bodies,
      ∃ access ∈ unit.accesses (.ofUnit staticGuardUnit), ∃ text declaring guard,
        access.member.guard = some text ∧ access.member.owner? = some declaring ∧
          Viewpoint.bindGuard ⟨.ofUnit staticGuardUnit, declaring⟩ text = .ok guard ∧
            (access.required.WellFormed (.ofUnit staticGuardUnit) ↔
              ¬(guard.isRelative ∧ access.member.isStatic)) := by
  obtain ⟨unit, hunit, access, haccess, -⟩ := staticGuardUnit_accesses
  exact ⟨unit, hunit, access, haccess, wellFormed_required_iff staticGuardUnit unit access haccess⟩

/-- An access to a static field can require a type alone, which is no lock at all. -/
theorem exists_required_not_wellFormed :
    ∃ unit ∈ (CodeUnits.ofUnit (.ofUnit staticGuardUnit) staticGuardUnit).bodies,
      ∃ access ∈ unit.accesses (.ofUnit staticGuardUnit),
        ¬access.required.WellFormed (.ofUnit staticGuardUnit) := by
  obtain ⟨unit, hunit, access, haccess, hrequired⟩ := staticGuardUnit_accesses
  exact ⟨unit, hunit, access, haccess, hrequired ▸ LockExpr.not_wellFormed_typeLiteral _⟩

end CodeUnit
end LockDiscipline
