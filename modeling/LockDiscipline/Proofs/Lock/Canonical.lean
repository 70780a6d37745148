import LockDiscipline.Proofs.Grammar.DeclarationNumbers
import LockDiscipline.Proofs.Lock.Formation
import LockDiscipline.Proofs.Program.References
/-!
# Locks in canonical form

Locks are compared by their structure, so both ways of binding have to give one lock in one form. In this
form a type stands before static members only and they before nothing else, a class object has no members,
and an enclosing instance is one of a class around the code.

What is selected from what is kept by every step of binding. That a class object has no members is not:
it depends on the names that a member is looked up by. A guard looks for a member in the static class of
what stands before it, which a class object does not have. A source expression relies on what the resolver
recorded, and the resolver knows no class of a class literal, so that it records nothing for a member of one.
-/

namespace LockDiscipline

/-! ### The canonical form -/

/-- The form in which binding from the code of a class gives locks. -/
inductive Viewpoint.Canonical (view : Viewpoint) : LockExpr → Prop where
  | this : Canonical view .this
  | outer {type : LockSymbol} (hencloses : view.program.Encloses type.id view.self) :
      Canonical view (.outer type)
  | classLiteral (type : LockSymbol) : Canonical view (.classLiteral type)
  | localVar (var : LockSymbol) : Canonical view (.localVar var)
  | static {type member : LockSymbol} {symbol : NamedSymbol}
      (hsymbol : view.program.symbol? member.id = some symbol)
      (hmember : symbol.isField ∨ symbol.isMethod) (hstatic : symbol.isStatic)
      (howner : symbol.owner? = some type.id) : Canonical view (.select (.typeLiteral type) member)
  | instance {base : LockExpr} {member : LockSymbol} {symbol : NamedSymbol}
      (hbase : Canonical view base) (hclass : ∀ type, base ≠ .classLiteral type)
      (hsymbol : view.program.symbol? member.id = some symbol)
      (hmember : symbol.isField ∨ symbol.isMethod) (hinstance : symbol.isStatic = false) :
      Canonical view (.select base member)

/-- The first part of a construct stands one step behind it. -/
theorem Within.head {outer node child : TreeNode} {path : List PathStep} {role : PartRole}
    {rest : List Part} (h : Within outer path node) (hparts : node.parts = ⟨role, child⟩ :: rest) :
    Within outer (path ++ [⟨0, role⟩]) child := by
  refine h.trans (.part ?_ (.here _))
  rw [hparts]
  rfl

namespace LockExpr

/-- What the members of a lock are selected from in the end: an instance, a type, or a variable where
there are variables. -/
def IsOrigin (locals : Bool) : LockExpr → Prop
  | .this | .outer _ | .typeLiteral _ => True
  | .localVar _ => locals
  | .classLiteral _ | .select _ _ => False

/-- A lock is a class object alone, or its members are selected from an origin. -/
def HasOrigin (locals : Bool) (lock : LockExpr) : Prop :=
  lock.root.IsOrigin locals ∨ ∃ type, lock = .classLiteral type

/-- All members of a lock are fields and methods. -/
def SelectsMembers (program : Program) : LockExpr → Prop
  | .select base member =>
      (∃ symbol, program.symbol? member.id = some symbol ∧ (symbol.isField ∨ symbol.isMethod)) ∧
        base.SelectsMembers program
  | _ => True

variable {locals : Bool}

theorem HasOrigin.of_false {lock : LockExpr} (h : lock.HasOrigin false) : lock.HasOrigin locals := by
  refine h.imp_left fun horigin => ?_
  rw [IsOrigin.eq_def] at horigin ⊢
  split at horigin <;> simp_all

theorem HasOrigin.root_ne_localVar {lock : LockExpr} (h : lock.HasOrigin false) (var : LockSymbol) :
    lock.root ≠ .localVar var := by
  intro hroot
  rcases h with h | ⟨type, rfl⟩
  · rw [hroot] at h
    cases h
  · cases hroot

/-- A member is not selected from a class object, and what it is selected from has an origin itself. -/
theorem HasOrigin.of_select {base : LockExpr} {member : LockSymbol}
    (h : (LockExpr.select base member).HasOrigin locals) :
    base.HasOrigin locals ∧ ∀ type, base ≠ .classLiteral type := by
  rcases h with h | ⟨type, h⟩
  · refine ⟨.inl h, ?_⟩
    rintro type rfl
    exact h
  · cases h

end LockExpr

namespace Viewpoint

open LockExpr (Formed HasOrigin SelectsMembers)

variable {view : Viewpoint} {locals : Bool}

/-- The conditions on the members of a lock and on its root add up to the canonical form. -/
theorem canonical_of_formed {lock : LockExpr} (hformed : lock.Formed view.program)
    (hsees : view.SeesRoot lock) (hmembers : lock.SelectsMembers view.program)
    (horigin : lock.HasOrigin true) : view.Canonical lock := by
  induction hformed with
  | this => exact .this
  | outer type => exact .outer (hsees type rfl)
  | classLiteral type => exact .classLiteral type
  | localVar var => exact .localVar var
  | @static type member symbol hsymbol hstatic howner =>
      obtain ⟨⟨symbol', hsymbol', hmember⟩, -⟩ := hmembers
      obtain rfl := Option.some.inj (hsymbol.symm.trans hsymbol')
      exact .static hsymbol hmember hstatic howner
  | @«instance» base member symbol hbase hsymbol hinstance ih =>
      obtain ⟨⟨symbol', hsymbol', hmember⟩, hrest⟩ := hmembers
      obtain rfl := Option.some.inj (hsymbol.symm.trans hsymbol')
      obtain ⟨hbaseOrigin, hclass⟩ := horigin.of_select
      exact .instance (ih (seesRoot_select.mp hsees) hrest hbaseOrigin) hclass hsymbol hmember
        hinstance

/-! ### The steps of binding -/

theorem isMember_of_owner? {symbol : NamedSymbol} {owner : SymbolId} (h : symbol.owner? = some owner) :
    symbol.isField ∨ symbol.isMethod := by
  rw [NamedSymbol.owner?] at h
  rw [NamedSymbol.isField, NamedSymbol.isMethod]
  cases hkind : symbol.kind <;> rw [hkind] at h <;> simp_all

/-- Binding selects fields and methods only. -/
theorem keeps_selectsMembers (hprogram : view.program.WellFormed) :
    view.Keeps (SelectsMembers view.program) := by
  have hinstance {type : SymbolId} {lock : LockExpr} (h : view.enclosingInstance type = .ok lock) :
      lock.SelectsMembers view.program := by
    rcases enclosingInstance_eq_ok.mp h with ⟨-, rfl⟩ | ⟨-, -, symbol, -, rfl⟩ <;> trivial
  refine ⟨hinstance, fun _ => trivial, fun _ => trivial, fun hbase hmember howner hlock => ⟨?_, ?_⟩⟩
  · refine ⟨_, ?_, isMember_of_owner? howner⟩
    rw [LockSymbol.ofSymbol, hprogram.id_eq hmember]
    exact hmember
  · rcases selectBase_eq_ok.mp hlock with ⟨-, symbol, -, rfl⟩ | ⟨-, hwritten | ⟨-, himplied⟩⟩
    · trivial
    · exact hbase _ hwritten _ rfl
    · obtain ⟨type, -, htype⟩ := implicitReceiver_eq_ok.mp himplied
      exact hinstance htype

/-- The lock that a source expression is bound to has a property that the steps keep. -/
theorem Keeps.bindExpr {property : LockExpr → Prop} (h : view.Keeps property) {expr : Expr}
    {lock : LockExpr} (hlock : view.bindExpr expr = .ok lock) : property lock := by
  obtain ⟨bound, hbound, hlock⟩ := bind_eq_ok.mp hlock
  exact h.finish (h.bindSource false expr hbound) hlock

theorem hasOrigin_enclosingInstance {type : SymbolId} {lock : LockExpr}
    (h : view.enclosingInstance type = .ok lock) : lock.HasOrigin locals := by
  rcases enclosingInstance_eq_ok.mp h with ⟨-, rfl⟩ | ⟨-, -, symbol, -, rfl⟩ <;> exact .inl trivial

/-- What is selected has the origin of what it is selected from, unless that is a class object. -/
theorem hasOrigin_select {base : Option Bound} {id : SymbolId} {bound : Bound}
    (hbase : ∀ inner, base = some inner → BoundHas (HasOrigin locals) inner)
    (hclass : ∀ type, base ≠ some (.lock (.classLiteral type)))
    (hbound : view.select base id = .ok bound) : BoundHas (HasOrigin locals) bound := by
  obtain ⟨member, -, ⟨-, rfl⟩ | ⟨-, owner, lock, -, hlock, rfl⟩⟩ := select_eq_ok.mp hbound
  · exact .type _ id
  · refine .lock ?_
    rcases selectBase_eq_ok.mp hlock with ⟨-, symbol, -, rfl⟩ | ⟨-, rfl | ⟨-, himplied⟩⟩
    · exact .inl trivial
    · rcases hbase _ rfl lock rfl with horigin | ⟨type, rfl⟩
      · exact .inl horigin
      · exact absurd rfl (hclass type)
    · obtain ⟨type, -, htype⟩ := implicitReceiver_eq_ok.mp himplied
      rcases enclosingInstance_eq_ok.mp htype with ⟨-, rfl⟩ | ⟨-, -, symbol, -, rfl⟩ <;>
        exact .inl trivial

/-- A bare name or call has an origin: the type of a static member or an instance around. -/
theorem hasOrigin_select_none {id : SymbolId} {bound : Bound}
    (hbound : view.select none id = .ok bound) : BoundHas (HasOrigin locals) bound := by
  refine hasOrigin_select ?_ ?_ hbound <;> exact nofun

theorem hasOrigin_finish {bound : Bound} {lock : LockExpr} (hbound : BoundHas (HasOrigin locals) bound)
    (hlock : view.finish bound = .ok lock) : lock.HasOrigin locals := by
  cases bound with
  | lock lock' =>
      obtain rfl := Except.ok.inj hlock
      exact hbound _ rfl
  | type id =>
      obtain ⟨shown, -, hlock⟩ := bind_eq_ok.mp hlock
      obtain rfl := Except.ok.inj hlock
      exact .inr ⟨shown, rfl⟩

/-! ### Guard texts -/

/-- In a guard a member is looked up in a class, which a class object does not have. -/
theorem hasOrigin_selectFrom {base : Bound} {owner id : SymbolId} {bound : Bound}
    (hbase : BoundHas (HasOrigin locals) base) (howner : view.memberClass? base = some owner)
    (hbound : (view.select (some base) id).toOption = some bound) :
    BoundHas (HasOrigin locals) bound := by
  refine hasOrigin_select ?_ ?_ (toOption_eq_some.mp hbound)
  · intro inner hinner
    exact Option.some.inj hinner ▸ hbase
  · intro type htype
    obtain rfl := Option.some.inj htype
    cases howner

theorem hasOrigin_bindGuardExpr? (expr : Expr) {bound : Bound}
    (hbound : view.bindGuardExpr? expr = some bound) : BoundHas (HasOrigin false) bound := by
  fun_induction bindGuardExpr? view expr generalizing bound with
  | case1 _ inner _ ih => exact ih hbound
  | case2 | case3 =>
      obtain rfl := Option.some.inj hbound
      exact .lock (.inl trivial)
  | case4 _ type _ =>
      obtain ⟨id, -, hbound⟩ := Option.bind_eq_some_iff.mp hbound
      obtain ⟨lock, hlock, rfl⟩ := Option.map_eq_some_iff.mp hbound
      exact .lock (hasOrigin_enclosingInstance (toOption_eq_some.mp hlock))
  | case5 _ type _ =>
      obtain ⟨id, -, hbound⟩ := Option.bind_eq_some_iff.mp hbound
      obtain ⟨shown, -, rfl⟩ := Option.map_eq_some_iff.mp hbound
      exact .lock (.inr ⟨shown, rfl⟩)
  | case6 _ name _ =>
      rw [bindName?] at hbound
      split at hbound
      · exact hasOrigin_select_none (toOption_eq_some.mp hbound)
      · obtain ⟨id, -, rfl⟩ := Option.map_eq_some_iff.mp hbound
        exact .type _ id
  | case7 _ object name _ base hbase ih =>
      obtain ⟨owner, howner, hbound⟩ := Option.bind_eq_some_iff.mp hbound
      obtain ⟨member, -, hbound⟩ := Option.bind_eq_some_iff.mp hbound
      exact hasOrigin_selectFrom (ih hbase) howner hbound
  | case8 _ object name _ _ _ =>
      obtain ⟨dotted, -, hbound⟩ := Option.bind_eq_some_iff.mp hbound
      obtain ⟨id, -, hbound⟩ := Option.bind_eq_some_iff.mp hbound
      obtain rfl := Option.some.inj hbound
      exact .type _ id
  | case9 _ receiver method _ ih =>
      obtain ⟨base, hbase, hbound⟩ := Option.bind_eq_some_iff.mp hbound
      obtain ⟨owner, howner, hbound⟩ := Option.bind_eq_some_iff.mp hbound
      obtain ⟨member, -, hbound⟩ := Option.bind_eq_some_iff.mp hbound
      exact hasOrigin_selectFrom (ih hbase) howner hbound
  | case10 _ method _ =>
      obtain ⟨member, -, hbound⟩ := Option.bind_eq_some_iff.mp hbound
      exact hasOrigin_select_none (toOption_eq_some.mp hbound)
  | case11 => cases hbound

/-- The lock that a guard text is bound to is a class object, or its members are selected from an instance
or a type. -/
theorem hasOrigin_bindGuard {guard : String} {lock : LockExpr}
    (hlock : view.bindGuard guard = .ok lock) : lock.HasOrigin false := by
  rw [bindGuard] at hlock
  split at hlock
  · cases hlock
  · split at hlock
    · cases hlock
    · next bound hbound => exact hasOrigin_finish (hasOrigin_bindGuardExpr? _ hbound) hlock

/-! ### Source expressions -/

/-- How an expression of the source comes to be bound: through the parentheses around it, by what kind of
expression it is, or by selecting the member that is recorded for it. -/
inductive Binds (view : Viewpoint) : Expr → Bound → Prop where
  | paren {id : NodeId} {inner : Expr} {span : Span} {bound : Bound} (hinner : Binds view inner bound) :
      Binds view ⟨id, .paren inner, span⟩ bound
  | this {id : NodeId} {kind : ExprKind} {span : Span} (hkind : kind = .this ∨ kind = .super) :
      Binds view ⟨id, kind, span⟩ (.lock .this)
  | enclosing {id : NodeId} {name : String} {span : Span} {type : SymbolId} {lock : LockExpr}
      (hlock : view.enclosingInstance type = .ok lock) :
      Binds view ⟨id, .qualifiedThis name, span⟩ (.lock lock)
  | classLiteral {id : NodeId} {name : String} {span : Span} (type : LockSymbol) :
      Binds view ⟨id, .classLiteral name, span⟩ (.lock (.classLiteral type))
  | localVar {id : NodeId} {name : String} {span : Span} (var : LockSymbol) :
      Binds view ⟨id, .name name, span⟩ (.lock (.localVar var))
  | unqualified {expr : Expr} {member : SymbolId} {bound : Bound}
      (hbound : view.select none member = .ok bound) : Binds view expr bound
  | field {id : NodeId} {object : Expr} {name : String} {span : Span} {member : SymbolId}
      {symbol : NamedSymbol} {base bound : Bound} (huse : view.program.use? id = some member)
      (hsymbol : view.program.symbol? member = some symbol) (hclass : symbol.isClass = false)
      (hbase : Binds view object base) (hbound : view.select (some base) member = .ok bound) :
      Binds view ⟨id, .select object name, span⟩ bound
  | method {id : NodeId} {receiver : Expr} {method : String} {args : List Expr} {span : Span}
      {member : SymbolId} {base bound : Bound} (huse : view.program.use? id = some member)
      (hbase : Binds view receiver base) (hbound : view.select (some base) member = .ok bound) :
      Binds view ⟨id, .call (some receiver) method args, span⟩ bound

/-- The ways to be bound are all that there are. -/
theorem binds_of_bindSource (allowArgs : Bool) (expr : Expr) :
    ∀ bound, view.bindSource allowArgs expr = .ok bound → view.Binds expr bound := by
  apply bindSource.induct view
    (fun allowArgs expr => ∀ bound, view.bindSource allowArgs expr = .ok bound → view.Binds expr bound)
    (fun receiver? => ∀ base?, view.bindReceiver receiver? = .ok base? →
      ∀ base, base? = some base → ∃ receiver, receiver? = some receiver ∧ view.Binds receiver base)
  case case1 =>
    intro _ id inner span ih bound h
    rw [bindSource] at h
    exact .paren (ih bound h)
  case case2 =>
    intro _ id span bound h
    rw [bindSource] at h
    obtain rfl := Except.ok.inj h
    exact .this (.inl rfl)
  case case3 =>
    intro _ id span bound h
    rw [bindSource] at h
    obtain rfl := Except.ok.inj h
    exact .this (.inr rfl)
  case case4 =>
    intro _ id name span bound h
    rw [bindSource] at h
    obtain ⟨type, -, h⟩ := bind_eq_ok.mp h
    obtain ⟨lock, hlock, h⟩ := bind_eq_ok.mp h
    obtain rfl := Except.ok.inj h
    exact .enclosing hlock
  case case5 =>
    intro _ id name span bound h
    rw [bindSource] at h
    obtain ⟨type, -, h⟩ := bind_eq_ok.mp h
    obtain ⟨shown, -, h⟩ := bind_eq_ok.mp h
    obtain rfl := Except.ok.inj h
    exact .classLiteral shown
  case case6 =>
    intro _ id name span bound h
    rw [bindSource] at h
    obtain ⟨member, -, h⟩ := bind_eq_ok.mp h
    obtain ⟨symbol, -, h⟩ := bind_eq_ok.mp h
    split at h
    · obtain rfl := Except.ok.inj h
      exact .localVar _
    · exact .unqualified h
  case case7 =>
    intro _ id object name span ih bound h
    rw [bindSource] at h
    obtain ⟨member, huse, h⟩ := bind_eq_ok.mp h
    obtain ⟨symbol, hsymbol, h⟩ := bind_eq_ok.mp h
    split at h
    · exact .unqualified h
    · next hkind =>
      obtain ⟨base, hbase, h⟩ := bind_eq_ok.mp h
      rw [Bool.or_eq_true, not_or, Bool.not_eq_true] at hkind
      exact .field (resolved_eq_ok.mp huse) (symbol_eq_ok.mp hsymbol) hkind.1 (ih base hbase) h
  case case8 =>
    intro _ id receiver method args span hargs _ bound h
    rw [bindSource, if_pos hargs] at h
    cases h
  case case9 =>
    intro _ id receiver method args span hargs ih bound h
    rw [bindSource, if_neg hargs] at h
    obtain ⟨member, huse, h⟩ := bind_eq_ok.mp h
    obtain ⟨symbol, -, h⟩ := bind_eq_ok.mp h
    split at h
    · exact .unqualified h
    · obtain ⟨base?, hbase, hselect⟩ := bind_eq_ok.mp h
      cases base? with
      | none => exact .unqualified hselect
      | some base =>
          obtain ⟨inner, rfl, hbinds⟩ := ih _ hbase base rfl
          exact .method (resolved_eq_ok.mp huse) hbinds hselect
  case case10 =>
    intro _ expr _ _ _ _ _ _ _ _ bound h
    rw [bindSource] at h
    · cases h
    all_goals assumption
  case case11 =>
    intro base? h base hbase
    rw [bindReceiver] at h
    obtain rfl := Except.ok.inj h
    cases hbase
  case case12 =>
    intro receiver ih base? h base hbase
    rw [bindReceiver] at h
    obtain ⟨bound, hbound, h⟩ := bind_eq_ok.mp h
    obtain rfl := Except.ok.inj h
    obtain rfl := Option.some.inj hbase
    exact ⟨receiver, rfl, ih _ hbound⟩

theorem select_ne_classLiteral {base : Option Bound} {id : SymbolId} {type : LockSymbol} :
    view.select base id ≠ .ok (.lock (.classLiteral type)) := by
  intro h
  obtain ⟨member, -, ⟨-, h⟩ | ⟨-, owner, lock, -, -, h⟩⟩ := select_eq_ok.mp h <;> cases h

/-- Only a class literal is bound to a class object, and the resolver knows no class of it. -/
theorem Binds.denotes_unknown {expr : Expr} {type : LockSymbol}
    (h : view.Binds expr (.lock (.classLiteral type))) (draft : TrackedDraft) :
    ((Resolving.resolveExpr expr).run draft).1 = .unknown := by
  generalize hbound : Bound.lock (.classLiteral type) = bound at h
  induction h generalizing draft with
  | paren _ ih =>
      rw [Resolving.run_resolveExpr, Resolving.resolveExprKind]
      exact ih _ hbound
  | this hkind => cases hbound
  | enclosing hlock =>
      obtain rfl := Bound.lock.inj hbound
      rcases enclosingInstance_eq_ok.mp hlock with ⟨-, h⟩ | ⟨-, -, symbol, -, h⟩ <;> cases h
  | classLiteral =>
      rw [Resolving.run_resolveExpr, Resolving.resolveExprKind]
      rfl
  | localVar => cases hbound
  | unqualified h => exact absurd (hbound ▸ h) select_ne_classLiteral
  | field _ _ _ _ h => exact absurd (hbound ▸ h) select_ne_classLiteral
  | method _ _ h => exact absurd (hbound ▸ h) select_ne_classLiteral

section InUnit

variable {unit : CompilationUnit} (hnodup : unit.numbers.Nodup) {decl : ClassDecl}
  (hdecl : decl ∈ unit.types)
include hnodup hdecl

/-- The resolver comes to every selection and call for which something is recorded. -/
theorem exists_comesTo_of_use? {id member : NodeId} {kind : ExprKind} {span : Span} {path : List PathStep}
    (hwithin : Within (.classDecl decl) path (.expr ⟨id, kind, span⟩))
    (hkind : ∀ name, kind ≠ .name name) (huse : (Program.ofUnit unit).use? id = some member) :
    ∃ draft, Resolving.ComesTo unit.Nests (.ofUnit unit)
      (classesAlong (Program.ofUnit unit).use? path) ⟨id, kind, span⟩ draft := by
  refine Program.exists_comesTo hnodup hdecl hwithin
    (Program.isResolved_of_use? hnodup hdecl hwithin huse) ?_
  rintro ⟨-, name, hname⟩
  exact hkind name hname

/-- No member is recorded for a selection from a class object, since the resolver has no class to look it
up in. -/
theorem not_binds_object {view : Viewpoint} {id : NodeId} {object : Expr} {name : String} {span : Span}
    {path : List PathStep}
    (hwithin : Within (.classDecl decl) path (.expr ⟨id, .select object name, span⟩)) {member : SymbolId}
    {symbol : NamedSymbol} (huse : (Program.ofUnit unit).use? id = some member)
    (hsymbol : (Program.ofUnit unit).symbol? member = some symbol) (hclass : symbol.isClass = false)
    (type : LockSymbol) : ¬ view.Binds object (.lock (.classLiteral type)) := by
  intro hobject
  obtain ⟨draft, hcomes⟩ := exists_comesTo_of_use? hnodup hdecl hwithin nofun huse
  rcases hcomes.select_cases huse with ⟨info, hinfo⟩ | ⟨owner, howner, -⟩
  · rw [Program.classInfo?, hsymbol, Option.bind_some] at hinfo
    rw [NamedSymbol.isClass, hinfo] at hclass
    cases hclass
  · rw [hobject.denotes_unknown] at howner
    cases howner

/-- No method is recorded for a call on a class object either. -/
theorem not_binds_receiver {view : Viewpoint} {id : NodeId} {receiver : Expr} {method : String}
    {args : List Expr} {span : Span} {path : List PathStep}
    (hwithin : Within (.classDecl decl) path (.expr ⟨id, .call (some receiver) method args, span⟩))
    {member : SymbolId} (huse : (Program.ofUnit unit).use? id = some member) (type : LockSymbol) :
    ¬ view.Binds receiver (.lock (.classLiteral type)) := by
  intro hreceiver
  obtain ⟨draft, hcomes⟩ := exists_comesTo_of_use? hnodup hdecl hwithin nofun huse
  obtain ⟨owner, howner, -⟩ := hcomes.callOn_found huse
  rw [hreceiver.denotes_unknown] at howner
  cases howner

/-- What an expression of the unit is bound to is a type or a class object, or its members are selected
from an instance, a type or a variable. -/
theorem Binds.hasOrigin {self : SymbolId} {expr : Expr} {path : List PathStep}
    (hwithin : Within (.classDecl decl) path (.expr expr)) {bound : Bound}
    (h : Binds ⟨.ofUnit unit, self⟩ expr bound) : BoundHas (HasOrigin true) bound := by
  induction h generalizing path with
  | paren _ ih => exact ih (hwithin.head rfl)
  | this => exact .lock (.inl trivial)
  | enclosing hlock => exact .lock (hasOrigin_enclosingInstance hlock)
  | classLiteral type => exact .lock (.inr ⟨type, rfl⟩)
  | localVar => exact .lock (.inl rfl)
  | unqualified hbound => exact hasOrigin_select_none hbound
  | field huse hsymbol hclass hbase hbound ih =>
      have hobject := ih (hwithin.head rfl)
      refine hasOrigin_select ?_ ?_ hbound
      · intro inner hinner
        exact Option.some.inj hinner ▸ hobject
      · intro type htype
        exact not_binds_object hnodup hdecl hwithin huse hsymbol hclass type
          (Option.some.inj htype ▸ hbase)
  | method huse hbase hbound ih =>
      have hreceiver := ih (hwithin.head rfl)
      refine hasOrigin_select ?_ ?_ hbound
      · intro inner hinner
        exact Option.some.inj hinner ▸ hreceiver
      · intro type htype
        exact not_binds_receiver hnodup hdecl hwithin huse type (Option.some.inj htype ▸ hbase)

theorem hasOrigin_bindExpr {self : SymbolId} {expr : Expr} {path : List PathStep}
    (hwithin : Within (.classDecl decl) path (.expr expr)) {lock : LockExpr}
    (hlock : bindExpr ⟨.ofUnit unit, self⟩ expr = .ok lock) : lock.HasOrigin true := by
  obtain ⟨bound, hbound, hlock⟩ := bind_eq_ok.mp hlock
  exact hasOrigin_finish
    (Binds.hasOrigin hnodup hdecl hwithin (binds_of_bindSource false expr bound hbound)) hlock

end InUnit
end Viewpoint

/-- Seen from any class, guard texts and the expressions of a unit are bound to locks in canonical form,
and guards never to variables. -/
structure CompilationUnit.BindsCanonically (unit : CompilationUnit) : Prop where
  guard : ∀ self text lock, Viewpoint.bindGuard ⟨.ofUnit unit, self⟩ text = .ok lock →
    Viewpoint.Canonical ⟨.ofUnit unit, self⟩ lock ∧ ∀ var, lock.root ≠ .localVar var
  source : ∀ decl ∈ unit.types, ∀ path expr, Within (.classDecl decl) path (.expr expr) →
    ∀ self lock, Viewpoint.bindExpr ⟨.ofUnit unit, self⟩ expr = .ok lock →
      Viewpoint.Canonical ⟨.ofUnit unit, self⟩ lock

/-- In any compilation unit both ways of binding yield locks in canonical form only. -/
theorem ParsedUnit.bindsCanonically_ofTokens (tokens : List Token) :
    (ofTokens tokens).unit.BindsCanonically := by
  have hnodup := nodup_numbers_ofTokens tokens
  generalize (ofTokens tokens).unit = unit at hnodup
  have hprogram := Program.wellFormed_ofUnit unit
  constructor
  · intro self text lock hlock
    let view : Viewpoint := ⟨.ofUnit unit, self⟩
    have horigin : lock.HasOrigin false := Viewpoint.hasOrigin_bindGuard hlock
    have hformed : lock.Formed view.program := (Viewpoint.keeps_formed hprogram).bindGuard hlock
    have hsees : view.SeesRoot lock := (Viewpoint.keeps_seesRoot hprogram).bindGuard hlock
    have hmembers : lock.SelectsMembers view.program :=
      (Viewpoint.keeps_selectsMembers hprogram).bindGuard hlock
    exact ⟨Viewpoint.canonical_of_formed hformed hsees hmembers horigin.of_false,
      horigin.root_ne_localVar⟩
  · intro decl hdecl path expr hwithin self lock hlock
    let view : Viewpoint := ⟨.ofUnit unit, self⟩
    have horigin := Viewpoint.hasOrigin_bindExpr hnodup hdecl hwithin hlock
    have hformed : lock.Formed view.program := (Viewpoint.keeps_formed hprogram).bindExpr hlock
    have hsees : view.SeesRoot lock := (Viewpoint.keeps_seesRoot hprogram).bindExpr hlock
    have hmembers : lock.SelectsMembers view.program :=
      (Viewpoint.keeps_selectsMembers hprogram).bindExpr hlock
    exact Viewpoint.canonical_of_formed hformed hsees hmembers horigin

end LockDiscipline
