import LockDiscipline.Proofs.Lock.Selection
/-!
# What binding keeps

Guard texts and source expressions are bound by different recursions, but all that they put together are
enclosing instances, class objects, variables and selected members. So a property of locks that holds of
these, and of what is selected from a lock with the property, holds of every lock that either way of
binding yields.
-/

namespace LockDiscipline

namespace Viewpoint

/-- What an expression is bound to is a type, or a lock with a property. -/
def BoundHas (property : LockExpr → Prop) (bound : Bound) : Prop :=
  ∀ lock, bound = .lock lock → property lock

theorem BoundHas.lock {property : LockExpr → Prop} {lock : LockExpr} (h : property lock) :
    BoundHas property (.lock lock) := fun _ heq => Bound.lock.inj heq ▸ h

theorem BoundHas.type (property : LockExpr → Prop) (id : SymbolId) :
    BoundHas property (.type id) := nofun

/-- A property of locks that every step of binding keeps. -/
structure Keeps (view : Viewpoint) (property : LockExpr → Prop) : Prop where
  enclosing : ∀ {type lock}, view.enclosingInstance type = .ok lock → property lock
  classLiteral : ∀ type, property (.classLiteral type)
  localVar : ∀ var, property (.localVar var)
  selected : ∀ {base id member owner lock}, (∀ inner, base = some inner → BoundHas property inner) →
    view.program.symbol? id = some member → member.owner? = some owner →
    view.selectBase base member owner = .ok lock → property (.select lock (.ofSymbol member))

namespace Keeps

variable {view : Viewpoint} {property : LockExpr → Prop} (h : view.Keeps property)
include h

theorem this : property .this :=
  h.enclosing (enclosingInstance_eq_ok.mpr (.inl ⟨rfl, rfl⟩))

theorem finish {bound : Bound} {lock : LockExpr} (hbound : BoundHas property bound)
    (hlock : view.finish bound = .ok lock) : property lock := by
  cases bound with
  | lock lock' =>
      obtain rfl := Except.ok.inj hlock
      exact hbound _ rfl
  | type id =>
      obtain ⟨shown, -, hlock⟩ := bind_eq_ok.mp hlock
      obtain rfl := Except.ok.inj hlock
      exact h.classLiteral shown

theorem select {base : Option Bound} {id : SymbolId} {bound : Bound}
    (hbase : ∀ inner, base = some inner → BoundHas property inner)
    (hbound : view.select base id = .ok bound) : BoundHas property bound := by
  obtain ⟨member, hmember, ⟨-, rfl⟩ | ⟨-, owner, lock, howner, hlock, rfl⟩⟩ := select_eq_ok.mp hbound
  · exact .type property id
  · exact .lock (h.selected hbase hmember howner hlock)

theorem selectUnqualified {id : SymbolId} {bound : Bound}
    (hbound : view.select none id = .ok bound) : BoundHas property bound := by
  refine h.select (fun inner hinner => ?_) hbound
  cases hinner

/-! ### Guard texts -/

theorem selectMember {base : Bound} {id : SymbolId} {bound : Bound} (hbase : BoundHas property base)
    (hbound : (view.select (some base) id).toOption = some bound) : BoundHas property bound := by
  refine h.select (fun inner hinner => ?_) (toOption_eq_some.mp hbound)
  exact Option.some.inj hinner ▸ hbase

theorem selectName {id : SymbolId} {bound : Bound}
    (hbound : (view.select none id).toOption = some bound) : BoundHas property bound :=
  h.selectUnqualified (toOption_eq_some.mp hbound)

theorem bindGuardExpr? : ∀ (expr : Expr) {bound : Bound},
    view.bindGuardExpr? expr = some bound → BoundHas property bound
  | ⟨_, .paren inner, _⟩, bound, hbound => by
    rw [Viewpoint.bindGuardExpr?] at hbound
    exact bindGuardExpr? inner hbound
  | ⟨_, .this, _⟩, bound, hbound | ⟨_, .super, _⟩, bound, hbound => by
    rw [Viewpoint.bindGuardExpr?] at hbound
    obtain rfl := Option.some.inj hbound
    exact .lock h.this
  | ⟨_, .qualifiedThis type, _⟩, bound, hbound => by
    rw [Viewpoint.bindGuardExpr?] at hbound
    obtain ⟨id, -, hbound⟩ := Option.bind_eq_some_iff.mp hbound
    obtain ⟨lock, hlock, rfl⟩ := Option.map_eq_some_iff.mp hbound
    exact .lock (h.enclosing (toOption_eq_some.mp hlock))
  | ⟨_, .classLiteral type, _⟩, bound, hbound => by
    rw [Viewpoint.bindGuardExpr?] at hbound
    obtain ⟨id, -, hbound⟩ := Option.bind_eq_some_iff.mp hbound
    obtain ⟨shown, -, rfl⟩ := Option.map_eq_some_iff.mp hbound
    exact .lock (h.classLiteral shown)
  | ⟨_, .name name, _⟩, bound, hbound => by
    rw [Viewpoint.bindGuardExpr?, bindName?] at hbound
    cases hfield : view.scopedField? name with
    | some field =>
        rw [hfield] at hbound
        exact h.selectName hbound
    | none =>
        rw [hfield] at hbound
        obtain ⟨id, -, rfl⟩ := Option.map_eq_some_iff.mp hbound
        exact .type property id
  | ⟨_, .select object name, _⟩, bound, hbound => by
    rw [Viewpoint.bindGuardExpr?] at hbound
    cases hbase : view.bindGuardExpr? object with
    | some base =>
        rw [hbase] at hbound
        obtain ⟨owner, -, hbound⟩ := Option.bind_eq_some_iff.mp hbound
        obtain ⟨member, -, hbound⟩ := Option.bind_eq_some_iff.mp hbound
        exact h.selectMember (bindGuardExpr? object hbase) hbound
    | none =>
        rw [hbase] at hbound
        obtain ⟨name, -, hbound⟩ := Option.bind_eq_some_iff.mp hbound
        obtain ⟨id, -, hbound⟩ := Option.bind_eq_some_iff.mp hbound
        obtain rfl := Option.some.inj hbound
        exact .type property id
  | ⟨_, .call (some receiver) method [], _⟩, bound, hbound => by
    rw [Viewpoint.bindGuardExpr?] at hbound
    obtain ⟨base, hbase, hbound⟩ := Option.bind_eq_some_iff.mp hbound
    obtain ⟨owner, -, hbound⟩ := Option.bind_eq_some_iff.mp hbound
    obtain ⟨member, -, hbound⟩ := Option.bind_eq_some_iff.mp hbound
    exact h.selectMember (bindGuardExpr? receiver hbase) hbound
  | ⟨_, .call none method [], _⟩, bound, hbound => by
    rw [Viewpoint.bindGuardExpr?] at hbound
    obtain ⟨member, -, hbound⟩ := Option.bind_eq_some_iff.mp hbound
    exact h.selectName hbound
  | ⟨_, .call _ _ (_ :: _), _⟩, bound, hbound | ⟨_, .new .., _⟩, bound, hbound
  | ⟨_, .newArray .., _⟩, bound, hbound | ⟨_, .arrayInit _, _⟩, bound, hbound
  | ⟨_, .index .., _⟩, bound, hbound | ⟨_, .unary .., _⟩, bound, hbound
  | ⟨_, .binary .., _⟩, bound, hbound | ⟨_, .assign .., _⟩, bound, hbound
  | ⟨_, .conditional .., _⟩, bound, hbound | ⟨_, .instanceOf .., _⟩, bound, hbound
  | ⟨_, .cast .., _⟩, bound, hbound | ⟨_, .lambda .., _⟩, bound, hbound
  | ⟨_, .methodRef .., _⟩, bound, hbound | ⟨_, .int _, _⟩, bound, hbound
  | ⟨_, .float _, _⟩, bound, hbound | ⟨_, .string _, _⟩, bound, hbound
  | ⟨_, .char _, _⟩, bound, hbound | ⟨_, .bool _, _⟩, bound, hbound
  | ⟨_, .null, _⟩, bound, hbound => by
    rw [Viewpoint.bindGuardExpr?] at hbound
    · cases hbound
    all_goals nofun

/-- The lock that a guard text is bound to has the property. -/
theorem bindGuard {guard : String} {lock : LockExpr} (hlock : view.bindGuard guard = .ok lock) :
    property lock := by
  rw [Viewpoint.bindGuard] at hlock
  cases hexpr : Expr.ofSource guard.toList with
  | error error => rw [hexpr] at hlock; cases hlock
  | ok expr =>
      rw [hexpr] at hlock
      cases hbound : view.bindGuardExpr? expr with
      | none => simp only [hbound] at hlock; cases hlock
      | some bound =>
          simp only [hbound] at hlock
          exact h.finish (h.bindGuardExpr? expr hbound) hlock

/-! ### Source expressions -/

theorem bindSourceName {expr : Expr} {bound : Bound}
    (hbound : view.bindSourceName expr = .ok bound) : BoundHas property bound := by
  obtain ⟨id, -, hbound⟩ := bind_eq_ok.mp hbound
  obtain ⟨symbol, -, hbound⟩ := bind_eq_ok.mp hbound
  split at hbound
  case isTrue =>
    obtain rfl := Except.ok.inj hbound
    exact .lock (h.localVar _)
  case isFalse => exact h.selectUnqualified hbound

end Keeps

variable {view : Viewpoint} {property : LockExpr → Prop}

mutual

theorem Keeps.bindSource (h : view.Keeps property) (allowArgs : Bool) : ∀ (expr : Expr) {bound : Bound},
    view.bindSource allowArgs expr = .ok bound → BoundHas property bound
  | ⟨_, .paren inner, _⟩, bound, hbound => by
    rw [Viewpoint.bindSource] at hbound
    exact Keeps.bindSource h allowArgs inner hbound
  | ⟨_, .this, _⟩, bound, hbound | ⟨_, .super, _⟩, bound, hbound => by
    rw [Viewpoint.bindSource] at hbound
    obtain rfl := Except.ok.inj hbound
    exact .lock h.this
  | ⟨_, .qualifiedThis type, _⟩, bound, hbound => by
    rw [Viewpoint.bindSource] at hbound
    obtain ⟨id, -, hbound⟩ := bind_eq_ok.mp hbound
    obtain ⟨lock, hlock, hbound⟩ := bind_eq_ok.mp hbound
    obtain rfl := Except.ok.inj hbound
    exact .lock (h.enclosing hlock)
  | ⟨_, .classLiteral type, _⟩, bound, hbound => by
    rw [Viewpoint.bindSource] at hbound
    obtain ⟨id, -, hbound⟩ := bind_eq_ok.mp hbound
    obtain ⟨shown, -, hbound⟩ := bind_eq_ok.mp hbound
    obtain rfl := Except.ok.inj hbound
    exact .lock (h.classLiteral shown)
  | ⟨_, .name name, _⟩, bound, hbound => by
    rw [Viewpoint.bindSource] at hbound
    exact h.bindSourceName hbound
  | ⟨_, .select object name, _⟩, bound, hbound => by
    rw [Viewpoint.bindSource] at hbound
    obtain ⟨id, -, hbound⟩ := bind_eq_ok.mp hbound
    obtain ⟨symbol, -, hbound⟩ := bind_eq_ok.mp hbound
    split at hbound
    case isTrue => exact h.selectUnqualified hbound
    case isFalse =>
      obtain ⟨base, hbase, hbound⟩ := bind_eq_ok.mp hbound
      refine h.select (fun inner hinner => ?_) hbound
      exact Option.some.inj hinner ▸ Keeps.bindSource h false object hbase
  | ⟨_, .call receiver method args, _⟩, bound, hbound => by
    rw [Viewpoint.bindSource] at hbound
    split at hbound
    case isTrue => cases hbound
    case isFalse =>
      obtain ⟨id, -, hbound⟩ := bind_eq_ok.mp hbound
      obtain ⟨symbol, -, hbound⟩ := bind_eq_ok.mp hbound
      split at hbound
      case isTrue => exact h.selectUnqualified hbound
      case isFalse =>
        obtain ⟨base, hbase, hbound⟩ := bind_eq_ok.mp hbound
        exact h.select (Keeps.bindReceiver h receiver hbase) hbound
  | ⟨_, .new .., _⟩, bound, hbound | ⟨_, .newArray .., _⟩, bound, hbound
  | ⟨_, .arrayInit _, _⟩, bound, hbound | ⟨_, .index .., _⟩, bound, hbound
  | ⟨_, .unary .., _⟩, bound, hbound | ⟨_, .binary .., _⟩, bound, hbound
  | ⟨_, .assign .., _⟩, bound, hbound | ⟨_, .conditional .., _⟩, bound, hbound
  | ⟨_, .instanceOf .., _⟩, bound, hbound | ⟨_, .cast .., _⟩, bound, hbound
  | ⟨_, .lambda .., _⟩, bound, hbound | ⟨_, .methodRef .., _⟩, bound, hbound
  | ⟨_, .int _, _⟩, bound, hbound | ⟨_, .float _, _⟩, bound, hbound
  | ⟨_, .string _, _⟩, bound, hbound | ⟨_, .char _, _⟩, bound, hbound
  | ⟨_, .bool _, _⟩, bound, hbound | ⟨_, .null, _⟩, bound, hbound => by
    rw [Viewpoint.bindSource] at hbound
    · cases hbound
    all_goals nofun

theorem Keeps.bindReceiver (h : view.Keeps property) : ∀ (receiver : Option Expr) {base : Option Bound},
    view.bindReceiver receiver = .ok base →
      ∀ inner, base = some inner → BoundHas property inner
  | none, base, hbase, inner, hinner => by
    rw [Viewpoint.bindReceiver] at hbase
    obtain rfl := Except.ok.inj hbase
    cases hinner
  | some receiver, base, hbase, inner, hinner => by
    rw [Viewpoint.bindReceiver] at hbase
    obtain ⟨bound, hbound, hbase⟩ := bind_eq_ok.mp hbase
    obtain rfl := Except.ok.inj hbase
    exact Option.some.inj hinner ▸ Keeps.bindSource h false receiver hbound

end

/-- The lock that an access is bound to has the property. -/
theorem Keeps.bindAccess (h : view.Keeps property) {access : Expr} {lock : LockExpr}
    (hlock : view.bindAccess access = .ok lock) : property lock := by
  obtain ⟨bound, hbound, hlock⟩ := bind_eq_ok.mp hlock
  exact h.finish (h.bindSource true access hbound) hlock

end Viewpoint
end LockDiscipline
