import LockDiscipline.Lock.Released
import LockDiscipline.Proofs.Lock.Canonical
import LockDiscipline.Proofs.Program.RespelledNames
/-!
# Locks where a local variable is respelled

A lock tells its symbols apart by their numbers and bears their names only for display. So when a variable gets
another name, every expression and every guard is bound to the lock that it was bound to, which shows the variable
under its new name, and what was no lock still is none. Only the text of an error may differ otherwise. There is one
lemma for each function of the binders, stated for the program and the respelled one.
-/

namespace LockDiscipline

theorem NamedSymbol.isMethodOfArity_eq_false (symbol : NamedSymbol) (h : symbol.isVariable) (count : Nat) :
    symbol.isMethodOfArity count = false := by
  rw [isVariable] at h
  rw [isMethodOfArity]
  split
  case h_1 hkind => simp [hkind] at h
  case h_2 => rfl

/-! ### Respelled locks -/

/-- A symbol in a lock, shown under the new name if it is the variable. -/
def LockSymbol.respell (respelling : Respelling) (symbol : LockSymbol) : LockSymbol :=
  if symbol.id = respelling.symbol then { symbol with name := respelling.new } else symbol

@[simp] theorem LockSymbol.id_respell (respelling : Respelling) (symbol : LockSymbol) :
    (symbol.respell respelling).id = symbol.id := by
  rw [respell]
  split <;> rfl

namespace LockExpr

/-- A lock that shows the variable under its new name. -/
def respell (respelling : Respelling) : LockExpr → LockExpr
  | .this => .this
  | .outer type => .outer (type.respell respelling)
  | .classLiteral type => .classLiteral (type.respell respelling)
  | .typeLiteral type => .typeLiteral (type.respell respelling)
  | .localVar var => .localVar (var.respell respelling)
  | .select base member => .select (base.respell respelling) (member.respell respelling)

variable (respelling : Respelling)

/-- A lock stays the same lock. -/
@[simp] theorem erase_respell (lock : LockExpr) : (lock.respell respelling).erase = lock.erase := by
  induction lock with
  | select base member ih => simp only [respell, erase, ih, LockSymbol.id_respell]
  | _ => simp only [respell, erase, LockSymbol.id_respell]

@[simp] theorem same_respell (first second : LockExpr) :
    (first.respell respelling).same (second.respell respelling) = first.same second := by
  rw [same, erase_respell, erase_respell, same]

@[simp] theorem isRelative_respell (lock : LockExpr) : (lock.respell respelling).isRelative = lock.isRelative := by
  simp only [isRelative]
  induction lock with
  | select base member ih => exact ih
  | _ => rfl

end LockExpr

namespace LockSet

/-- The respelled locks of a set. -/
def respell (respelling : Respelling) (locks : LockSet) : LockSet :=
  ⟨locks.toList.map (·.respell respelling)⟩

variable (respelling : Respelling) (locks : LockSet)

@[simp] theorem contains_respell (lock : LockExpr) :
    (locks.respell respelling).contains (lock.respell respelling) = locks.contains lock := by
  simp only [contains, respell, List.any_map, Function.comp_def, LockExpr.same_respell]

theorem respell_insert (lock : LockExpr) :
    (locks.insert lock).respell respelling = (locks.respell respelling).insert (lock.respell respelling) := by
  rw [insert, insert, contains_respell]
  split
  · rfl
  · simp only [respell, List.map_append, List.map_cons, List.map_nil]

theorem respell_insertAll (more : List LockExpr) : (locks.insertAll more).respell respelling =
    (locks.respell respelling).insertAll (more.map (·.respell respelling)) := by
  induction more generalizing locks with
  | nil => rfl
  | cons lock rest ih => exact (ih (locks.insert lock)).trans (by rw [respell_insert]; rfl)

theorem respell_ofList (more : List LockExpr) :
    (ofList more).respell respelling = ofList (more.map (·.respell respelling)) :=
  respell_insertAll respelling empty more

end LockSet

/-- A type or a respelled lock. -/
def Bound.respell (respelling : Respelling) : Bound → Bound
  | .lock expr => .lock (expr.respell respelling)
  | .type id => .type id

/-- What a call releases, with its locks respelled. -/
def Release.respell (respelling : Respelling) : Release → Release
  | .ignored method => .ignored method
  | .locks released => .locks (released.map (·.respell respelling))

/-! ### Results -/

/-- One result becomes another one: a value is changed, and an error becomes an error, which may tell something
else. -/
inductive NotALock.Becomes {α β : Type} (change : α → β) : Except NotALock α → Except NotALock β → Prop where
  | ok (value : α) : Becomes change (.ok value) (.ok (change value))
  | error (error error' : NotALock) : Becomes change (.error error) (.error error')

namespace NotALock.Becomes

variable {α β γ δ : Type} {change : α → β} {change' : γ → δ} {result : Except NotALock α}
  {result' : Except NotALock β}

/-- Computations in sequence give results that become each other if those of the steps do. -/
theorem bind (h : Becomes change result result') {next : α → Except NotALock γ} {next' : β → Except NotALock δ}
    (hnext : ∀ value, result = .ok value → Becomes change' (next value) (next' (change value))) :
    Becomes change' (result >>= next) (result' >>= next') := by
  cases h with
  | ok value => exact hnext value rfl
  | error error error' => exact .error error error'

theorem toOption_eq (h : Becomes change result result') : result'.toOption = result.toOption.map change := by
  cases h <;> rfl

end NotALock.Becomes

open NotALock (Becomes)

theorem LockExpr.becomes_rebase (respelling : Respelling) (receiver guard : LockExpr) :
    Becomes (·.respell respelling) (LockExpr.rebase receiver guard)
      (LockExpr.rebase (receiver.respell respelling) (guard.respell respelling)) := by
  induction guard with
  | this => exact .ok receiver
  | select base member ih =>
      rw [LockExpr.respell, LockExpr.rebase, LockExpr.rebase]
      generalize LockExpr.rebase receiver base = result,
        LockExpr.rebase (receiver.respell respelling) (base.respell respelling) = result' at ih ⊢
      cases ih with
      | ok lock => exact .ok (LockExpr.select lock member)
      | error => exact .error _ _
  | _ => exact .error _ _

/-! ### The symbols of a program -/

namespace Viewpoint

/-- The respelled program seen from the same class. -/
def respell (respelling : Respelling) (view : Viewpoint) : Viewpoint :=
  { view with program := view.program.respell respelling }

variable (respelling : Respelling) (view : Viewpoint)

theorem becomes_symbol (id : SymbolId) :
    Becomes (·.respell respelling) (view.symbol id) ((view.respell respelling).symbol id) := by
  simp only [symbol, respell, Program.symbol?_respell]
  cases view.program.symbol? id with
  | none => exact .error _ _
  | some symbol => exact .ok symbol

@[simp] theorem self_respell : (view.respell respelling).self = view.self := rfl

@[simp] theorem enclosing_respell : (view.respell respelling).enclosing = view.enclosing :=
  (view.program.alike_respell respelling).enclosing_eq view.self

@[simp] theorem isSubclass_respell (type ancestor : SymbolId) :
    (view.respell respelling).program.isSubclass type ancestor = view.program.isSubclass type ancestor :=
  (view.program.alike_respell respelling).isSubclass_eq type ancestor

theorem becomes_resolved (retouch : Retouch) (expr : Expr) :
    Becomes id (view.resolved expr) ((view.respell respelling).resolved (expr.retouch retouch)) := by
  simp only [resolved, respell, Program.use?_respell, Expr.id_retouch]
  cases view.program.use? expr.id with
  | none => exact .error _ _
  | some id => exact .ok id

theorem fieldNamed?_respell (type : SymbolId) (name : String) :
    (view.respell respelling).fieldNamed? type name = view.fieldNamed? type name := by
  have hmember : (view.program.respell respelling).findMember? type name = view.program.findMember? type name :=
    (view.program.alike_respell respelling).findMember?_eq type name
  simp only [fieldNamed?, respell, hmember, Program.symbol?_respell, Option.any_map,
    NamedSymbol.isField_respell]

theorem getterNamed?_respell (type : SymbolId) (name : String) :
    (view.respell respelling).getterNamed? type name = view.getterNamed? type name := by
  have halike := view.program.alike_respell respelling
  simp only [getterNamed?, respell, halike.findMethod?_eq, funext (halike.hasArity_eq 0)]

theorem scopedField?_respell (name : String) :
    (view.respell respelling).scopedField? name = view.scopedField? name := by
  simp only [scopedField?, enclosing_respell, fieldNamed?_respell]

theorem scopedGetter?_respell (name : String) :
    (view.respell respelling).scopedGetter? name = view.scopedGetter? name := by
  simp only [scopedGetter?, enclosing_respell, getterNamed?_respell]

/-- The half of a lock is a method, which keeps its name. -/
theorem selectsHalf_respell (member : LockSymbol) :
    (view.respell respelling).selectsHalf (member.respell respelling) = view.selectsHalf member := by
  simp only [selectsHalf, respell, Program.symbol?_respell, LockSymbol.id_respell, Option.any_map]
  cases hsymbol : view.program.symbol? member.id with
  | none => rfl
  | some symbol =>
      simp only [Option.any_some, NamedSymbol.isMethodOfArity_respell]
      cases hvariable : symbol.isVariable with
      | false => rw [symbol.respell_of_not_variable respelling hvariable]
      | true => rw [symbol.isMethodOfArity_eq_false hvariable, Bool.false_and, Bool.false_and]

variable {respelling view}

/-- What is selected is a type only if it is a class. -/
theorem isClass_of_select {base : Option Bound} {id type : SymbolId}
    (hbound : (view.select base id).toOption = some (.type type)) : view.program.IsClass type := by
  obtain ⟨member, hmember, ⟨hclass, heq⟩ | ⟨-, owner, lock, -, -, heq⟩⟩ :=
    select_eq_ok.mp (toOption_eq_some.mp hbound)
  · obtain rfl := Bound.type.inj heq
    obtain ⟨info, hinfo⟩ := Option.isSome_iff_exists.mp hclass
    exact ⟨info, Option.bind_eq_some_iff.mpr ⟨member, hmember, hinfo⟩⟩
  · cases heq

end Viewpoint

namespace Respelling.Applies

variable {respelling : Respelling} {view : Viewpoint} (h : respelling.Applies view.program)

section Symbols

include h

/-- In locks a symbol of the program is shown under its new name. -/
theorem ofSymbol_respell {id : SymbolId} {symbol : NamedSymbol} (hsymbol : view.program.symbol? id = some symbol) :
    LockSymbol.ofSymbol (symbol.respell respelling) = (LockSymbol.ofSymbol symbol).respell respelling := by
  by_cases hid : symbol.id = respelling.symbol
  · obtain rfl := h.wellFormed.id_eq hsymbol
    obtain ⟨-, context, hkind⟩ := h.isLocal (hid ▸ hsymbol)
    have hrespelled : symbol.respell respelling = { symbol with name := respelling.new } := by
      rw [symbol.respell_of_variable respelling (h.isVariable (hid ▸ hsymbol)), if_pos hid]
    have hmethod : symbol.isMethod = false := by rw [NamedSymbol.isMethod, hkind]
    have hmethod' : ({ symbol with name := respelling.new } : NamedSymbol).isMethod = false := hmethod
    simp only [hrespelled, LockSymbol.ofSymbol, LockSymbol.respell, hmethod, hmethod', Bool.false_eq_true, if_false,
      if_pos hid]
  · rw [NamedSymbol.respell_of_ne hid]
    exact (if_neg hid).symm

theorem lockSymbol (id : SymbolId) :
    Becomes (·.respell respelling) (view.lockSymbol id) ((view.respell respelling).lockSymbol id) := by
  refine (view.becomes_symbol respelling id).bind fun symbol hsymbol => ?_
  rw [h.ofSymbol_respell (Viewpoint.symbol_eq_ok.mp hsymbol)]
  exact .ok _

/-! ### Selecting members -/

theorem enclosingInstance (type : SymbolId) : Becomes (·.respell respelling) (view.enclosingInstance type)
    ((view.respell respelling).enclosingInstance type) := by
  simp only [Viewpoint.enclosingInstance, Viewpoint.self_respell, Viewpoint.enclosing_respell]
  by_cases hself : type = view.self
  · rw [if_pos hself, if_pos hself]
    exact .ok LockExpr.this
  · rw [if_neg hself, if_neg hself]
    split
    · exact (h.lockSymbol type).bind fun shown _ => .ok (LockExpr.outer shown)
    · exact (view.becomes_symbol respelling type).bind fun _ _ => .error _ _

theorem implicitReceiver (member member' : NamedSymbol) (owner : SymbolId) :
    Becomes (·.respell respelling) (view.implicitReceiver member owner)
      ((view.respell respelling).implicitReceiver member' owner) := by
  simp only [Viewpoint.implicitReceiver, Viewpoint.enclosing_respell, Viewpoint.isSubclass_respell]
  split
  · exact h.enclosingInstance _
  · exact .error _ _

theorem selectBase (base : Option Bound) (member : NamedSymbol) (owner : SymbolId) :
    Becomes (·.respell respelling) (view.selectBase base member owner)
      ((view.respell respelling).selectBase (base.map (·.respell respelling)) (member.respell respelling) owner) := by
  simp only [Viewpoint.selectBase.eq_def, NamedSymbol.isStatic_respell]
  split
  · exact (h.lockSymbol owner).bind fun shown _ => .ok (LockExpr.typeLiteral shown)
  · rcases base with _ | ⟨lock | type⟩
    · exact h.implicitReceiver member _ owner
    · exact .ok lock
    · exact .error _ _

theorem select (base : Option Bound) (id : SymbolId) : Becomes (·.respell respelling) (view.select base id)
    ((view.respell respelling).select (base.map (·.respell respelling)) id) := by
  refine (view.becomes_symbol respelling id).bind fun member hmember => ?_
  simp only [NamedSymbol.isClass_respell, NamedSymbol.owner?_respell,
    h.ofSymbol_respell (Viewpoint.symbol_eq_ok.mp hmember)]
  split
  · exact .ok (Bound.type id)
  · cases member.owner? with
    | none => exact .error _ _
    | some owner =>
        exact (h.selectBase base member owner).bind fun lock _ => .ok (Bound.lock (.select lock (.ofSymbol member)))

theorem finish (bound : Bound) : Becomes (·.respell respelling) (view.finish bound)
    ((view.respell respelling).finish (bound.respell respelling)) := by
  cases bound with
  | lock lock => exact .ok lock
  | type id => exact (h.lockSymbol id).bind fun shown _ => .ok (LockExpr.classLiteral shown)

theorem staticClass?_respell (lock : LockExpr) :
    (view.respell respelling).staticClass? (lock.respell respelling) = view.staticClass? lock := by
  have htype (id : SymbolId) : (view.respell respelling).program.typeOf? id = view.program.typeOf? id :=
    h.inClasses.typeOf?_respell respelling id
  cases lock <;>
    simp only [LockExpr.respell, Viewpoint.staticClass?, LockSymbol.id_respell, htype, Viewpoint.self_respell]

end Symbols

/-! ### Source expressions -/

section Source

include h

theorem bindSourceName (retouch : Retouch) (expr : Expr) : Becomes (·.respell respelling) (view.bindSourceName expr)
    ((view.respell respelling).bindSourceName (expr.retouch retouch)) := by
  refine (view.becomes_resolved respelling retouch expr).bind fun id _ =>
    (view.becomes_symbol respelling id).bind fun symbol hsymbol => ?_
  simp only [NamedSymbol.isVariable_respell, h.ofSymbol_respell (Viewpoint.symbol_eq_ok.mp hsymbol)]
  split
  · exact .ok (Bound.lock (.localVar (.ofSymbol symbol)))
  · exact h.select none id

omit h

mutual

/-- A respelled expression is bound to what the expression is bound to. -/
theorem bindSource (h : respelling.Applies view.program) (retouch : Retouch) (allowArgs : Bool) : ∀ expr : Expr,
    Becomes (·.respell respelling) (view.bindSource allowArgs expr)
      ((view.respell respelling).bindSource allowArgs (expr.retouch retouch))
  | ⟨id, .paren inner, span⟩ => bindSource h retouch allowArgs inner
  | ⟨_, .this, _⟩ | ⟨_, .super, _⟩ => .ok (Bound.lock .this)
  | ⟨id, .qualifiedThis type, span⟩ =>
      (view.becomes_resolved respelling retouch ⟨id, .qualifiedThis type, span⟩).bind fun type _ =>
        (h.enclosingInstance type).bind fun lock _ => .ok (Bound.lock lock)
  | ⟨id, .classLiteral type, span⟩ =>
      (view.becomes_resolved respelling retouch ⟨id, .classLiteral type, span⟩).bind fun type _ =>
        (h.lockSymbol type).bind fun shown _ => .ok (Bound.lock (.classLiteral shown))
  | ⟨id, .name name, span⟩ => h.bindSourceName retouch ⟨id, .name name, span⟩
  | ⟨id, .select object name, span⟩ => by
      refine (view.becomes_resolved respelling retouch ⟨id, .select object name, span⟩).bind fun member _ =>
        (view.becomes_symbol respelling member).bind fun symbol _ => ?_
      simp only [NamedSymbol.isClass_respell, NamedSymbol.isStatic_respell]
      split
      · exact h.select none member
      · exact (bindSource h retouch false object).bind fun base _ => h.select (some base) member
  | ⟨id, .call receiver method args, span⟩ => by
      have hargs : (retouchExprs retouch args).isEmpty = args.isEmpty := by rw [retouchExprs_eq, List.isEmpty_map]
      simp only [Expr.retouch, ExprKind.retouch, ExprKind.respell, Viewpoint.bindSource, hargs]
      split
      · exact .error _ _
      · refine (view.becomes_resolved respelling retouch ⟨id, .call receiver method args, span⟩).bind fun member _ =>
          (view.becomes_symbol respelling member).bind fun symbol _ => ?_
        simp only [NamedSymbol.isStatic_respell]
        split
        · exact h.select none member
        · exact (bindReceiver h retouch receiver).bind fun base _ => h.select base member
  | ⟨_, .int _, _⟩ | ⟨_, .float _, _⟩ | ⟨_, .string _, _⟩ | ⟨_, .char _, _⟩ | ⟨_, .bool _, _⟩
  | ⟨_, .null, _⟩ | ⟨_, .new .., _⟩ | ⟨_, .newArray .., _⟩ | ⟨_, .arrayInit _, _⟩ | ⟨_, .index .., _⟩
  | ⟨_, .unary .., _⟩ | ⟨_, .binary .., _⟩ | ⟨_, .assign .., _⟩ | ⟨_, .conditional .., _⟩
  | ⟨_, .instanceOf .., _⟩ | ⟨_, .cast .., _⟩ | ⟨_, .lambda .., _⟩ | ⟨_, .methodRef .., _⟩ => .error _ _

/-- A respelled receiver is bound to what the receiver is bound to. -/
theorem bindReceiver (h : respelling.Applies view.program) (retouch : Retouch) : ∀ receiver : Option Expr,
    Becomes (Option.map (·.respell respelling)) (view.bindReceiver receiver)
      ((view.respell respelling).bindReceiver (retouchOption retouch receiver))
  | none => .ok none
  | some receiver => (bindSource h retouch false receiver).bind fun base _ => .ok (some base)

end

include h

/-- A respelled expression is the lock that the expression is, or none of them is a lock. -/
theorem bindExpr (retouch : Retouch) (expr : Expr) : Becomes (·.respell respelling) (view.bindExpr expr)
    ((view.respell respelling).bindExpr (expr.retouch retouch)) :=
  (h.bindSource retouch false expr).bind fun bound _ => h.finish bound

theorem bindAccess (retouch : Retouch) (access : Expr) : Becomes (·.respell respelling) (view.bindAccess access)
    ((view.respell respelling).bindAccess (access.retouch retouch)) :=
  (h.bindSource retouch true access).bind fun bound _ => h.finish bound

/-- A respelled access requires the lock that the access requires. -/
theorem requiredLock (retouch : Retouch) (guard : LockExpr) (access : Expr) :
    Becomes (·.respell respelling) (view.requiredLock guard access)
      ((view.respell respelling).requiredLock (guard.respell respelling) (access.retouch retouch)) := by
  simp only [Viewpoint.requiredLock, LockExpr.isRelative_respell]
  split
  · refine (h.bindAccess retouch access).bind fun lock _ => ?_
    cases lock with
    | select base member => exact LockExpr.becomes_rebase respelling base guard
    | _ => exact .error _ _
  · exact .ok guard

end Source

/-! ### Guards -/

section Guards

include h

theorem memberClass?_respell (base : Bound) :
    (view.respell respelling).memberClass? (base.respell respelling) = view.memberClass? base := by
  cases base with
  | lock lock => exact h.staticClass?_respell lock
  | type id => rfl

theorem selectGetter?_respell (base : Bound) (name : String) :
    (view.respell respelling).selectGetter? (base.respell respelling) name =
      (view.selectGetter? base name).map (·.respell respelling) := by
  simp only [Viewpoint.selectGetter?, h.memberClass?_respell, Viewpoint.getterNamed?_respell, Option.bind_eq_bind,
    Option.map_bind, Function.comp_def]
  congr 1
  funext owner
  congr 1
  funext member
  exact (h.select (some base) member).toOption_eq

/-- From a type, a field or a type is selected alike if the type is a class. -/
theorem selectField?_respell {base : Bound} (hbase : ∀ id, base = .type id → view.program.IsClass id)
    (name : String) : (view.respell respelling).selectField? (base.respell respelling) name =
      (view.selectField? base name).map (·.respell respelling) := by
  simp only [Viewpoint.selectField?, h.memberClass?_respell, Viewpoint.fieldNamed?_respell, Option.bind_eq_bind,
    Option.map_bind, Function.comp_def]
  cases base with
  | lock lock =>
      congr 1
      funext owner
      cases view.fieldNamed? owner name with
      | none => rfl
      | some field => exact (h.select (some (.lock lock)) field).toOption_eq
  | type id =>
      have htype : (view.respell respelling).program.findType? id name = view.program.findType? id name :=
        h.inClasses.findType?_respell respelling (hbase id rfl) name
      simp only [Viewpoint.memberClass?, Option.bind_some, Bound.respell, htype]
      cases view.fieldNamed? id name with
      | none =>
          cases view.program.findType? id name with
          | none => rfl
          | some type => exact (h.select (some (.type id)) type).toOption_eq
      | some field => exact (h.select (some (.type id)) field).toOption_eq

variable (hself : view.program.IsClass view.self)
include hself

theorem isClass_of_findType? {name : String} {type : SymbolId} (hfound : view.findType? name = some type) :
    view.program.IsClass type :=
  h.wellFormed.findType?_isClass (fun _ haround => h.inClasses.isClass_of_mem_enclosing hself haround) hfound

theorem findType?_respell (name : String) : (view.respell respelling).findType? name = view.findType? name :=
  h.inClasses.findType?_respell respelling hself name

/-- A guard that is bound to a type is bound to a class. -/
theorem isClass_of_bindGuardExpr? {expr : Expr} {type : SymbolId}
    (hbound : view.bindGuardExpr? expr = some (.type type)) : view.program.IsClass type := by
  fun_induction Viewpoint.bindGuardExpr? view expr with
  | case1 _ inner _ ih => exact ih hbound
  | case2 | case3 => cases hbound
  | case4 | case5 =>
      obtain ⟨id, -, hbound⟩ := Option.bind_eq_some_iff.mp hbound
      obtain ⟨shown, -, heq⟩ := Option.map_eq_some_iff.mp hbound
      cases heq
  | case6 _ name _ =>
      rw [Viewpoint.bindName?] at hbound
      split at hbound
      · exact Viewpoint.isClass_of_select hbound
      · obtain ⟨id, hfound, heq⟩ := Option.map_eq_some_iff.mp hbound
        obtain rfl := Bound.type.inj heq
        exact h.isClass_of_findType? hself hfound
  | case7 _ object name _ base hbase ih =>
      obtain ⟨owner, -, hbound⟩ := Option.bind_eq_some_iff.mp hbound
      obtain ⟨member, -, hbound⟩ := Option.bind_eq_some_iff.mp hbound
      exact Viewpoint.isClass_of_select hbound
  | case8 _ object name _ _ _ =>
      obtain ⟨dotted, -, hbound⟩ := Option.bind_eq_some_iff.mp hbound
      obtain ⟨id, hfound, heq⟩ := Option.bind_eq_some_iff.mp hbound
      obtain rfl := Bound.type.inj (Option.some.inj heq)
      exact h.isClass_of_findType? hself hfound
  | case9 _ receiver method _ ih =>
      obtain ⟨base, -, hbound⟩ := Option.bind_eq_some_iff.mp hbound
      obtain ⟨owner, -, hbound⟩ := Option.bind_eq_some_iff.mp hbound
      obtain ⟨member, -, hbound⟩ := Option.bind_eq_some_iff.mp hbound
      exact Viewpoint.isClass_of_select hbound
  | case10 _ method _ =>
      obtain ⟨member, -, hbound⟩ := Option.bind_eq_some_iff.mp hbound
      exact Viewpoint.isClass_of_select hbound
  | case11 => cases hbound

theorem bindGuardExpr?_respell (expr : Expr) : (view.respell respelling).bindGuardExpr? expr =
    (view.bindGuardExpr? expr).map (·.respell respelling) := by
  fun_induction Viewpoint.bindGuardExpr? view expr with
  | case1 _ inner _ ih => exact ih
  | case2 | case3 => rfl
  | case4 _ name _ =>
      simp only [Viewpoint.bindGuardExpr?, h.findType?_respell hself]
      cases view.findType? name with
      | none => rfl
      | some type =>
          simp only [Option.bind_eq_bind, Option.bind_some, (h.enclosingInstance type).toOption_eq, Option.map_map]
          rfl
  | case5 _ name _ =>
      simp only [Viewpoint.bindGuardExpr?, h.findType?_respell hself]
      cases view.findType? name with
      | none => rfl
      | some type =>
          simp only [Option.bind_eq_bind, Option.bind_some, (h.lockSymbol type).toOption_eq, Option.map_map]
          rfl
  | case6 _ name _ =>
      simp only [Viewpoint.bindGuardExpr?, Viewpoint.bindName?, Viewpoint.scopedField?_respell,
        h.findType?_respell hself]
      cases view.scopedField? name with
      | none => cases view.findType? name <;> rfl
      | some field => exact (h.select none field).toOption_eq
  | case7 _ object name _ base hbase ih =>
      rw [Viewpoint.bindGuardExpr?, ih, hbase]
      exact h.selectField?_respell (fun id heq => h.isClass_of_bindGuardExpr? hself (heq ▸ hbase)) name
  | case8 _ object name _ hbase ih =>
      simp only [Viewpoint.bindGuardExpr?, ih, hbase, h.findType?_respell hself]
      cases object.dottedName? with
      | none => rfl
      | some dotted => cases hfound : view.findType? (dotted ++ "." ++ name) <;> simp [hfound, Bound.respell]
  | case9 _ receiver method _ ih =>
      simp only [Viewpoint.bindGuardExpr?, ih]
      cases view.bindGuardExpr? receiver with
      | none => rfl
      | some base => exact h.selectGetter?_respell base method
  | case10 _ method _ =>
      simp only [Viewpoint.bindGuardExpr?, Viewpoint.scopedGetter?_respell]
      cases view.scopedGetter? method with
      | none => rfl
      | some getter => exact (h.select none getter).toOption_eq
  | case11 => simp only [Viewpoint.bindGuardExpr?, Option.map_none]

/-- The text of a guard is bound to the lock that it was bound to, or to none in both programs. -/
theorem bindGuard (guard : String) : Becomes (·.respell respelling) (view.bindGuard guard)
    ((view.respell respelling).bindGuard guard) := by
  rw [Viewpoint.bindGuard, Viewpoint.bindGuard]
  cases Expr.ofSource guard.toList with
  | error error => exact .error _ _
  | ok expr =>
      simp only [h.bindGuardExpr?_respell hself]
      cases view.bindGuardExpr? expr with
      | none => exact .error _ _
      | some bound => exact h.finish bound

end Guards

/-! ### Releases -/

section Releases

include h

theorem isA_respell (lock : LockExpr) (libraryName : String) :
    (view.respell respelling).isA (lock.respell respelling) libraryName = view.isA lock libraryName := by
  have hsubtype (id : SymbolId) :
      (view.respell respelling).program.isSubtype id libraryName = view.program.isSubtype id libraryName :=
    (view.program.alike_respell respelling).isSubtype_eq id libraryName
  simp only [Viewpoint.isA, h.staticClass?_respell, hsubtype]

theorem whole?_respell (lock : LockExpr) : (view.respell respelling).whole? (lock.respell respelling) =
    (view.whole? lock).map (·.respell respelling) := by
  cases lock with
  | select base member =>
      simp only [LockExpr.respell, Viewpoint.whole?, Viewpoint.selectsHalf_respell, h.isA_respell]
      split <;> rfl
  | _ => rfl

theorem releaseOf?_respell (retouch : Retouch) (receiver : Expr) (method : String) :
    (view.respell respelling).releaseOf? (receiver.retouch retouch) method =
      (view.releaseOf? receiver method).map (·.respell respelling) := by
  have hreceiver := h.bindExpr retouch receiver
  rw [Viewpoint.releaseOf?, Viewpoint.releaseOf?]
  cases Viewpoint.releaserOf? method with
  | none => rfl
  | some libraryName =>
      generalize view.bindExpr receiver = bound, (view.respell respelling).bindExpr (receiver.retouch retouch) = bound'
        at hreceiver ⊢
      cases hreceiver with
      | error => rfl
      | ok lock =>
          simp only [Option.bind_eq_bind, Option.bind_some, h.isA_respell, h.whole?_respell]
          split
          · cases view.whole? lock <;> rfl
          · rfl

theorem releaseAt?_respell (retouch : Retouch) (expr : Expr) :
    (view.respell respelling).releaseAt? (expr.retouch retouch) =
      (view.releaseAt? expr).map (·.respell respelling) := by
  obtain ⟨id, kind, span⟩ := expr
  cases kind with
  | call receiver? method args =>
      cases receiver? with
      | none => rfl
      | some receiver =>
          cases args with
          | nil => exact h.releaseOf?_respell retouch receiver method
          | cons arg rest => rfl
  | _ => rfl

theorem releases_respell (retouch : Retouch) (finallyBody : List Stmt) :
    (view.respell respelling).releases (finallyBody.map (·.retouch retouch)) =
      (view.releases finallyBody).map (·.respell respelling) := by
  rw [Viewpoint.releases, exprsIn_retouch, List.filterMap_map, Viewpoint.releases, List.map_filterMap]
  congr 1
  funext expr
  exact h.releaseAt?_respell retouch expr

/-- A final block releases the locks that it released. -/
theorem releasedLocks_respell (retouch : Retouch) (finallyBody : Option (List Stmt)) :
    (view.respell respelling).releasedLocks (finallyBody.map fun body => body.map (·.retouch retouch)) =
      (view.releasedLocks finallyBody).respell respelling := by
  have hreleased (release : Release) :
      (release.respell respelling).released = release.released.map (·.respell respelling) := by
    cases release <;> rfl
  cases finallyBody with
  | none => rfl
  | some body =>
      simp only [Viewpoint.releasedLocks, Option.map_some, Option.getD_some, h.releases_respell,
        LockSet.respell_ofList, List.flatMap_map, List.map_flatMap, hreleased]

end Releases

end Respelling.Applies
end LockDiscipline
