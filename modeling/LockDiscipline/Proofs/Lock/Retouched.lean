import LockDiscipline.Proofs.Lock.Canonical
import LockDiscipline.Proofs.Program.Recast
import LockDiscipline.Proofs.Tree.Retouch
/-!
# Locks in retouched code

Which lock an expression is depends on names alone. So a retouched expression, seen from a class of a program
that matches, is bound to the very same lock, and a guard is bound to the same lock from there as well. There
is one lemma for each function of the binders, stated for two viewpoints that match.
-/

namespace LockDiscipline

/-- One symbol is the other one with its span moved, up to a monitor. -/
def NamedSymbol.Matches (move : Span → Span) (symbol symbol' : NamedSymbol) : Prop :=
  symbol'.recast (fun span => span) = symbol.recast move

namespace NamedSymbol.Matches

variable {move : Span → Span} {symbol symbol' : NamedSymbol}

theorem congr {α : Type} (h : symbol.Matches move symbol') (query : NamedSymbol → α)
    (hquery : ∀ move symbol, query (recast move symbol) = query symbol) : query symbol' = query symbol := by
  rw [← hquery (fun span => span) symbol', h, hquery]

variable (h : symbol.Matches move symbol')
include h

theorem id_eq : symbol'.id = symbol.id := h.congr (·.id) id_recast

theorem name_eq : symbol'.name = symbol.name := h.congr (·.name) name_recast

theorem guard_eq : symbol'.guard = symbol.guard := h.congr (·.guard) guard_recast

theorem span_eq : symbol'.span = move symbol.span := congrArg (·.span) h

theorem owner?_eq : symbol'.owner? = symbol.owner? := h.congr (·.owner?) owner?_recast

theorem isClass_eq : symbol'.isClass = symbol.isClass := h.congr (·.isClass) isClass_recast

theorem isField_eq : symbol'.isField = symbol.isField := h.congr (·.isField) isField_recast

theorem isMethod_eq : symbol'.isMethod = symbol.isMethod := h.congr (·.isMethod) isMethod_recast

theorem isStatic_eq : symbol'.isStatic = symbol.isStatic := h.congr (·.isStatic) isStatic_recast

theorem isVariable_eq : symbol'.isVariable = symbol.isVariable := h.congr (·.isVariable) isVariable_recast

theorem isMethodOfArity_eq (count : Nat) : symbol'.isMethodOfArity count = symbol.isMethodOfArity count :=
  h.congr (·.isMethodOfArity count) fun move symbol => symbol.isMethodOfArity_recast move count

theorem ofSymbol_eq : LockSymbol.ofSymbol symbol' = .ofSymbol symbol := by
  simp only [LockSymbol.ofSymbol, h.id_eq, h.name_eq, h.isMethod_eq]

end NamedSymbol.Matches

/-- What two programs that match have under one number is either nothing or symbols that match. -/
theorem Program.Matches.symbol?_cases {move : Span → Span} {program program' : Program}
    (h : program.Matches move program') (id : SymbolId) :
    (program.symbol? id = none ∧ program'.symbol? id = none) ∨
      ∃ symbol symbol', program.symbol? id = some symbol ∧ program'.symbol? id = some symbol' ∧
        symbol.Matches (moveAt move id) symbol' := by
  have hsymbol := h.symbol?_map id
  cases hfound : program.symbol? id with
  | none =>
      rw [hfound, Option.map_none, Option.map_eq_none_iff] at hsymbol
      exact .inl ⟨rfl, hsymbol⟩
  | some symbol =>
      rw [hfound, Option.map_some, Option.map_eq_some_iff] at hsymbol
      obtain ⟨symbol', hfound', hmatches⟩ := hsymbol
      exact .inr ⟨symbol, symbol', rfl, hfound', hmatches⟩

/-- Programs that match are seen from one class. -/
structure Viewpoint.Matches (move : Span → Span) (view view' : Viewpoint) : Prop where
  program : view.program.Matches move view'.program
  self : view'.self = view.self

namespace Viewpoint.Matches

variable {move shift : Span → Span} {view view' : Viewpoint} (h : view.Matches move view')
include h

theorem withSelf (self : SymbolId) : (view.withSelf self).Matches move (view'.withSelf self) :=
  ⟨h.program, rfl⟩

/-- What goes on with a symbol goes on with one that matches. -/
theorem symbol_bind {α : Type} (id : SymbolId) {next next' : NamedSymbol → Except NotALock α}
    (hnext : ∀ shift symbol symbol', symbol.Matches shift symbol' → next' symbol' = next symbol) :
    (view'.symbol id >>= next') = (view.symbol id >>= next) := by
  rcases h.program.symbol?_cases id with ⟨hnone, hnone'⟩ | ⟨symbol, symbol', hsome, hsome', hmatches⟩
  · simp only [Viewpoint.symbol, hnone, hnone']
    rfl
  · simp only [Viewpoint.symbol, hsome, hsome']
    exact hnext _ symbol symbol' hmatches

theorem lockSymbol_eq (id : SymbolId) : view'.lockSymbol id = view.lockSymbol id :=
  h.symbol_bind id fun _ _ _ hmatches => congrArg Except.ok hmatches.ofSymbol_eq

theorem enclosing_eq : view'.enclosing = view.enclosing := by
  rw [enclosing, enclosing, h.self]
  exact h.program.congr (·.enclosing view.self) fun move program => program.enclosing_recast move view.self

theorem isSubclass_eq : view'.program.isSubclass = view.program.isSubclass := by
  funext type ancestor
  exact h.program.congr (·.isSubclass type ancestor) fun move program =>
    program.isSubclass_recast move type ancestor

theorem enclosingInstance_eq (type : SymbolId) :
    view'.enclosingInstance type = view.enclosingInstance type := by
  have hname : (do throw ⟨(← view'.symbol type).name ++ ".this"⟩ : Except NotALock LockExpr) =
      (do throw ⟨(← view.symbol type).name ++ ".this"⟩) :=
    h.symbol_bind type fun _ _ _ hmatches => by rw [hmatches.name_eq]
  simp only [enclosingInstance, h.self, h.enclosing_eq, h.lockSymbol_eq, hname]

theorem implicitReceiver_eq {member member' : NamedSymbol} (hmember : member.Matches shift member')
    (owner : SymbolId) : view'.implicitReceiver member' owner = view.implicitReceiver member owner := by
  have hinstance : view'.enclosingInstance = view.enclosingInstance := funext h.enclosingInstance_eq
  simp only [implicitReceiver, h.enclosing_eq, h.isSubclass_eq, hinstance, hmember.name_eq]

theorem staticClass?_eq (lock : LockExpr) : view'.staticClass? lock = view.staticClass? lock := by
  have htype (id : SymbolId) : view'.program.typeOf? id = view.program.typeOf? id :=
    h.program.congr (·.typeOf? id) fun move program => program.typeOf?_recast move id
  cases lock <;> simp only [staticClass?, h.self, htype]

theorem selectBase_eq (base : Option Bound) {member member' : NamedSymbol}
    (hmember : member.Matches shift member') (owner : SymbolId) :
    view'.selectBase base member' owner = view.selectBase base member owner := by
  simp only [selectBase, hmember.isStatic_eq, hmember.name_eq, h.lockSymbol_eq,
    h.implicitReceiver_eq hmember]

theorem select_eq (base : Option Bound) (id : SymbolId) : view'.select base id = view.select base id := by
  apply h.symbol_bind id
  intro _ member member' hmember
  simp only [hmember.isClass_eq, hmember.owner?_eq, hmember.name_eq, hmember.ofSymbol_eq,
    h.selectBase_eq base hmember]

theorem finish_eq (bound : Bound) : view'.finish bound = view.finish bound := by
  cases bound with
  | lock lock => rfl
  | type id => simp only [finish, h.lockSymbol_eq]

end Viewpoint.Matches

/-! ### Source expressions -/

/-- The error for an expression does not tell where it stands. -/
@[simp] theorem NotALock.ofExpr_retouch (retouch : Retouch) [retouch.KeepsNames] (expr : Expr) :
    NotALock.ofExpr (expr.retouch retouch) = .ofExpr expr := by
  simp only [NotALock.ofExpr, Retouch.dottedName?_expr]
  obtain ⟨id, kind, span⟩ := expr
  rw [Expr.retouch_mk]
  cases kind <;> rfl

namespace Viewpoint.Matches

variable {retouch : Retouch} {view view' : Viewpoint}

theorem resolved_eq [retouch.KeepsNames] (h : view.Matches retouch.span view') (expr : Expr) :
    view'.resolved (expr.retouch retouch) = view.resolved expr := by
  simp only [resolved, Expr.id_retouch, h.program.use?_eq, NotALock.ofExpr_retouch]

theorem bindSourceName_eq [retouch.KeepsNames] (h : view.Matches retouch.span view') (expr : Expr) :
    view'.bindSourceName (expr.retouch retouch) = view.bindSourceName expr := by
  simp only [bindSourceName, h.resolved_eq]
  congr 1
  funext id
  apply h.symbol_bind
  intro _ symbol symbol' hsymbol
  simp only [hsymbol.isVariable_eq, hsymbol.ofSymbol_eq, h.select_eq]

mutual

/-- A retouched expression is bound to what the expression is bound to. -/
theorem bindSource_eq [retouch.KeepsNames] (h : view.Matches retouch.span view') (allowArgs : Bool) :
    ∀ expr : Expr, view'.bindSource allowArgs (expr.retouch retouch) = view.bindSource allowArgs expr
  | ⟨id, .paren inner, span⟩ => bindSource_eq h allowArgs inner
  | ⟨id, .qualifiedThis type, span⟩ => by
      have hresolved := h.resolved_eq ⟨id, .qualifiedThis type, span⟩
      simp only [Expr.retouch_mk, ExprKind.retouch] at hresolved
      simp only [Expr.retouch_mk, ExprKind.retouch, bindSource, hresolved, h.enclosingInstance_eq]
  | ⟨id, .classLiteral type, span⟩ => by
      have hresolved := h.resolved_eq ⟨id, .classLiteral type, span⟩
      simp only [Expr.retouch_mk, ExprKind.retouch] at hresolved
      simp only [Expr.retouch_mk, ExprKind.retouch, bindSource, hresolved, h.lockSymbol_eq]
  | ⟨id, .name name, span⟩ => h.bindSourceName_eq ⟨id, .name name, span⟩
  | ⟨id, .select object name, span⟩ => by
      have hresolved := h.resolved_eq ⟨id, .select object name, span⟩
      simp only [Expr.retouch_mk, ExprKind.retouch] at hresolved
      simp only [Expr.retouch_mk, ExprKind.retouch, bindSource, hresolved, bindSource_eq h false object]
      congr 1
      funext member
      apply h.symbol_bind
      intro _ symbol symbol' hsymbol
      simp only [hsymbol.isClass_eq, hsymbol.isStatic_eq, h.select_eq]
  | ⟨id, .call receiver method args, span⟩ => by
      have hresolved := h.resolved_eq ⟨id, .call receiver method args, span⟩
      have herror := NotALock.ofExpr_retouch retouch ⟨id, .call receiver method args, span⟩
      have hargs : (retouchExprs retouch args).isEmpty = args.isEmpty := by
        rw [retouchExprs_eq, List.isEmpty_map]
      simp only [Expr.retouch_mk, ExprKind.retouch] at hresolved herror
      have hmember (member : SymbolId) : (do
            if (← view'.symbol member).isStatic then view'.select none member
            else view'.select (← view'.bindReceiver (retouchOption retouch receiver)) member) =
          (do
            if (← view.symbol member).isStatic then view.select none member
            else view.select (← view.bindReceiver receiver) member) := by
        apply h.symbol_bind
        intro _ symbol symbol' hsymbol
        simp only [hsymbol.isStatic_eq, h.select_eq, bindReceiver_eq h receiver]
      simp only [Expr.retouch_mk, ExprKind.retouch, bindSource, hresolved, herror, hmember,
        hargs]
  | ⟨_, .this, _⟩ | ⟨_, .super, _⟩ => rfl
  | ⟨_, .int _, _⟩ | ⟨_, .float _, _⟩ | ⟨_, .string _, _⟩ | ⟨_, .char _, _⟩ | ⟨_, .bool _, _⟩
  | ⟨_, .null, _⟩ | ⟨_, .new .., _⟩ | ⟨_, .newArray .., _⟩ | ⟨_, .arrayInit _, _⟩ | ⟨_, .index .., _⟩
  | ⟨_, .unary .., _⟩ | ⟨_, .binary .., _⟩ | ⟨_, .assign .., _⟩ | ⟨_, .conditional .., _⟩
  | ⟨_, .instanceOf .., _⟩ | ⟨_, .cast .., _⟩ | ⟨_, .lambda .., _⟩ | ⟨_, .methodRef .., _⟩ => by
      exact congrArg Except.error (NotALock.ofExpr_retouch retouch ⟨_, _, _⟩)

/-- A retouched receiver is bound to what the receiver is bound to. -/
theorem bindReceiver_eq [retouch.KeepsNames] (h : view.Matches retouch.span view') :
    ∀ receiver, view'.bindReceiver (retouchOption retouch receiver) = view.bindReceiver receiver
  | none => rfl
  | some receiver => by
      rw [retouchOption, bindReceiver, bindReceiver, bindSource_eq h false receiver]

end

variable [retouch.KeepsNames] (h : view.Matches retouch.span view')
include h

theorem bindExpr_eq (expr : Expr) : view'.bindExpr (expr.retouch retouch) = view.bindExpr expr := by
  simp only [bindExpr, h.bindSource_eq, h.finish_eq]

theorem bindAccess_eq (access : Expr) : view'.bindAccess (access.retouch retouch) = view.bindAccess access := by
  simp only [bindAccess, h.bindSource_eq, h.finish_eq]

theorem requiredLock_eq (guard : LockExpr) (access : Expr) :
    view'.requiredLock guard (access.retouch retouch) = view.requiredLock guard access := by
  simp only [requiredLock, h.bindAccess_eq]

end Viewpoint.Matches

/-! ### Guards -/

namespace Viewpoint.Matches

variable {move : Span → Span} {view view' : Viewpoint}

theorem fieldNamed?_eq (h : view.Matches move view') (type : SymbolId) (name : String) :
    view'.fieldNamed? type name = view.fieldNamed? type name := by
  have hmember : view'.program.findMember? type name = view.program.findMember? type name :=
    h.program.congr (·.findMember? type name) fun move program => program.findMember?_recast move type name
  have hfield (id : SymbolId) :
      (view'.program.symbol? id).any (·.isField) = (view.program.symbol? id).any (·.isField) := by
    rcases h.program.symbol?_cases id with ⟨hnone, hnone'⟩ | ⟨symbol, symbol', hsome, hsome', hmatches⟩
    · rw [hnone, hnone']
    · rw [hsome, hsome', Option.any_some, Option.any_some, hmatches.isField_eq]
  simp only [fieldNamed?, hmember, hfield]

theorem getterNamed?_eq (h : view.Matches move view') (type : SymbolId) (name : String) :
    view'.getterNamed? type name = view.getterNamed? type name := by
  have hmethod : view'.program.findMethod? type name 0 = view.program.findMethod? type name 0 :=
    h.program.congr (·.findMethod? type name 0) fun move program =>
      program.findMethod?_recast move type name 0
  have harity : view'.program.hasArity 0 = view.program.hasArity 0 :=
    funext fun id => h.program.congr (·.hasArity 0 id) fun move program => program.hasArity_recast move 0 id
  rw [getterNamed?, getterNamed?, hmethod, harity]

theorem programFindType?_eq (h : view.Matches move view') (type : SymbolId) (name : String) :
    view'.program.findType? type name = view.program.findType? type name :=
  h.program.congr (·.findType? type name) fun move program => program.findType?_recast move type name

variable (h : view.Matches move view')
include h

theorem scopedField?_eq (name : String) : view'.scopedField? name = view.scopedField? name := by
  simp only [scopedField?, h.enclosing_eq, h.fieldNamed?_eq]

theorem scopedGetter?_eq (name : String) : view'.scopedGetter? name = view.scopedGetter? name := by
  simp only [scopedGetter?, h.enclosing_eq, h.getterNamed?_eq]

theorem findType?_eq (name : String) : view'.findType? name = view.findType? name := by
  simp only [findType?, h.self, h.programFindType?_eq]

theorem memberClass?_eq (base : Bound) : view'.memberClass? base = view.memberClass? base := by
  cases base with
  | type id => rfl
  | lock lock => exact h.staticClass?_eq lock

theorem selectField?_eq (base : Bound) (name : String) :
    view'.selectField? base name = view.selectField? base name := by
  simp only [selectField?, h.memberClass?_eq, h.fieldNamed?_eq, h.programFindType?_eq, h.select_eq]

theorem selectGetter?_eq (base : Bound) (name : String) :
    view'.selectGetter? base name = view.selectGetter? base name := by
  simp only [selectGetter?, h.memberClass?_eq, h.getterNamed?_eq, h.select_eq]

theorem bindName?_eq (name : String) : view'.bindName? name = view.bindName? name := by
  simp only [bindName?, h.scopedField?_eq, h.select_eq, h.findType?_eq]

theorem bindGuardExpr?_eq (expr : Expr) : view'.bindGuardExpr? expr = view.bindGuardExpr? expr := by
  fun_induction bindGuardExpr? view expr with
  | case1 _ inner _ ih => exact ih
  | case2 | case3 => rfl
  | case4 _ type _ => simp only [bindGuardExpr?, h.findType?_eq, h.enclosingInstance_eq]
  | case5 _ type _ => simp only [bindGuardExpr?, h.findType?_eq, h.lockSymbol_eq]
  | case6 _ name _ => exact h.bindName?_eq name
  | case7 _ object name _ base hbase ih =>
      rw [bindGuardExpr?, ih, hbase]
      exact h.selectField?_eq base name
  | case8 _ object name _ hbase ih =>
      simp only [bindGuardExpr?, ih, hbase, h.findType?_eq]
  | case9 _ receiver method _ ih => simp only [bindGuardExpr?, ih, h.selectGetter?_eq]
  | case10 _ method _ => simp only [bindGuardExpr?, h.scopedGetter?_eq, h.select_eq]
  | case11 => simp only [bindGuardExpr?]

/-- The text of a guard is bound to one lock from viewpoints that match. -/
theorem bindGuard_eq (guard : String) : view'.bindGuard guard = view.bindGuard guard := by
  simp only [bindGuard, h.bindGuardExpr?_eq, h.finish_eq]

end Viewpoint.Matches

/-! ### Releases -/

namespace Viewpoint.Matches

variable {retouch : Retouch} {view view' : Viewpoint} (h : view.Matches retouch.span view')
include h

theorem isA_eq (lock : LockExpr) (libraryName : String) :
    view'.isA lock libraryName = view.isA lock libraryName := by
  have hsubtype (id : SymbolId) :
      view'.program.isSubtype id libraryName = view.program.isSubtype id libraryName :=
    h.program.congr (·.isSubtype id libraryName) fun move program =>
      program.isSubtype_recast move id libraryName
  simp only [isA, h.staticClass?_eq, hsubtype]

theorem selectsHalf_eq (member : LockSymbol) : view'.selectsHalf member = view.selectsHalf member := by
  simp only [selectsHalf]
  rcases h.program.symbol?_cases member.id with
    ⟨hnone, hnone'⟩ | ⟨symbol, symbol', hsome, hsome', hmatches⟩
  · rw [hnone, hnone']
  · rw [hsome, hsome', Option.any_some, Option.any_some, hmatches.isMethodOfArity_eq, hmatches.name_eq]

theorem whole?_eq (lock : LockExpr) : view'.whole? lock = view.whole? lock := by
  cases lock <;> simp only [whole?, h.selectsHalf_eq, h.isA_eq]

variable [retouch.KeepsNames]

theorem releaseAt?_eq (expr : Expr) : view'.releaseAt? (expr.retouch retouch) = view.releaseAt? expr := by
  obtain ⟨id, kind, span⟩ := expr
  cases kind with
  | call receiver? method args =>
      cases receiver? with
      | none => rfl
      | some receiver =>
          cases args with
          | nil =>
              change view'.releaseOf? (receiver.retouch retouch) method = view.releaseOf? receiver method
              simp only [releaseOf?, h.bindExpr_eq, h.isA_eq, h.whole?_eq]
          | cons arg rest => rfl
  | _ => rfl

theorem releases_eq (finallyBody : List Stmt) :
    view'.releases (finallyBody.map (·.retouch retouch)) = view.releases finallyBody := by
  rw [releases, exprsIn_retouch, List.filterMap_map, releases]
  congr 1
  funext expr
  exact h.releaseAt?_eq expr

theorem releasedLocks_eq (finallyBody : Option (List Stmt)) :
    view'.releasedLocks (finallyBody.map fun body => body.map (·.retouch retouch)) =
      view.releasedLocks finallyBody := by
  cases finallyBody with
  | none => rfl
  | some body => simp only [releasedLocks, Option.map_some, Option.getD_some, h.releases_eq]

end Viewpoint.Matches
end LockDiscipline
