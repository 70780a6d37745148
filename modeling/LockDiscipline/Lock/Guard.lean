import LockDiscipline.Grammar.Program
import LockDiscipline.Lock.Viewpoint
/-!
# Binding guard texts

The text of a guard is an expression whose names are looked up from the class that declares the
guarded member: fields of the class and of those around it first, then types. A call selects a
method without parameters. Everything else is not a lock, and the error shows the whole text.
-/

namespace LockDiscipline.Viewpoint

/-- The field that a class declares or inherits under a name. -/
def fieldNamed? (view : Viewpoint) (type : SymbolId) (name : String) : Option SymbolId :=
  (view.program.findMember? type name).filter fun id =>
    (view.program.symbol? id).any (·.isField)

/-- The method without parameters that a class declares or inherits under a name. -/
def getterNamed? (view : Viewpoint) (type : SymbolId) (name : String) : Option SymbolId :=
  (view.program.findMethod? type name 0).filter (view.program.hasArity 0)

/-- The field that a bare name means. -/
def scopedField? (view : Viewpoint) (name : String) : Option SymbolId :=
  view.enclosing.findSome? (view.fieldNamed? · name)

/-- The method without parameters that a bare call means. -/
def scopedGetter? (view : Viewpoint) (name : String) : Option SymbolId :=
  view.enclosing.findSome? (view.getterNamed? · name)

/-- A type by its name. -/
def findType? (view : Viewpoint) (name : String) : Option SymbolId :=
  view.program.findType? view.self name

/-- The class in which the members of a bound expression are found. -/
def memberClass? (view : Viewpoint) : Bound → Option SymbolId
  | .type id => some id
  | .lock lock => view.staticClass? lock

/-- Select a field by its name, or a type from a type. -/
def selectField? (view : Viewpoint) (base : Bound) (name : String) : Option Bound := do
  let owner ← view.memberClass? base
  let found? := match view.fieldNamed? owner name, base with
    | some field, _ => some field
    | none, .type _ => view.program.findType? owner name
    | none, .lock _ => none
  (view.select (some base) (← found?)).toOption

/-- Select a method without parameters by its name. -/
def selectGetter? (view : Viewpoint) (base : Bound) (name : String) : Option Bound := do
  let owner ← view.memberClass? base
  (view.select (some base) (← view.getterNamed? owner name)).toOption

/-- Bind a bare name: a field, or else a type. -/
def bindName? (view : Viewpoint) (name : String) : Option Bound :=
  match view.scopedField? name with
  | some field => (view.select none field).toOption
  | none => (view.findType? name).map .type

/-- Bind the expression of a guard. Where the part before a dot is not bound, the whole may be the
qualified name of a type. -/
def bindGuardExpr? (view : Viewpoint) : Expr → Option Bound
  | ⟨_, .paren inner, _⟩ => view.bindGuardExpr? inner
  | ⟨_, .this, _⟩ | ⟨_, .super, _⟩ => some (.lock .this)
  | ⟨_, .qualifiedThis type, _⟩ => do
      let id ← view.findType? type
      (view.enclosingInstance id).toOption.map .lock
  | ⟨_, .classLiteral type, _⟩ => do
      let id ← view.findType? type
      (view.lockSymbol id).toOption.map fun symbol => .lock (.classLiteral symbol)
  | ⟨_, .name name, _⟩ => view.bindName? name
  | ⟨_, .select object name, _⟩ =>
      match view.bindGuardExpr? object with
      | some base => view.selectField? base name
      | none => do
          let id ← view.findType? ((← object.dottedName?) ++ "." ++ name)
          return .type id
  | ⟨_, .call (some receiver) method [], _⟩ => do
      view.selectGetter? (← view.bindGuardExpr? receiver) method
  | ⟨_, .call none method [], _⟩ => do
      (view.select none (← view.scopedGetter? method)).toOption
  | _ => none

/-- Bind the text of a guard. -/
def bindGuard (view : Viewpoint) (guard : String) : Except NotALock LockExpr :=
  match Expr.ofSource guard.toList with
  | .error _ => .error ⟨guard⟩
  | .ok expr =>
      match view.bindGuardExpr? expr with
      | none => .error ⟨guard⟩
      | some bound => view.finish bound

end LockDiscipline.Viewpoint
