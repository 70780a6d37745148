import Mathlib.Data.List.Basic
import LockDiscipline.Proofs.Program.Ownership
/-!
# Programs up to spans and monitors

What names mean in a program depends neither on where its symbols are declared nor on which of its methods
are synchronized. To say so, a program is recast: its spans are moved and all monitors are dropped. Every
query gives the same for the recast program, and every change of a program can be made to the recast one.
Programs match if one of them is the other one as far as this goes.
-/

namespace LockDiscipline

/-- The kind of a symbol without the monitor of a method. -/
def SymbolKind.unlocked : SymbolKind → SymbolKind
  | .method owner isStatic _ arity => .method owner isStatic false arity
  | kind => kind

namespace NamedSymbol

/-- A symbol with its span moved and without a monitor. -/
def recast (move : Span → Span) (symbol : NamedSymbol) : NamedSymbol :=
  { symbol with kind := symbol.kind.unlocked, span := move symbol.span }

variable (move : Span → Span) (symbol : NamedSymbol)

@[simp] theorem id_recast : (symbol.recast move).id = symbol.id := rfl

@[simp] theorem name_recast : (symbol.recast move).name = symbol.name := rfl

@[simp] theorem type_recast : (symbol.recast move).type = symbol.type := rfl

@[simp] theorem guard_recast : (symbol.recast move).guard = symbol.guard := rfl

@[simp] theorem classInfo?_recast : (symbol.recast move).classInfo? = symbol.classInfo? := by
  obtain ⟨id, name, kind, type, guard, span⟩ := symbol
  cases kind <;> rfl

@[simp] theorem owner?_recast : (symbol.recast move).owner? = symbol.owner? := by
  obtain ⟨id, name, kind, type, guard, span⟩ := symbol
  cases kind <;> rfl

@[simp] theorem isClass_recast : (symbol.recast move).isClass = symbol.isClass := by
  rw [isClass, classInfo?_recast, isClass]

@[simp] theorem isField_recast : (symbol.recast move).isField = symbol.isField := by
  obtain ⟨id, name, kind, type, guard, span⟩ := symbol
  cases kind <;> rfl

@[simp] theorem isMethod_recast : (symbol.recast move).isMethod = symbol.isMethod := by
  obtain ⟨id, name, kind, type, guard, span⟩ := symbol
  cases kind <;> rfl

@[simp] theorem isMethodOfArity_recast (count : Nat) :
    (symbol.recast move).isMethodOfArity count = symbol.isMethodOfArity count := by
  obtain ⟨id, name, kind, type, guard, span⟩ := symbol
  cases kind <;> rfl

@[simp] theorem isStatic_recast : (symbol.recast move).isStatic = symbol.isStatic := by
  obtain ⟨id, name, kind, type, guard, span⟩ := symbol
  cases kind <;> rfl

@[simp] theorem isVariable_recast : (symbol.recast move).isVariable = symbol.isVariable := by
  obtain ⟨id, name, kind, type, guard, span⟩ := symbol
  cases kind <;> rfl

@[simp] theorem contextClass_recast : (symbol.recast move).contextClass = symbol.contextClass := by
  obtain ⟨id, name, kind, type, guard, span⟩ := symbol
  cases kind <;> rfl

end NamedSymbol

/-- A problem with its spans moved. -/
def NameProblem.recast (move : Span → Span) : NameProblem → NameProblem
  | .duplicateClass name span previous => .duplicateClass name (move span) (move previous)
  | .duplicateField name span previous => .duplicateField name (move span) (move previous)
  | .cyclicInheritance name span => .cyclicInheritance name (move span)

namespace Program

/-- How the symbol with a number is moved. A symbol of the library has no place in the source and stays. -/
def moveAt (move : Span → Span) (symbol : SymbolId) : Span → Span :=
  if symbol < Library.size then id else move

@[simp] theorem moveAt_id (symbol : SymbolId) : moveAt id symbol = id :=
  ite_self id

theorem moveAt_of_le (move : Span → Span) {symbol : SymbolId} (h : Library.size ≤ symbol) :
    moveAt move symbol = move :=
  if_neg (Nat.not_lt_of_le h)

/-- A program with its spans moved and without monitors. -/
def recast (move : Span → Span) (program : Program) : Program :=
  { program with
    symbols := program.symbols.mapIdx fun id symbol => symbol.recast (moveAt move id)
    problems := program.problems.map (·.recast move) }

/-! ### Queries -/

/-- Whatever is asked of the classes of two programs has one answer. -/
structure Alike (program program' : Program) : Prop where
  size_eq : program'.symbols.size = program.symbols.size
  classInfo?_eq : ∀ id, program'.classInfo? id = program.classInfo? id
  hasArity_eq : ∀ arity id, program'.hasArity arity id = program.hasArity arity id
  package : program'.package = program.package
  topLevel : program'.topLevel = program.topLevel
  qualified : program'.qualified = program.qualified
  library : program'.library = program.library
  imports : program'.imports = program.imports

namespace Alike

variable {program program' : Program} (h : program.Alike program')
include h

theorem outerClass?_eq (id : SymbolId) : program'.outerClass? id = program.outerClass? id := by
  simp only [outerClass?, h.classInfo?_eq]

theorem qualifiedName?_eq (id : SymbolId) : program'.qualifiedName? id = program.qualifiedName? id := by
  simp only [qualifiedName?, h.classInfo?_eq]

theorem superclass?_eq (id : SymbolId) : program'.superclass? id = program.superclass? id := by
  simp only [superclass?, h.classInfo?_eq]

theorem supertypes_eq (id : SymbolId) : program'.supertypes id = program.supertypes id := by
  simp only [supertypes, h.classInfo?_eq]

theorem searchSupertypes_eq (steps : Nat) (pending seen : List SymbolId) :
    program'.searchSupertypes steps pending seen = program.searchSupertypes steps pending seen := by
  induction steps generalizing pending seen with
  | zero => rfl
  | succ steps ih =>
      cases pending with
      | nil => rfl
      | cons id pending => rw [searchSupertypes, h.supertypes_eq, ih, ← searchSupertypes]

theorem ancestors_eq (id : SymbolId) : program'.ancestors id = program.ancestors id := by
  simp only [ancestors, h.size_eq, h.searchSupertypes_eq]

theorem enclosingUpTo_eq (steps : Nat) (id : SymbolId) :
    program'.enclosingUpTo steps id = program.enclosingUpTo steps id := by
  induction steps generalizing id with
  | zero => rfl
  | succ steps ih => simp only [enclosingUpTo, h.outerClass?_eq, ih]

theorem enclosing_eq (id : SymbolId) : program'.enclosing id = program.enclosing id := by
  simp only [enclosing, h.size_eq, h.enclosingUpTo_eq]

theorem members_eq (id : SymbolId) : program'.members id = program.members id := by
  simp only [members, h.classInfo?_eq]

theorem findField?_eq (id : SymbolId) (name : String) : program'.findField? id name = program.findField? id name := by
  simp only [findField?, h.ancestors_eq, h.members_eq]

theorem memberClass?_eq (id : SymbolId) (name : String) :
    program'.memberClass? id name = program.memberClass? id name := by
  simp only [memberClass?, h.ancestors_eq, h.members_eq]

theorem methodsNamed_eq (id : SymbolId) (name : String) :
    program'.methodsNamed id name = program.methodsNamed id name := by
  simp only [methodsNamed, h.ancestors_eq, h.members_eq]

theorem findMethod?_eq (id : SymbolId) (name : String) (arity : Nat) :
    program'.findMethod? id name arity = program.findMethod? id name arity := by
  have harity : program'.hasArity arity = program.hasArity arity := funext (h.hasArity_eq arity)
  simp only [findMethod?, h.methodsNamed_eq, harity]

theorem findMember?_eq (id : SymbolId) (name : String) :
    program'.findMember? id name = program.findMember? id name := by
  simp only [findMember?, h.findField?_eq, h.methodsNamed_eq]

theorem findQualified?_eq (name : String) : program'.findQualified? name = program.findQualified? name := by
  simp only [findQualified?, h.qualified, h.package]

theorem isSubclass_eq (id ancestor : SymbolId) : program'.isSubclass id ancestor = program.isSubclass id ancestor := by
  simp only [isSubclass, h.ancestors_eq]

theorem isSubtype_eq (id : SymbolId) (qualifiedName : String) :
    program'.isSubtype id qualifiedName = program.isSubtype id qualifiedName := by
  simp only [isSubtype, h.ancestors_eq, h.qualifiedName?_eq]

/-! Types are also found by the names of the classes around a place. -/

theorem typeWithin?_eq {id : SymbolId}
    (hname : (program'.symbol? id).map (·.name) = (program.symbol? id).map (·.name)) (name : String) :
    program'.typeWithin? name id = program.typeWithin? name id := by
  have hany : (program'.symbol? id).any (·.name == name) = (program.symbol? id).any (·.name == name) := by
    simpa only [Option.any_map, Function.comp_def] using congrArg (·.any (· == name)) hname
  rw [typeWithin?, hany, h.memberClass?_eq, typeWithin?]

variable {fromClass : SymbolId} (hnames : ∀ around ∈ program.enclosing fromClass,
  (program'.symbol? around).map (·.name) = (program.symbol? around).map (·.name))
include hnames

theorem findSimpleType?_eq (name : String) :
    program'.findSimpleType? fromClass name = program.findSimpleType? fromClass name := by
  have hwithin : (program.enclosing fromClass).findSome? (program'.typeWithin? name) =
      (program.enclosing fromClass).findSome? (program.typeWithin? name) := by
    rw [← List.head?_filterMap, ← List.head?_filterMap]
    refine congrArg List.head? (List.filterMap_congr fun around haround => ?_)
    exact h.typeWithin?_eq (hnames around haround) name
  rw [findSimpleType?, findSimpleType?, h.enclosing_eq, hwithin, h.topLevel, h.imports, h.qualified, h.library]

theorem findType?_eq (name : String) : program'.findType? fromClass name = program.findType? fromClass name := by
  have hmember : program'.memberClass? = program.memberClass? :=
    funext fun id => funext fun name => h.memberClass?_eq id name
  simp only [findType?, h.findQualified?_eq, h.findSimpleType?_eq hnames, hmember]

end Alike

section Queries

variable (move : Span → Span) (program : Program)

@[simp] theorem symbol?_recast (id : SymbolId) :
    (program.recast move).symbol? id = (program.symbol? id).map (·.recast (moveAt move id)) :=
  Array.getElem?_mapIdx

@[simp] theorem use?_recast (node : NodeId) : (program.recast move).use? node = program.use? node := rfl

theorem alike_recast : program.Alike (program.recast move) where
  size_eq := Array.size_mapIdx
  classInfo?_eq id := by
    simp only [classInfo?, symbol?_recast]
    cases program.symbol? id with
    | none => rfl
    | some symbol => exact symbol.classInfo?_recast _
  hasArity_eq arity id := by simp [hasArity, Option.any_map]
  package := rfl
  topLevel := rfl
  qualified := rfl
  library := rfl
  imports := rfl

@[simp] theorem size_symbols_recast : (program.recast move).symbols.size = program.symbols.size :=
  (program.alike_recast move).size_eq

@[simp] theorem classInfo?_recast (id : SymbolId) :
    (program.recast move).classInfo? id = program.classInfo? id :=
  (program.alike_recast move).classInfo?_eq id

@[simp] theorem outerClass?_recast (id : SymbolId) :
    (program.recast move).outerClass? id = program.outerClass? id :=
  (program.alike_recast move).outerClass?_eq id

@[simp] theorem qualifiedName?_recast (id : SymbolId) :
    (program.recast move).qualifiedName? id = program.qualifiedName? id :=
  (program.alike_recast move).qualifiedName?_eq id

@[simp] theorem superclass?_recast (id : SymbolId) :
    (program.recast move).superclass? id = program.superclass? id :=
  (program.alike_recast move).superclass?_eq id

@[simp] theorem ancestors_recast (id : SymbolId) :
    (program.recast move).ancestors id = program.ancestors id :=
  (program.alike_recast move).ancestors_eq id

@[simp] theorem enclosing_recast (id : SymbolId) :
    (program.recast move).enclosing id = program.enclosing id :=
  (program.alike_recast move).enclosing_eq id

@[simp] theorem members_recast (id : SymbolId) :
    (program.recast move).members id = program.members id :=
  (program.alike_recast move).members_eq id

@[simp] theorem findField?_recast (id : SymbolId) (name : String) :
    (program.recast move).findField? id name = program.findField? id name :=
  (program.alike_recast move).findField?_eq id name

@[simp] theorem memberClass?_recast (id : SymbolId) (name : String) :
    (program.recast move).memberClass? id name = program.memberClass? id name :=
  (program.alike_recast move).memberClass?_eq id name

@[simp] theorem hasArity_recast (arity : Nat) (id : SymbolId) :
    (program.recast move).hasArity arity id = program.hasArity arity id :=
  (program.alike_recast move).hasArity_eq arity id

@[simp] theorem findMethod?_recast (id : SymbolId) (name : String) (arity : Nat) :
    (program.recast move).findMethod? id name arity = program.findMethod? id name arity :=
  (program.alike_recast move).findMethod?_eq id name arity

@[simp] theorem findMember?_recast (id : SymbolId) (name : String) :
    (program.recast move).findMember? id name = program.findMember? id name :=
  (program.alike_recast move).findMember?_eq id name

@[simp] theorem findType?_recast (fromClass : SymbolId) (name : String) :
    (program.recast move).findType? fromClass name = program.findType? fromClass name := by
  refine (program.alike_recast move).findType?_eq (fun around _ => ?_) name
  simp [Function.comp_def]

@[simp] theorem typeOf?_recast (id : SymbolId) :
    (program.recast move).typeOf? id = program.typeOf? id := by
  simp only [typeOf?, symbol?_recast]
  cases program.symbol? id with
  | none => rfl
  | some symbol => simp

@[simp] theorem isSubclass_recast (id ancestor : SymbolId) :
    (program.recast move).isSubclass id ancestor = program.isSubclass id ancestor :=
  (program.alike_recast move).isSubclass_eq id ancestor

@[simp] theorem isSubtype_recast (id : SymbolId) (qualifiedName : String) :
    (program.recast move).isSubtype id qualifiedName = program.isSubtype id qualifiedName :=
  (program.alike_recast move).isSubtype_eq id qualifiedName

theorem spanOf_recast {id : SymbolId} (h : program.Own id) :
    (program.recast move).spanOf id = move (program.spanOf id) := by
  obtain ⟨symbol, hsymbol⟩ : ∃ symbol, program.symbol? id = some symbol :=
    ⟨_, Array.getElem?_eq_getElem h.2⟩
  rw [spanOf, symbol?_recast, hsymbol, moveAt_of_le move h.1, spanOf, hsymbol]
  rfl

end Queries

/-! ### Programs that match -/

/-- One program is the other one with its spans moved, up to monitors. In both the library is set apart. -/
structure Matches (move : Span → Span) (program program' : Program) : Prop where
  recast_eq : program'.recast id = program.recast move
  size_le : Library.size ≤ program.symbols.size
  apart : program.SetApart

namespace Matches

variable {move : Span → Span} {program program' : Program}

theorem symbol?_map (h : program.Matches move program') (symbol : SymbolId) :
    (program'.symbol? symbol).map (·.recast id) =
      (program.symbol? symbol).map (·.recast (moveAt move symbol)) := by
  rw [← symbol?_recast, ← h.recast_eq, symbol?_recast, moveAt_id]

theorem use?_eq (h : program.Matches move program') (node : NodeId) :
    program'.use? node = program.use? node := by
  rw [← use?_recast id, h.recast_eq, use?_recast]

theorem size_eq (h : program.Matches move program') :
    program'.symbols.size = program.symbols.size := by
  rw [← size_symbols_recast id, h.recast_eq, size_symbols_recast]

/-- What does not depend on spans and monitors is the same for programs that match. -/
theorem congr {α : Type} (h : program.Matches move program') (query : Program → α)
    (hquery : ∀ move program, query (recast move program) = query program) :
    query program' = query program := by
  rw [← hquery id, h.recast_eq, hquery]

end Matches

end Program
end LockDiscipline
