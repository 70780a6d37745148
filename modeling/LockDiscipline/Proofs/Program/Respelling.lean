import LockDiscipline.Proofs.Program.Around
import LockDiscipline.Proofs.Program.Recast
/-!
# Programs with a variable respelled

What classes there are in a program and what they have does not depend on what its variables are called. So
whatever is asked of the classes of a program has the same answer when one variable bears another name, and classes
are declared and linked alike. What a bare name means is the same as long as it is not the new name, and where it
was the variable the new name means the variable now.
-/

namespace LockDiscipline

/-- A variable with the name that it has and the name that it gets. -/
structure Respelling where
  symbol : SymbolId
  old : String
  new : String

/-! ### Symbols -/

namespace NamedSymbol

/-- A symbol, under the new name if it is the variable. -/
def respell (respelling : Respelling) (symbol : NamedSymbol) : NamedSymbol :=
  if symbol.id = respelling.symbol ∧ symbol.isVariable then { symbol with name := respelling.new } else symbol

variable (respelling : Respelling) (symbol : NamedSymbol)

@[simp] theorem id_respell : (symbol.respell respelling).id = symbol.id := by
  rw [respell]
  split <;> rfl

@[simp] theorem kind_respell : (symbol.respell respelling).kind = symbol.kind := by
  rw [respell]
  split <;> rfl

@[simp] theorem type_respell : (symbol.respell respelling).type = symbol.type := by
  rw [respell]
  split <;> rfl

@[simp] theorem guard_respell : (symbol.respell respelling).guard = symbol.guard := by
  rw [respell]
  split <;> rfl

@[simp] theorem span_respell : (symbol.respell respelling).span = symbol.span := by
  rw [respell]
  split <;> rfl

@[simp] theorem classInfo?_respell : (symbol.respell respelling).classInfo? = symbol.classInfo? := by
  rw [classInfo?, kind_respell, classInfo?]

@[simp] theorem owner?_respell : (symbol.respell respelling).owner? = symbol.owner? := by
  rw [owner?, kind_respell, owner?]

@[simp] theorem isClass_respell : (symbol.respell respelling).isClass = symbol.isClass := by
  rw [isClass, classInfo?_respell, isClass]

@[simp] theorem isField_respell : (symbol.respell respelling).isField = symbol.isField := by
  rw [isField, kind_respell, isField]

@[simp] theorem isMethod_respell : (symbol.respell respelling).isMethod = symbol.isMethod := by
  rw [isMethod, kind_respell, isMethod]

@[simp] theorem isMethodOfArity_respell (count : Nat) :
    (symbol.respell respelling).isMethodOfArity count = symbol.isMethodOfArity count := by
  rw [isMethodOfArity, kind_respell, isMethodOfArity]

@[simp] theorem isStatic_respell : (symbol.respell respelling).isStatic = symbol.isStatic := by
  rw [isStatic, kind_respell, isStatic]

@[simp] theorem isSynchronized_respell : (symbol.respell respelling).isSynchronized = symbol.isSynchronized := by
  rw [isSynchronized, kind_respell, isSynchronized]

@[simp] theorem isVariable_respell : (symbol.respell respelling).isVariable = symbol.isVariable := by
  rw [isVariable, kind_respell, isVariable]

@[simp] theorem contextClass_respell : (symbol.respell respelling).contextClass = symbol.contextClass := by
  rw [contextClass, kind_respell, id_respell, contextClass]

variable {symbol}

theorem respell_of_not_variable (h : symbol.isVariable = false) : symbol.respell respelling = symbol :=
  if_neg fun hrespelled => by
    rw [h] at hrespelled
    exact Bool.false_ne_true hrespelled.2

theorem respell_of_variable (h : symbol.isVariable) : symbol.respell respelling =
    { symbol with name := if symbol.id = respelling.symbol then respelling.new else symbol.name } := by
  rw [respell]
  by_cases hid : symbol.id = respelling.symbol
  · rw [if_pos ⟨hid, h⟩, if_pos hid]
  · rw [if_neg fun hrespelled => hid hrespelled.1, if_neg hid]

theorem respell_of_ne {respelling : Respelling} (h : symbol.id ≠ respelling.symbol) :
    symbol.respell respelling = symbol :=
  if_neg fun hrespelled => h hrespelled.1

end NamedSymbol

/-! ### Programs -/

namespace Program

/-- A program in which the variable has its new name. -/
def respell (respelling : Respelling) (program : Program) : Program :=
  { program with symbols := program.symbols.map (·.respell respelling) }

variable (respelling : Respelling) (program : Program)

@[simp] theorem symbol?_respell (id : SymbolId) :
    (program.respell respelling).symbol? id = (program.symbol? id).map (·.respell respelling) :=
  Array.getElem?_map

@[simp] theorem use?_respell (node : NodeId) : (program.respell respelling).use? node = program.use? node := rfl

theorem alike_respell : program.Alike (program.respell respelling) where
  size_eq := Array.size_map
  classInfo?_eq id := by
    simp only [classInfo?, symbol?_respell]
    cases program.symbol? id with
    | none => rfl
    | some symbol => exact symbol.classInfo?_respell respelling
  hasArity_eq arity id := by simp [hasArity, Option.any_map]
  package := rfl
  topLevel := rfl
  qualified := rfl
  library := rfl
  imports := rfl

theorem spanOf_respell (id : SymbolId) : (program.respell respelling).spanOf id = program.spanOf id := by
  rw [spanOf, symbol?_respell, Option.map_map, spanOf]
  congr 2
  funext symbol
  exact symbol.span_respell respelling

/-- A symbol that is declared bears its new name in the respelled program. -/
theorem respell_declare {name name' : String} {kind : SymbolKind} {type guard : Option String} {span : Span}
    (hname : (⟨program.symbols.size, name, kind, type, guard, span⟩ : NamedSymbol).respell respelling =
      ⟨program.symbols.size, name', kind, type, guard, span⟩) :
    (program.declare name kind type guard span).2.respell respelling =
      ((program.respell respelling).declare name' kind type guard span).2 := by
  simp only [declare, respell, Array.map_push, Array.size_map, hname]

theorem respell_updateClass (owner : SymbolId) (change : ClassInfo → ClassInfo) :
    (program.updateClass owner change).respell respelling = (program.respell respelling).updateClass owner change := by
  simp only [updateClass, respell, Program.mk.injEq, and_true]
  apply Array.ext_getElem?
  intro index
  simp only [Array.getElem?_map, Array.getElem?_modify]
  by_cases hindex : owner = index
  · simp only [if_pos hindex, Option.map_map]
    congr 1
    funext symbol
    obtain ⟨id, name, kind, type, guard, span⟩ := symbol
    by_cases hsymbol : id = respelling.symbol <;>
      cases kind <;> simp [NamedSymbol.respell, NamedSymbol.isVariable, hsymbol]
  · simp only [if_neg hindex]

/-- A class keeps its name. -/
theorem IsClass.symbol?_respell {program : Program} {id : SymbolId} (h : program.IsClass id) :
    (program.respell respelling).symbol? id = program.symbol? id := by
  obtain ⟨info, hinfo⟩ := h
  obtain ⟨symbol, hsymbol, hinfo⟩ := Option.bind_eq_some_iff.mp hinfo
  have hvariable : symbol.isVariable = false :=
    symbol.isVariable_eq_false_of_isClass (Option.isSome_iff_exists.mpr ⟨info, hinfo⟩)
  rw [Program.symbol?_respell, hsymbol, Option.map_some, symbol.respell_of_not_variable respelling hvariable]

/-! Where symbols lie in classes, types are found alike as well. -/

namespace InClasses

variable {program} (h : program.InClasses)
include h

/-- A type is found alike from inside a class. -/
theorem findType?_respell {type : SymbolId} (htype : program.IsClass type) (name : String) :
    (program.respell respelling).findType? type name = program.findType? type name := by
  refine (program.alike_respell respelling).findType?_eq (fun around haround => ?_) name
  rw [(h.isClass_of_mem_enclosing htype haround).symbol?_respell respelling]

/-- A symbol is of the same type. -/
theorem typeOf?_respell (id : SymbolId) : (program.respell respelling).typeOf? id = program.typeOf? id := by
  simp only [typeOf?, symbol?_respell]
  cases hsymbol : program.symbol? id with
  | none => rfl
  | some symbol =>
      simp only [Option.map_some, Option.bind_eq_bind, Option.bind_some, NamedSymbol.isClass_respell,
        NamedSymbol.type_respell, NamedSymbol.contextClass_respell]
      cases hclass : symbol.isClass with
      | true => rfl
      | false =>
          have hcontext := h hsymbol (NamedSymbol.around?_of_not_class hclass)
          simp only [h.findType?_respell respelling hcontext]

end InClasses

end Program

/-! ### Scopes -/

namespace ScopeItem

/-- What can give a name its meaning, with the new name for the variable. -/
def respell (respelling : Respelling) : ScopeItem → ScopeItem
  | .variable name id => .variable (if id = respelling.symbol then respelling.new else name) id
  | .classBody id => .classBody id

end ScopeItem

/-- A scope that binds the new name to the variable. -/
def Scope.respell (respelling : Respelling) (scope : Scope) : Scope :=
  { scope with
    bindings := scope.bindings.map fun binding =>
      (if binding.2 = respelling.symbol then respelling.new else binding.1, binding.2) }

theorem Scope.items_respell (respelling : Respelling) (scope : Scope) :
    (scope.respell respelling).items = scope.items.map (·.respell respelling) := by
  simp only [items, respell, List.map_append, List.map_map]
  rfl

namespace ScopeStack

/-- Scopes in which the new name is bound to the variable. -/
def respell (respelling : Respelling) (scopes : ScopeStack) : ScopeStack :=
  { scopes with
    inner := scopes.inner.map (·.respell respelling)
    file := scopes.file.respell respelling }

variable (respelling : Respelling) (scopes : ScopeStack)

theorem toList_respell : (scopes.respell respelling).toList = scopes.toList.map (·.respell respelling) := by
  rw [toList, toList, List.map_append]
  rfl

theorem items_respell : (scopes.respell respelling).items = scopes.items.map (·.respell respelling) := by
  simp only [items, toList_respell, List.flatMap_map, List.map_flatMap, Scope.items_respell]

@[simp] theorem enclosingClasses_respell :
    (scopes.respell respelling).enclosingClasses = scopes.enclosingClasses := by
  rw [enclosingClasses_eq, enclosingClasses_eq, items_respell, List.filterMap_map]
  congr 1
  funext item
  cases item <;> rfl

@[simp] theorem currentClass?_respell : (scopes.respell respelling).currentClass? = scopes.currentClass? := by
  rw [currentClass?, enclosingClasses_respell, currentClass?]

theorem respell_push (kind : ScopeKind) :
    (scopes.push kind).respell respelling = (scopes.respell respelling).push kind := rfl

theorem respell_pop : scopes.pop.respell respelling = (scopes.respell respelling).pop := by
  simp only [pop, respell, List.map_tail]

theorem respell_define (name : String) (id : SymbolId) : (scopes.define name id).respell respelling =
    (scopes.respell respelling).define (if id = respelling.symbol then respelling.new else name) id := by
  obtain ⟨inner, file, opened⟩ := scopes
  cases inner <;> rfl

/-- The new name is bound nowhere yet, and the variable only under its old name. -/
def Spells (respelling : Respelling) (scopes : ScopeStack) : Prop :=
  ∀ ⦃name id⦄, .variable name id ∈ scopes.items →
    name ≠ respelling.new ∧ (id = respelling.symbol → name = respelling.old)

variable {respelling scopes}

/-- A name that is not the new one and does not mean the variable means what it meant. -/
theorem lookup_respell {name : String} {field? : SymbolId → Option SymbolId} (hname : name ≠ respelling.new)
    (hfound : scopes.lookup name field? ≠ some respelling.symbol) :
    (scopes.respell respelling).lookup name field? = scopes.lookup name field? := by
  rw [lookup_eq] at hfound
  rw [lookup_eq, items_respell, List.findSome?_map, lookup_eq]
  generalize scopes.items = items at hfound ⊢
  induction items with
  | nil => rfl
  | cons item rest ih =>
      rw [List.findSome?_cons] at hfound
      rw [List.findSome?_cons, List.findSome?_cons, Function.comp_apply]
      cases item with
      | classBody id =>
          rw [ScopeItem.respell]
          cases hmeaning : ScopeItem.meaning? name field? (.classBody id) with
          | some _ => rfl
          | none =>
              rw [hmeaning] at hfound
              exact ih hfound
      | «variable» bound id =>
          rw [ScopeItem.respell, ScopeItem.meaning?, ScopeItem.meaning?]
          rw [ScopeItem.meaning?] at hfound
          by_cases hid : id = respelling.symbol
          · -- The variable is not found under this name, before or after.
            have hbound : bound ≠ name := by
              rintro rfl
              rw [if_pos rfl, hid] at hfound
              exact hfound rfl
            rw [if_neg hbound] at hfound
            rw [if_pos hid, if_neg hname.symm, if_neg hbound]
            exact ih hfound
          · rw [if_neg hid]
            by_cases hbound : bound = name
            · rw [if_pos hbound]
            · rw [if_neg hbound] at hfound
              rw [if_neg hbound]
              exact ih hfound

/-- Where a name meant the variable the new name means it, as no class has a field of the new name. -/
theorem lookup_respell_new {name : String} {field? field?' : SymbolId → Option SymbolId}
    (hspells : scopes.Spells respelling) (hfield : ∀ type, field? type ≠ some respelling.symbol)
    (hnew : ∀ type, field?' type = none) (hfound : scopes.lookup name field? = some respelling.symbol) :
    (scopes.respell respelling).lookup respelling.new field?' = some respelling.symbol := by
  rw [lookup_eq] at hfound
  rw [lookup_eq, items_respell, List.findSome?_map]
  rw [Spells] at hspells
  generalize scopes.items = items at hspells hfound ⊢
  induction items with
  | nil => cases hfound
  | cons item rest ih =>
      rw [List.findSome?_cons] at hfound
      rw [List.findSome?_cons, Function.comp_apply]
      have hrest := ih fun name id hmem => hspells (List.mem_cons_of_mem item hmem)
      cases item with
      | classBody id =>
          rw [ScopeItem.respell, ScopeItem.meaning?, hnew]
          rw [ScopeItem.meaning?] at hfound
          cases hmeaning : field? id with
          | some field =>
              rw [hmeaning] at hfound
              exact absurd (hmeaning.trans hfound) (hfield id)
          | none =>
              rw [hmeaning] at hfound
              exact hrest hfound
      | «variable» bound id =>
          obtain ⟨hbound, -⟩ := hspells List.mem_cons_self
          rw [ScopeItem.respell, ScopeItem.meaning?]
          rw [ScopeItem.meaning?] at hfound
          by_cases hid : id = respelling.symbol
          · rw [if_pos hid, if_pos rfl, hid]
          · rw [if_neg hid, if_neg hbound]
            by_cases hmeant : bound = name
            · rw [if_pos hmeant] at hfound
              exact absurd (Option.some.inj hfound) hid
            · rw [if_neg hmeant] at hfound
              exact hrest hfound

end ScopeStack

/-- A draft of the respelled program. -/
def Draft.respell {Notes : Type} (respelling : Respelling) (draft : Draft Notes) : Draft Notes :=
  { draft with
    program := draft.program.respell respelling
    scopes := draft.scopes.respell respelling }

end LockDiscipline
