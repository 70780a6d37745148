import LockDiscipline.Proofs.Program.Retention
/-!
# Lookups that later declarations leave alone

Where bodies hold no classes, resolving them declares variables and records uses, and nothing else.
`Program.SameClasses` says of two programs that the later one is the earlier with more of that. All
lookups in classes have the same results in both. The searches behind these lookups are bounded by
the number of symbols, which may differ; so a bound that suffices is shown to be as good as any
greater one.
-/

namespace LockDiscipline.Program

variable {program later latest : Program}

/-! ### Programs with the same classes -/

/-- Two programs have the same classes and names, and the symbols of the first are in the second. -/
structure SameClasses (program later : Program) : Prop where
  size_le : program.symbols.size ≤ later.symbols.size
  symbol? : ∀ {id symbol}, program.symbol? id = some symbol → later.symbol? id = some symbol
  classInfo? : ∀ id, later.classInfo? id = program.classInfo? id
  topLevel : later.topLevel = program.topLevel
  qualified : later.qualified = program.qualified
  library : later.library = program.library
  imports : later.imports = program.imports
  package : later.package = program.package

namespace SameClasses

theorem refl (program : Program) : program.SameClasses program :=
  ⟨Nat.le_refl _, fun h => h, fun _ => rfl, rfl, rfl, rfl, rfl, rfl⟩

theorem trans (hfirst : program.SameClasses later) (hsecond : later.SameClasses latest) :
    program.SameClasses latest where
  size_le := Nat.le_trans hfirst.size_le hsecond.size_le
  symbol? hsymbol := hsecond.symbol? (hfirst.symbol? hsymbol)
  classInfo? id := (hsecond.classInfo? id).trans (hfirst.classInfo? id)
  topLevel := hsecond.topLevel.trans hfirst.topLevel
  qualified := hsecond.qualified.trans hfirst.qualified
  library := hsecond.library.trans hfirst.library
  imports := hsecond.imports.trans hfirst.imports
  package := hsecond.package.trans hfirst.package

theorem of_change (h : program.Change False later) : program.SameClasses later := by
  cases h with
  | use | problem => exact ⟨Nat.le_refl _, fun h => h, fun _ => rfl, rfl, rfl, rfl, rfl, rfl⟩
  | «variable» name kind type span hkind =>
      refine ⟨by rw [size_declare]; exact Nat.le_succ _, fun hsymbol => ?_, fun id => ?_, rfl, rfl,
        rfl, rfl, rfl⟩
      · rw [symbol?_declare, if_neg (Nat.ne_of_lt (lt_size_of_symbol?_eq_some hsymbol)), hsymbol]
      · exact Change.classInfo?_eq (.variable name kind type span hkind) id
  | field _ _ _ _ _ _ hclasses => exact hclasses.elim
  | method _ _ _ _ _ _ _ _ hclasses => exact hclasses.elim
  | classType _ _ _ hclasses => exact hclasses.elim
  | table _ _ hclasses => exact hclasses.elim
  | supertypes _ _ _ hclasses => exact hclasses.elim
  | topLevel _ hclasses => exact hclasses.elim

/-- Changes that concern no classes leave all classes the same. -/
theorem of_grows (h : Grows False program later) : program.SameClasses later := by
  induction h with
  | refl => exact refl program
  | tail _ hchange ih => exact ih.trans (of_change hchange)

variable (h : program.SameClasses later)
include h

theorem supertypes_eq (id : SymbolId) : later.supertypes id = program.supertypes id := by
  rw [supertypes, supertypes, h.classInfo?]

theorem outerClass?_eq (id : SymbolId) : later.outerClass? id = program.outerClass? id := by
  rw [outerClass?, outerClass?, h.classInfo?]

theorem members_eq (id : SymbolId) : later.members id = program.members id := by
  rw [members, members, h.classInfo?]

theorem isClass_iff (id : SymbolId) : later.IsClass id ↔ program.IsClass id := by
  rw [IsClass, IsClass, h.classInfo?]

theorem searchSupertypes_eq (steps : Nat) (pending seen : List SymbolId) :
    later.searchSupertypes steps pending seen = program.searchSupertypes steps pending seen := by
  induction steps generalizing pending seen with
  | zero => rfl
  | succ steps ih =>
      cases pending with
      | nil => rfl
      | cons id pending => rw [searchSupertypes, searchSupertypes, h.supertypes_eq, ih]

theorem enclosingUpTo_eq (steps : Nat) (id : SymbolId) :
    later.enclosingUpTo steps id = program.enclosingUpTo steps id := by
  induction steps generalizing id with
  | zero => rfl
  | succ steps ih =>
      rw [enclosingUpTo, enclosingUpTo, h.outerClass?_eq]
      cases program.outerClass? id with
      | none => rfl
      | some outer => dsimp only; rw [ih]

variable (hprogram : program.WellFormed)
include hprogram

theorem ancestors_eq (id : SymbolId) : later.ancestors id = program.ancestors id := by
  rw [ancestors, ancestors, h.searchSupertypes_eq]
  obtain ⟨more, hmore⟩ := Nat.exists_eq_add_of_le h.size_le
  rw [hmore, Nat.add_right_comm]
  by_cases hid : id < program.symbols.size
  · refine searchSupertypes_add (fun _ _ h => hprogram.supertype_lt _ h) more _ ?_
      (List.nodup_singleton id) ?_
    · exact List.forall_mem_singleton.mpr hid
    · rw [List.length_singleton]
      omega
  · -- What is no symbol has no supertypes.
    have hnone : program.supertypes id = [] := by
      rw [supertypes, Program.classInfo?, symbol?_eq_none_of_le (Nat.le_of_not_lt hid)]
      rfl
    have halone (steps : Nat) : program.searchSupertypes (steps + 1) [id] [id] = [id] := by
      rw [searchSupertypes, hnone]
      cases steps <;> rfl
    rw [Nat.succ_add, halone, halone]

theorem enclosing_eq {id : SymbolId} (hid : id < program.symbols.size) :
    later.enclosing id = program.enclosing id := by
  rw [enclosing, enclosing, h.enclosingUpTo_eq]
  obtain ⟨more, hmore⟩ := Nat.exists_eq_add_of_le h.size_le
  rw [hmore, Nat.add_right_comm]
  exact hprogram.enclosingUpTo_add more (Nat.lt_succ_of_lt hid)

theorem findField?_eq (id : SymbolId) (name : String) :
    later.findField? id name = program.findField? id name := by
  simp only [findField?, h.ancestors_eq hprogram, h.members_eq]

theorem memberClass?_eq (id : SymbolId) (name : String) :
    later.memberClass? id name = program.memberClass? id name := by
  simp only [memberClass?, h.ancestors_eq hprogram, h.members_eq]

theorem methodsNamed_eq (id : SymbolId) (name : String) :
    later.methodsNamed id name = program.methodsNamed id name := by
  simp only [methodsNamed, h.ancestors_eq hprogram, h.members_eq]

theorem findMethod?_eq (id : SymbolId) (name : String) (arity : Nat) :
    later.findMethod? id name arity = program.findMethod? id name arity := by
  have harity : (program.methodsNamed id name).find? (later.hasArity arity) =
      (program.methodsNamed id name).find? (program.hasArity arity) := by
    refine List.find?_congr fun method hmethod => ?_
    obtain ⟨symbol, _, hinherits, -⟩ := hprogram.mem_methodsNamed hmethod
    rw [hasArity, hasArity, hinherits.symbol_eq, h.symbol? hinherits.symbol_eq]
  rw [findMethod?, findMethod?, h.methodsNamed_eq hprogram, harity]

omit hprogram in
theorem findQualified?_eq (name : String) :
    later.findQualified? name = program.findQualified? name := by
  rw [findQualified?, findQualified?, h.qualified, h.package]

theorem typeWithin?_eq (name : String) {id : SymbolId} (hid : id < program.symbols.size) :
    later.typeWithin? name id = program.typeWithin? name id := by
  obtain ⟨symbol, hsymbol⟩ : ∃ symbol, program.symbol? id = some symbol :=
    ⟨_, Array.getElem?_eq_getElem hid⟩
  rw [typeWithin?, typeWithin?, h.memberClass?_eq hprogram, hsymbol, h.symbol? hsymbol]

variable {scope : SymbolId} (hscope : scope < program.symbols.size)
include hscope

theorem findSimpleType?_eq (name : String) :
    later.findSimpleType? scope name = program.findSimpleType? scope name := by
  have hwithin : (program.enclosing scope).findSome? (later.typeWithin? name) =
      (program.enclosing scope).findSome? (program.typeWithin? name) := by
    rw [← List.head?_filterMap, ← List.head?_filterMap]
    refine congrArg List.head? (List.filterMap_congr fun around haround => ?_)
    exact h.typeWithin?_eq hprogram name
      (Nat.lt_of_le_of_lt (hprogram.le_of_mem_enclosingUpTo haround) hscope)
  rw [findSimpleType?, findSimpleType?, h.enclosing_eq hprogram hscope, hwithin, h.topLevel,
    h.imports, h.qualified, h.library]

theorem findType?_eq (name : String) :
    later.findType? scope name = program.findType? scope name := by
  have hmember : later.memberClass? = program.memberClass? :=
    funext fun id => funext fun name => h.memberClass?_eq hprogram id name
  rw [findType?, findType?]
  split
  · simp only [h.findQualified?_eq, h.findSimpleType?_eq hprogram hscope, hmember]
  · exact h.findSimpleType?_eq hprogram hscope name

omit hscope in
/-- The class of a symbol does not change if the symbol stands in a class. -/
theorem typeOf?_eq {id : SymbolId} {symbol : NamedSymbol} (hsymbol : program.symbol? id = some symbol)
    (hcontext : symbol.contextClass < program.symbols.size) :
    later.typeOf? id = program.typeOf? id := by
  simp only [typeOf?, hsymbol, h.symbol? hsymbol, Option.bind_eq_bind, Option.bind_some,
    h.findType?_eq hprogram hcontext]

end SameClasses

end LockDiscipline.Program
