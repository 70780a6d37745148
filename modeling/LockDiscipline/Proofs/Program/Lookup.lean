import LockDiscipline.Program.Library
import LockDiscipline.Proofs.Program.Footprints
import LockDiscipline.Proofs.Text.Dotted
/-!
# What the lookups find

The lookups of a well-formed program find symbols that there are, and the members that they find are
fields and methods of a class that was searched. The library is well-formed, so every program that
grows from it is.
-/

namespace LockDiscipline

/-- What belongs to a class as a member is no class. -/
theorem NamedSymbol.classInfo?_eq_none_of_owner? (symbol : NamedSymbol) {owner : SymbolId}
    (h : symbol.owner? = some owner) : symbol.classInfo? = none := by
  rw [owner?] at h
  rw [classInfo?]
  cases hkind : symbol.kind with
  | classType info => rw [hkind] at h; cases h
  | _ => rfl

theorem NamedSymbol.classInfo?_eq_none_of_isVariable (symbol : NamedSymbol)
    (h : symbol.isVariable) : symbol.classInfo? = none := by
  rw [isVariable] at h
  rw [classInfo?]
  split at h
  · simp [*]
  · simp [*]
  · cases h

theorem NamedSymbol.classInfo?_eq_none_of_isField (symbol : NamedSymbol) (h : symbol.isField) :
    symbol.classInfo? = none := by
  rw [isField] at h
  rw [classInfo?]
  split at h
  · simp [*]
  · cases h

theorem NamedSymbol.classInfo?_eq_none_of_isMethod (symbol : NamedSymbol) (h : symbol.isMethod) :
    symbol.classInfo? = none := by
  rw [isMethod] at h
  rw [classInfo?]
  split at h
  · simp [*]
  · cases h

theorem NamedSymbol.not_isField_of_isMethod (symbol : NamedSymbol) (h : symbol.isMethod) :
    ¬symbol.isField := by
  rw [isMethod] at h
  rw [isField]
  split at h
  · simp [*]
  · cases h

theorem NamedSymbol.isVariable_eq_false_of_isField (symbol : NamedSymbol) (h : symbol.isField) :
    symbol.isVariable = false := by
  rw [isField] at h
  rw [isVariable]
  split at h
  · simp [*]
  · cases h

theorem NamedSymbol.isVariable_eq_false_of_isMethod (symbol : NamedSymbol) (h : symbol.isMethod) :
    symbol.isVariable = false := by
  rw [isMethod] at h
  rw [isVariable]
  split at h
  · simp [*]
  · cases h

theorem NamedSymbol.isVariable_eq_false_of_isClass (symbol : NamedSymbol) (h : symbol.isClass) :
    symbol.isVariable = false := by
  cases hvariable : symbol.isVariable with
  | false => rfl
  | true =>
      rw [isClass, symbol.classInfo?_eq_none_of_isVariable hvariable] at h
      cases h

namespace Program

variable {program : Program}

theorem mem_of_lookup_eq_some {β : Type} {name : String} {entries : List (String × β)} {value : β}
    (h : entries.lookup name = some value) : (name, value) ∈ entries := by
  obtain ⟨before, after, rfl, -⟩ := List.lookup_eq_some_iff.mp h
  simp

/-- Only a class has members. -/
theorem isClass_of_mem_members {owner : SymbolId}
    (h : (∃ entry, entry ∈ (program.members owner).fields) ∨
      ∃ entry, entry ∈ (program.members owner).methods) : program.IsClass owner := by
  cases hinfo : program.classInfo? owner with
  | none =>
      rw [members_eq_default hinfo] at h
      rcases h with ⟨_, h⟩ | ⟨_, h⟩ <;> cases h
  | some info => exact ⟨info, hinfo⟩

/-- Only a class inherits from another one. -/
theorem isClass_of_isSubclass {id ancestor : SymbolId} (h : program.isSubclass id ancestor)
    (hclass : program.IsClass ancestor) : program.IsClass id := by
  cases hinfo : program.classInfo? id with
  | some info => exact ⟨info, hinfo⟩
  | none =>
      have hnil : program.supertypes id = [] := by rw [supertypes, hinfo]
      have hself : program.ancestors id = [id] := by
        rw [ancestors, searchSupertypes, hnil]
        cases program.symbols.size <;> rfl
      rw [isSubclass, hself, List.contains_iff_mem, List.mem_singleton] at h
      exact h ▸ hclass

/-- A name without dots is looked up as a simple one. -/
theorem findType?_of_isSegment {name : String} (h : Text.IsSegment name) (fromClass : SymbolId) :
    program.findType? fromClass name = program.findSimpleType? fromClass name := by
  rw [findType?, Text.segments_of_isSegment h]

/-- A symbol is what a class declares or inherits: a member of it or of one of its supertypes. -/
structure Inherits (program : Program) (type id : SymbolId) (symbol : NamedSymbol)
    (owner : SymbolId) : Prop where
  symbol_eq : program.symbol? id = some symbol
  owner_eq : symbol.owner? = some owner
  context_eq : symbol.contextClass = owner
  isClass : program.IsClass owner
  isSubclass : program.isSubclass type owner

namespace WellFormed

variable (hprogram : program.WellFormed)
include hprogram

/-- A field that is found is declared by the class or inherited. -/
theorem findField? {type id : SymbolId} {name : String}
    (h : program.findField? type name = some id) :
    ∃ symbol owner, program.Inherits type id symbol owner ∧
      (program.members owner).fields.lookup name = some id ∧ symbol.isField := by
  obtain ⟨owner, howner, hlookup⟩ := List.exists_of_findSome?_eq_some h
  have hmem := mem_of_lookup_eq_some hlookup
  obtain ⟨symbol, isStatic, hsymbol, -, hkind⟩ := (hprogram.table owner).field _ hmem
  refine ⟨symbol, owner, ⟨hsymbol, ?_, ?_, isClass_of_mem_members (.inl ⟨_, hmem⟩),
    List.contains_iff_mem.mpr howner⟩, hlookup, ?_⟩
  · rw [NamedSymbol.owner?, hkind]
  · rw [NamedSymbol.contextClass, hkind]
  · rw [NamedSymbol.isField, hkind]

theorem mem_methodsNamed {type id : SymbolId} {name : String}
    (h : id ∈ program.methodsNamed type name) :
    ∃ symbol owner, program.Inherits type id symbol owner ∧
      (name, id) ∈ (program.members owner).methods ∧ symbol.isMethod := by
  obtain ⟨owner, howner, hmem⟩ := List.mem_flatMap.mp h
  obtain ⟨⟨method, _⟩, hentry, rfl⟩ := List.mem_map.mp hmem
  obtain ⟨htable, hname⟩ := List.mem_filter.mp hentry
  obtain rfl : method = name := by simpa using hname
  obtain ⟨symbol, isStatic, isSynchronized, arity, hsymbol, -, hkind⟩ :=
    (hprogram.table owner).method _ htable
  refine ⟨symbol, owner, ⟨hsymbol, ?_, ?_, isClass_of_mem_members (.inr ⟨_, htable⟩),
    List.contains_iff_mem.mpr howner⟩, htable, ?_⟩
  · rw [NamedSymbol.owner?, hkind]
  · rw [NamedSymbol.contextClass, hkind]
  · rw [NamedSymbol.isMethod, hkind]

theorem findMethod? {type id : SymbolId} {name : String} {arity : Nat}
    (h : program.findMethod? type name arity = some id) :
    ∃ symbol owner, program.Inherits type id symbol owner ∧
      (name, id) ∈ (program.members owner).methods ∧ symbol.isMethod := by
  rw [Program.findMethod?, Option.or_eq_some_iff] at h
  rcases h with h | ⟨-, h⟩
  · exact hprogram.mem_methodsNamed (List.mem_of_find?_eq_some h)
  · exact hprogram.mem_methodsNamed (List.mem_of_head? h)

/-- A field that is found bears the name that was looked for. -/
theorem findField?_name {type id : SymbolId} {name : String}
    (h : program.findField? type name = some id) :
    ∃ symbol, program.symbol? id = some symbol ∧ symbol.name = name ∧ symbol.isField := by
  obtain ⟨symbol, owner, hinherits, hlookup, hfield⟩ := hprogram.findField? h
  obtain ⟨symbol', isStatic, hsymbol, hname, -⟩ :=
    (hprogram.table owner).field _ (mem_of_lookup_eq_some hlookup)
  obtain rfl := Option.some.inj (hinherits.symbol_eq.symm.trans hsymbol)
  exact ⟨symbol, hsymbol, hname, hfield⟩

theorem memberClass?_isClass {type id : SymbolId} {name : String}
    (h : program.memberClass? type name = some id) : program.IsClass id := by
  obtain ⟨owner, -, hlookup⟩ := List.exists_of_findSome?_eq_some h
  exact (hprogram.table owner).isClass _ (mem_of_lookup_eq_some hlookup)

theorem findSimpleType?_cases {scope id : SymbolId} {name : String}
    (h : program.findSimpleType? scope name = some id) : program.IsClass id ∨
      id ∈ program.enclosing scope ∧ id < program.symbols.size := by
  simp only [findSimpleType?, Option.or_eq_some_iff, Option.bind_eq_some_iff] at h
  rcases h with h | ⟨-, h | ⟨-, ⟨full, -, h⟩ | ⟨-, h | ⟨-, h⟩⟩⟩⟩
  · obtain ⟨type, htype, hwithin⟩ := List.exists_of_findSome?_eq_some h
    rw [typeWithin?] at hwithin
    split at hwithin
    case isTrue hany =>
      obtain ⟨symbol, hsymbol, -⟩ := (Option.any_eq_true _ _).mp hany
      obtain rfl := Option.some.inj hwithin
      exact .inr ⟨htype, lt_size_of_symbol?_eq_some hsymbol⟩
    case isFalse => exact .inl (hprogram.memberClass?_isClass hwithin)
  · exact .inl (hprogram.topLevel_class _ (mem_of_lookup_eq_some h))
  · exact .inl (hprogram.qualified_class _ (mem_of_lookup_eq_some h))
  · exact .inl (hprogram.library_class _ (mem_of_lookup_eq_some h))
  · exact .inl (hprogram.qualified_class _ (mem_of_lookup_eq_some h))

theorem findQualified?_isClass {id : SymbolId} {name : String}
    (h : program.findQualified? name = some id) : program.IsClass id := by
  simp only [findQualified?, Option.or_eq_some_iff, Option.bind_eq_some_iff] at h
  rcases h with h | ⟨-, _, -, h⟩ <;> exact hprogram.qualified_class _ (mem_of_lookup_eq_some h)

theorem foldlM_memberClass?_isClass {first id : SymbolId} {name : String} {names : List String}
    (h : (name :: names).foldlM program.memberClass? first = some id) : program.IsClass id := by
  induction names generalizing first name with
  | nil =>
      obtain ⟨next, hnext, hrest⟩ := Option.bind_eq_some_iff.mp h
      obtain rfl := Option.some.inj hrest
      exact hprogram.memberClass?_isClass hnext
  | cons other names ih =>
      obtain ⟨next, -, hrest⟩ := Option.bind_eq_some_iff.mp h
      exact ih hrest

/-- A type that is found is a class, or one of the classes around the place by its symbol. -/
theorem findType?_cases {scope id : SymbolId} {name : String}
    (h : program.findType? scope name = some id) : program.IsClass id ∨
      id ∈ program.enclosing scope ∧ id < program.symbols.size := by
  rw [findType?] at h
  split at h
  case h_2 => exact hprogram.findSimpleType?_cases h
  case h_1 head next rest _ =>
    simp only [Option.or_eq_some_iff, Option.bind_eq_bind, Option.bind_eq_some_iff] at h
    rcases h with h | ⟨-, first, -, hfold⟩
    · exact .inl (hprogram.findQualified?_isClass h)
    · exact .inl (hprogram.foldlM_memberClass?_isClass hfold)

/-- A type that is found is a symbol that there is. -/
theorem findType?_lt {scope id : SymbolId} {name : String}
    (h : program.findType? scope name = some id) : id < program.symbols.size := by
  rcases hprogram.findType?_cases h with hclass | ⟨-, hlt⟩
  · exact hclass.lt_size
  · exact hlt

/-- A type that is found from inside classes is a class. -/
theorem findType?_isClass {scope id : SymbolId} {name : String}
    (henclosing : ∀ around ∈ program.enclosing scope, program.IsClass around)
    (h : program.findType? scope name = some id) : program.IsClass id := by
  rcases hprogram.findType?_cases h with hclass | ⟨hmem, -⟩
  · exact hclass
  · exact henclosing id hmem

end WellFormed

/-! ### The library -/

theorem WellFormed.empty (package : Option String) : (Program.empty package).WellFormed where
  id_eq h := by simp [Program.empty, symbol?] at h
  outer_lt _ _ h := by simp [Program.empty, outerClass?, classInfo?, symbol?] at h
  supertype_lt _ _ h := by simp [Program.empty, supertypes, classInfo?, symbol?] at h
  table id := by
    rw [members_eq_default (by simp [Program.empty, classInfo?, symbol?])]
    exact .default _ id
  topLevel_class _ h := absurd h List.not_mem_nil
  qualified_class _ h := absurd h List.not_mem_nil
  library_class _ h := absurd h List.not_mem_nil

/-- The names of a program may be replaced by others that refer to classes. -/
theorem WellFormed.withNames (hprogram : program.WellFormed)
    {qualified library : List (String × SymbolId)} (imports : List (String × String))
    (hqualified : ∀ entry ∈ qualified, program.IsClass entry.2)
    (hlibrary : ∀ entry ∈ library, program.IsClass entry.2) :
    { program with qualified, library, imports }.WellFormed :=
  ⟨hprogram.id_eq, hprogram.outer_lt, hprogram.supertype_lt,
    fun id => (hprogram.table id).mono (fun h _ => h) fun h => h, hprogram.topLevel_class, hqualified,
    hlibrary⟩

theorem WellFormed.declareLibraryMethod (hprogram : program.WellFormed) (owner : SymbolId)
    (method : String × String) : (Library.declareMethod owner program method).WellFormed :=
  hprogram.addMethod method.1 owner false false 0 (some method.2) none default

theorem WellFormed.declareLibraryClass (hprogram : program.WellFormed)
    (decl : Library.LibraryClass) : (Library.declareClass program decl).WellFormed := by
  refine List.foldlRecOn decl.methods _ ?_ fun _ h method _ => h.declareLibraryMethod _ method
  refine WellFormed.withNames (hprogram.declare _ _ _ _ _ fun info h => ?_) _ ?_ ?_
  · obtain rfl := SymbolKind.classType.inj h
    refine ⟨fun _ h => (nomatch h), fun supertype h => ?_, rfl⟩
    obtain ⟨name, -, hname⟩ := List.mem_filterMap.mp h
    exact (hprogram.qualified_class _ (mem_of_lookup_eq_some hname)).lt_size
  all_goals
    intro entry hentry
    rcases List.mem_append.mp hentry with hentry | hentry
  · exact (hprogram.qualified_class entry hentry).declare ..
  · obtain rfl := List.mem_singleton.mp hentry
    exact ⟨_, (classInfo?_declare ..).trans (if_pos rfl)⟩
  · exact (hprogram.library_class entry hentry).declare ..
  · obtain rfl := List.mem_singleton.mp hentry
    exact ⟨_, (classInfo?_declare ..).trans (if_pos rfl)⟩

/-- The program from which the names of a unit are resolved is well-formed. -/
theorem WellFormed.library (package : Option String) (imports : List (String × String)) :
    { Library.declareAll (.empty package) with imports }.WellFormed := by
  have hlibrary : (Library.declareAll (.empty package)).WellFormed :=
    List.foldlRecOn Library.classes _ (.empty package) fun _ h decl _ => h.declareLibraryClass decl
  exact hlibrary.withNames imports hlibrary.qualified_class hlibrary.library_class

end Program
end LockDiscipline
