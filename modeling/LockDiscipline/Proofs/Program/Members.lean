import LockDiscipline.Proofs.Program.LexicalScope
/-!
# Members are found by their names

A selection refers to a field, and a call to a method, of a class or of what the class inherits from. The
class is the one in which the resolver looks the member up: that of what stands before the dot, or for a
bare call the innermost class around that has a method of the name. Every method is in the table of its
class, so of the methods with the name that the class has, the one that is called takes as many arguments
as there are wherever one of them does.
-/

namespace LockDiscipline

namespace Program

variable {program later : Program}

/-! ### Every method is in a table -/

/-- Every method is in the table of its class. Unlike a field it is entered whatever the table has. -/
structure TablesMethods (program : Program) : Prop where
  mem_methods : ∀ {id symbol owner isStatic isSynchronized arity}, program.symbol? id = some symbol →
    symbol.kind = .method owner isStatic isSynchronized arity →
      (symbol.name, id) ∈ (program.members owner).methods

/-- Where no methods come about and no entries go away, every method stays in the table of its class. -/
theorem TablesMethods.mono (h : program.TablesMethods)
    (hsymbol : ∀ {id symbol}, later.symbol? id = some symbol → symbol.isMethod →
      program.symbol? id = some symbol)
    (hmethods : ∀ owner, (program.members owner).methods ⊆ (later.members owner).methods) :
    later.TablesMethods where
  mem_methods {_ symbol owner _ _ _} hlater hkind := by
    have hmethod : symbol.isMethod := by rw [NamedSymbol.isMethod, hkind]
    exact hmethods owner (h.mem_methods (hsymbol hlater hmethod) hkind)

section Declare

variable (name : String) (kind : SymbolKind) (type guard : Option String) (span : Span)

theorem methods_subset_declare (owner : SymbolId) : (program.members owner).methods ⊆
    ((program.declare name kind type guard span).2.members owner).methods := by
  by_cases howner : owner < program.symbols.size
  · rw [members_declare howner]
    exact List.Subset.refl _
  · have hnone : program.classInfo? owner = none := by
      rw [classInfo?, symbol?_eq_none_of_le (Nat.le_of_not_lt howner)]
      rfl
    rw [members_eq_default hnone]
    exact List.nil_subset _

theorem TablesMethods.declare (h : program.TablesMethods)
    (hkind : ∀ owner isStatic isSynchronized arity, kind ≠ .method owner isStatic isSynchronized arity) :
    (program.declare name kind type guard span).2.TablesMethods := by
  refine h.mono (fun {id symbol} hsymbol hmethod => ?_) (methods_subset_declare name kind type guard span)
  rw [symbol?_declare] at hsymbol
  split at hsymbol
  case isTrue =>
    obtain rfl := Option.some.inj hsymbol
    rw [NamedSymbol.isMethod] at hmethod
    split at hmethod
    case h_1 heq => exact (hkind _ _ _ _ heq).elim
    case h_2 => cases hmethod
  case isFalse => exact hsymbol

end Declare

section Update

variable (owner : SymbolId) {change : ClassInfo → ClassInfo}

/-- A symbol that is no class after a class has changed was the same before. -/
theorem symbol?_of_updateClass {id : SymbolId} {symbol : NamedSymbol}
    (hsymbol : (program.updateClass owner change).symbol? id = some symbol)
    (hinfo : symbol.classInfo? = none) : program.symbol? id = some symbol := by
  have hlt : id < program.symbols.size :=
    program.size_updateClass owner change ▸ lt_size_of_symbol?_eq_some hsymbol
  obtain ⟨old, hold⟩ : ∃ old, program.symbol? id = some old := ⟨_, Array.getElem?_eq_getElem hlt⟩
  cases holdInfo : old.classInfo? with
  | none =>
      rw [← hsymbol, symbol?_updateClass_of_not_class owner change hold holdInfo]
      exact hold
  | some info =>
      have hlater : (program.updateClass owner change).classInfo? id = none := by
        rw [classInfo?, hsymbol]
        exact hinfo
      rw [classInfo?_updateClass, classInfo?, hold, Option.bind_some, holdInfo] at hlater
      cases hlater

variable (hchange : ∀ info, info.members.methods ⊆ (change info).members.methods)
include hchange

theorem methods_subset_updateClass (id : SymbolId) : (program.members id).methods ⊆
    ((program.updateClass owner change).members id).methods := by
  cases hinfo : program.classInfo? id with
  | none =>
      rw [members_eq_default hinfo]
      exact List.nil_subset _
  | some info =>
      have hlater := program.classInfo?_updateClass owner change id
      rw [hinfo, Option.map_some] at hlater
      rw [members_eq_of_classInfo? hinfo, members_eq_of_classInfo? hlater]
      split
      · exact hchange info
      · exact List.Subset.refl _

theorem TablesMethods.updateClass (h : program.TablesMethods) :
    (program.updateClass owner change).TablesMethods :=
  h.mono (fun {_ symbol} hsymbol hmethod => symbol?_of_updateClass owner hsymbol
    (symbol.classInfo?_eq_none_of_isMethod hmethod)) (methods_subset_updateClass owner hchange)

end Update

/-- A method is entered as soon as it is declared. -/
theorem TablesMethods.addMethod (h : program.TablesMethods) (name : String) {owner : SymbolId}
    (isStatic isSynchronized : Bool) (arity : Nat) (type guard : Option String) (span : Span)
    (howner : program.IsClass owner) :
    (program.addMethod name owner isStatic isSynchronized arity type guard span).TablesMethods := by
  refine ⟨fun {id symbol owner' _ _ _} hsymbol hkind => ?_⟩
  have hdeclared := symbol?_of_updateClass owner hsymbol <|
    symbol.classInfo?_eq_none_of_isMethod (by rw [NamedSymbol.isMethod, hkind])
  rw [symbol?_declare] at hdeclared
  split at hdeclared
  case isTrue hid =>
    obtain rfl := Option.some.inj hdeclared
    obtain ⟨rfl, -⟩ := SymbolKind.method.inj hkind
    obtain ⟨info, hinfo⟩ := howner.declare name (.method owner isStatic isSynchronized arity) type guard
      span
    rw [Program.addMethod, members_updateMembers hinfo, hid]
    exact List.mem_append_right _ (List.mem_singleton_self _)
  case isFalse =>
    exact methods_subset_updateClass owner (fun _ => List.subset_append_left _ _) owner'
      (methods_subset_declare _ _ _ _ _ owner' (h.mem_methods hdeclared hkind))

theorem Change.tablesMethods {classes : Prop} (h : program.Change classes later)
    (hprogram : program.TablesMethods) : later.TablesMethods := by
  cases h with
  | use | problem | topLevel => exact hprogram.mono (fun h _ => h) fun _ => List.Subset.refl _
  | «variable» _ kind _ _ hkind =>
      refine hprogram.declare _ _ _ _ _ fun _ _ _ _ heq => ?_
      rw [heq] at hkind
      exact hkind
  | field => exact hprogram.declare _ _ _ _ _ (by rintro _ _ _ _ ⟨⟩)
  | classType =>
      exact (hprogram.declare _ _ _ _ _ (by rintro _ _ _ _ ⟨⟩)).mono (fun h _ => h)
        fun _ => List.Subset.refl _
  | method _ _ _ _ _ _ _ _ _ howner => exact hprogram.addMethod _ _ _ _ _ _ _ howner
  | table owner change _ hmethods =>
      exact hprogram.updateClass owner fun info => (hmethods info.members).symm ▸ List.Subset.refl _
  | supertypes id => exact hprogram.updateClass id fun info => List.Subset.refl info.members.methods

theorem Grows.tablesMethods {classes : Prop} (h : Grows classes program later)
    (hprogram : program.TablesMethods) : later.TablesMethods := by
  induction h with
  | refl => exact hprogram
  | tail _ hchange ih => exact hchange.tablesMethods ih

theorem TablesMethods.withNames (h : program.TablesMethods) (qualified library : List (String × SymbolId))
    (imports : List (String × String)) : { program with qualified, library, imports }.TablesMethods :=
  h.mono (fun h _ => h) fun _ => List.Subset.refl _

theorem TablesMethods.declareLibraryMethods {owner : SymbolId} (methods : List (String × String))
    (howner : program.IsClass owner) (h : program.TablesMethods) :
    (methods.foldl (Library.declareMethod owner) program).TablesMethods := by
  induction methods generalizing program with
  | nil => exact h
  | cons method methods ih =>
      exact ih ((howner.declare ..).updateClass ..)
        (h.addMethod method.1 false false 0 (some method.2) none default howner)

/-- The methods of a library class are declared when the class has its symbol. -/
theorem TablesMethods.declareLibraryClass (h : program.TablesMethods) (decl : Library.LibraryClass) :
    (Library.declareClass program decl).TablesMethods := by
  refine declareLibraryMethods decl.methods ?_ (.withNames (h.declare _ _ _ _ _ ?_) _ _ _)
  · exact ⟨_, (classInfo?_declare ..).trans (if_pos rfl)⟩
  · rintro _ _ _ _ ⟨⟩

theorem tablesMethods_start (unit : CompilationUnit) : (startDraft unit).program.TablesMethods := by
  have hempty : (empty unit.package).TablesMethods :=
    ⟨fun hsymbol => by simp [empty, symbol?] at hsymbol⟩
  have hlibrary : (Library.declareAll (.empty unit.package)).TablesMethods :=
    List.foldlRecOn Library.classes _ hempty fun _ h decl _ => h.declareLibraryClass decl
  exact hlibrary.withNames _ _ (typeImports unit.imports)

/-- Every method of a unit or of the library is in the table of its class. -/
theorem tablesMethods_ofUnit (unit : CompilationUnit) : (ofUnit unit).TablesMethods :=
  (grows_ofUnit unit).tablesMethods <|
    (grows_linkedDraft unit).tablesMethods (tablesMethods_start unit)

/-! ### The fields and methods of a class -/

/-- A symbol is a field of a name that a class declares or inherits. -/
def HasField (program : Program) (type : SymbolId) (name : String) (id : SymbolId) : Prop :=
  ∃ symbol owner isStatic, program.symbol? id = some symbol ∧ symbol.name = name ∧
    symbol.kind = .field owner isStatic ∧ program.isSubclass type owner

/-- A symbol is a method of a name, with a number of parameters, that a class declares or inherits. -/
def HasMethod (program : Program) (type : SymbolId) (name : String) (arity : Nat) (id : SymbolId) :
    Prop :=
  ∃ symbol owner isStatic isSynchronized, program.symbol? id = some symbol ∧ symbol.name = name ∧
    symbol.kind = .method owner isStatic isSynchronized arity ∧ program.isSubclass type owner

/-- A symbol is a method of a name that a class has. It takes a number of arguments if any of its methods
of the name does. -/
def FitsCall (program : Program) (type : SymbolId) (name : String) (count : Nat) (id : SymbolId) : Prop :=
  ∃ arity, program.HasMethod type name arity id ∧
    ((∃ other, program.HasMethod type name count other) → arity = count)

namespace WellFormed

variable (hprogram : program.WellFormed) {type id : SymbolId} {name : String} {count : Nat}
include hprogram

theorem hasField_of_findField? (h : program.findField? type name = some id) :
    program.HasField type name id := by
  obtain ⟨owner, howner, hlookup⟩ := List.exists_of_findSome?_eq_some h
  obtain ⟨symbol, isStatic, hsymbol, hname, hkind⟩ :=
    (hprogram.table owner).field _ (mem_of_lookup_eq_some hlookup)
  exact ⟨symbol, owner, isStatic, hsymbol, hname, hkind, List.contains_iff_mem.mpr howner⟩

variable (htables : program.TablesMethods)
include htables

/-- The methods of a name that the tables of a class and its supertypes have are all there are. -/
theorem mem_methodsNamed_iff :
    id ∈ program.methodsNamed type name ↔ ∃ arity, program.HasMethod type name arity id := by
  refine ⟨fun h => ?_, fun ⟨arity, symbol, owner, _, _, hsymbol, hname, hkind, howner⟩ => ?_⟩
  · obtain ⟨owner, howner, hmem⟩ := List.mem_flatMap.mp h
    obtain ⟨⟨method, _⟩, hentry, rfl⟩ := List.mem_map.mp hmem
    obtain ⟨htable, hmethod⟩ := List.mem_filter.mp hentry
    obtain rfl : method = name := beq_iff_eq.mp hmethod
    obtain ⟨symbol, isStatic, isSynchronized, arity, hsymbol, hname, hkind⟩ :=
      (hprogram.table owner).method _ htable
    exact ⟨arity, symbol, owner, isStatic, isSynchronized, hsymbol, hname, hkind,
      List.contains_iff_mem.mpr howner⟩
  · have hentry := htables.mem_methods hsymbol hkind
    exact List.mem_flatMap.mpr ⟨owner, List.contains_iff_mem.mp howner, List.mem_map.mpr
      ⟨(symbol.name, id), List.mem_filter.mpr ⟨hentry, beq_iff_eq.mpr hname⟩, rfl⟩⟩

theorem fitsCall_of_findMethod? (h : program.findMethod? type name count = some id) :
    program.FitsCall type name count id := by
  rw [Program.findMethod?, Option.or_eq_some_iff] at h
  have hmem : id ∈ program.methodsNamed type name :=
    h.elim List.mem_of_find?_eq_some fun h => List.mem_of_head? h.2
  obtain ⟨arity, hmethod⟩ := (hprogram.mem_methodsNamed_iff htables).mp hmem
  refine ⟨arity, hmethod, ?_⟩
  rintro ⟨other, hother⟩
  rcases h with hfound | ⟨hnone, -⟩
  · obtain ⟨symbol, owner, isStatic, isSynchronized, hsymbol, -, hkind, -⟩ := hmethod
    have harity := List.find?_some hfound
    rw [hasArity, hsymbol, Option.any_some, NamedSymbol.isMethodOfArity, hkind] at harity
    exact beq_iff_eq.mp harity
  · -- A method with as many parameters as there are arguments would have been found first.
    have hother' := List.find?_eq_none.mp hnone other
      ((hprogram.mem_methodsNamed_iff htables).mpr ⟨count, hother⟩)
    obtain ⟨symbol, owner, isStatic, isSynchronized, hsymbol, -, hkind, -⟩ := hother
    rw [hasArity, hsymbol, Option.any_some, NamedSymbol.isMethodOfArity, hkind] at hother'
    exact absurd (beq_self_eq_true count) hother'

theorem not_hasMethod_of_findMethod? (h : program.findMethod? type name count = none) {arity : Nat}
    {other : SymbolId} : ¬program.HasMethod type name arity other := fun hother => by
  rw [Program.findMethod?, Option.or_eq_none_iff, List.head?_eq_none_iff] at h
  have hmem := (hprogram.mem_methodsNamed_iff htables).mpr ⟨arity, hother⟩
  rw [h.2] at hmem
  cases hmem

end WellFormed

end Program

/-- What an expression inside classes refers to as a variable, field or method bears the name that the
expression writes. A member is one that the class has in which the resolver looks it up, and a method is
called with its number of arguments if one of the name in this class can be. -/
structure CompilationUnit.NamesMember (unit : CompilationUnit) (classes : List SymbolId) (expr : Expr)
    (id : SymbolId) (symbol : NamedSymbol) : Prop where
  name : ∀ name, expr.kind = .name name → symbol.isField ∨ symbol.isVariable → symbol.name = name
  select : ∀ object name, expr.kind = .select object name → symbol.isField →
    ∃ type, (Program.draftOf unit).receiver? expr.id = some (some type) ∧
      (Program.ofUnit unit).HasField type name id
  callOn : ∀ receiver method args, expr.kind = .call (some receiver) method args → symbol.isMethod →
    ∃ type, (Program.draftOf unit).receiver? expr.id = some (some type) ∧
      (Program.ofUnit unit).FitsCall type method args.length id
  call : ∀ method args, expr.kind = .call none method args → symbol.isMethod →
    ∃ nearer type further, classes = nearer ++ type :: further ∧
      (∀ other ∈ nearer, ∀ arity id, ¬(Program.ofUnit unit).HasMethod other method arity id) ∧
        (Program.ofUnit unit).FitsCall type method args.length id

/-- An expression to which the resolver comes names what it refers to. -/
theorem Program.ComesAlong.namesMember {unit : CompilationUnit} {decl : ClassDecl} {path : List PathStep}
    {expr : Expr} {draft : TrackedDraft} (h : ComesAlong unit decl path expr draft) {id : SymbolId}
    {symbol : NamedSymbol} (huse : (ofUnit unit).use? expr.id = some id)
    (hsymbol : (ofUnit unit).symbol? id = some symbol) :
    unit.NamesMember (classesAlong (ofUnit unit).use? path) expr id symbol := by
  obtain ⟨node, kind, span⟩ := expr
  have hprogram := wellFormed_ofUnit unit
  have htables := tablesMethods_ofUnit unit
  have hreceiver := h.receivers node (TreeNode.ownIds_subset_numbers (List.mem_singleton_self _))
  have hnotClass (hfield : symbol.isField) : ¬(ofUnit unit).IsClass id := fun ⟨info, hinfo⟩ => by
    rw [classInfo?, hsymbol, Option.bind_some, symbol.classInfo?_eq_none_of_isField hfield] at hinfo
    cases hinfo
  refine ⟨?name, ?select, ?callOn, ?call⟩
  case name =>
    rintro name rfl (hfield | hvariable)
    · rcases h.comesTo.name_cases huse with ⟨found, hfound, hvariable⟩ | hfound | hclass
      · obtain rfl := Option.some.inj (hsymbol.symm.trans hfound)
        rw [symbol.isVariable_eq_false_of_isField hfield] at hvariable
        cases hvariable
      · obtain ⟨type, -, hfound⟩ := List.exists_of_findSome?_eq_some hfound
        obtain ⟨field, hfield, hname, -⟩ := hprogram.findField?_name hfound
        obtain rfl := Option.some.inj (hsymbol.symm.trans hfield)
        exact hname
      · exact absurd hclass (hnotClass hfield)
    · exact (h.comesTo.meansVariable hprogram h.sees huse hsymbol hvariable).1
  case select =>
    rintro object name rfl hfield
    obtain ⟨type, htype, hfound⟩ := (h.comesTo.select_member huse).resolve_left (hnotClass hfield)
    exact ⟨type, hreceiver.trans htype, hprogram.hasField_of_findField? hfound⟩
  case callOn =>
    rintro receiver method args rfl -
    obtain ⟨type, htype, hfound⟩ := h.comesTo.callOn_member huse
    exact ⟨type, hreceiver.trans htype, hprogram.fitsCall_of_findMethod? htables hfound⟩
  case call =>
    rintro method args rfl -
    obtain ⟨nearer, type, further, hclasses, hfound, hnearer⟩ :=
      List.findSome?_eq_some_iff.mp (h.comesTo.call_cases huse)
    exact ⟨nearer, type, further, hclasses, fun other hother _ _ =>
      hprogram.not_hasMethod_of_findMethod? htables (hnearer other hother),
      hprogram.fitsCall_of_findMethod? htables hfound⟩

/-- Whatever an expression of a unit refers to as a variable, field or method is named by it. -/
def CompilationUnit.NamesMembers (unit : CompilationUnit) : Prop :=
  ∀ decl ∈ unit.types, ∀ path expr, Within (.classDecl decl) path (.expr expr) →
    ∀ id symbol, (Program.ofUnit unit).use? expr.id = some id →
      (Program.ofUnit unit).symbol? id = some symbol →
        unit.NamesMember (classesAlong (Program.ofUnit unit).use? path) expr id symbol

/-- In any compilation unit, a selection that refers to a field refers to one of the name that the class
of its object has, and a call that refers to a method to one of the name that the class of its receiver
has, or for a bare call the innermost class around that has any. The method takes as many arguments as
there are if any of these does. A bare name refers to a field or variable of the name. -/
theorem ParsedUnit.namesMembers_ofTokens (tokens : List Token) :
    (ofTokens tokens).unit.NamesMembers := by
  intro decl hdecl path expr hwithin id symbol huse hsymbol
  have hnodup := nodup_numbers_ofTokens tokens
  have hpath := Program.isResolved_of_use? hnodup hdecl hwithin huse
  rcases Program.exists_comesAlong hnodup hdecl hwithin hpath with
    ⟨-, name, id', constant, hkind, huse', hconstant, hname, -⟩ | ⟨draft, hcomes⟩
  · -- A label that names a constant is a bare name.
    obtain rfl := Option.some.inj (huse.symm.trans huse')
    obtain rfl := Option.some.inj (hsymbol.symm.trans hconstant)
    obtain ⟨node, kind, span⟩ := expr
    obtain rfl : kind = .name name := hkind
    refine ⟨fun _ heq _ => ?_, nofun, nofun, nofun⟩
    rw [hname]
    exact ExprKind.name.inj heq
  · exact hcomes.namesMember huse hsymbol

end LockDiscipline
