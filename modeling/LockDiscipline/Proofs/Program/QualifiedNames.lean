import LockDiscipline.Proofs.Program.Tables
/-!
# The table of qualified names

A class is entered under its qualified name as soon as it is declared, and nothing else ever is. So the
table lists the classes of a program in the order of their declaration, and what is found in it is the
first class that bears the name. The classes of the library are moreover entered under their simple names.
-/

namespace LockDiscipline.Program

variable {program later latest : Program}

/-- The classes of a program with their qualified names, in the order of their declaration. -/
def namedClasses (program : Program) : List (String × SymbolId) :=
  (List.range program.symbols.size).filterMap fun id => (program.qualifiedName? id).map (·, id)

/-- The first class that bears a qualified name. -/
def classNamed? (program : Program) (name : String) : Option SymbolId :=
  (List.range program.symbols.size).find? fun id => program.qualifiedName? id == some name

/-- The first class that bears a name as its qualified name, or else the one that bears it within a
package. -/
def classKnownAs? (program : Program) (package : Option String) (name : String) : Option SymbolId :=
  (program.classNamed? name).or <|
    package.bind fun package => program.classNamed? (package ++ "." ++ name)

theorem lt_size_of_qualifiedName?_eq_some {id : SymbolId} {name : String}
    (h : program.qualifiedName? id = some name) : id < program.symbols.size := by
  obtain ⟨info, hinfo, -⟩ := Option.map_eq_some_iff.mp h
  exact lt_size_of_classInfo?_eq_some hinfo

theorem mem_namedClasses {id : SymbolId} {name : String} :
    (name, id) ∈ program.namedClasses ↔ program.qualifiedName? id = some name := by
  simp only [namedClasses, List.mem_filterMap, List.mem_range, Option.map_eq_some_iff, Prod.mk.injEq]
  constructor
  · rintro ⟨other, -, _, hname, rfl, rfl⟩
    exact hname
  · intro hname
    exact ⟨id, lt_size_of_qualifiedName?_eq_some hname, name, hname, rfl, rfl⟩

theorem qualifiedName?_of_classNamed? {id : SymbolId} {name : String}
    (h : program.classNamed? name = some id) : program.qualifiedName? id = some name := by
  have hname := List.find?_some h
  exact beq_iff_eq.mp hname

theorem isSome_classNamed? {name : String} :
    (program.classNamed? name).isSome ↔ ∃ id, program.qualifiedName? id = some name := by
  rw [classNamed?, List.find?_isSome]
  constructor
  · rintro ⟨id, -, hname⟩
    exact ⟨id, beq_iff_eq.mp hname⟩
  · rintro ⟨id, hname⟩
    exact ⟨id, List.mem_range.mpr (lt_size_of_qualifiedName?_eq_some hname), beq_iff_eq.mpr hname⟩

/-- The list of the classes and the search for a class tell the same. -/
theorem lookup_namedClasses (name : String) :
    program.namedClasses.lookup name = program.classNamed? name := by
  rw [namedClasses, classNamed?]
  induction List.range program.symbols.size with
  | nil => rfl
  | cons id rest ih =>
      rw [List.filterMap_cons, List.find?_cons]
      cases hname : program.qualifiedName? id with
      | none => exact ih
      | some other =>
          rw [Option.map_some, List.lookup_cons, Option.some_beq_some, BEq.comm, ih]

/-! ### The list of classes after a change -/

theorem qualifiedName?_declare (name : String) (kind : SymbolKind) (type guard : Option String)
    (span : Span) {id : SymbolId} (hid : id < program.symbols.size) :
    (program.declare name kind type guard span).2.qualifiedName? id = program.qualifiedName? id := by
  rw [qualifiedName?, classInfo?_declare, if_neg (Nat.ne_of_lt hid), qualifiedName?]

theorem namedClasses_declare (name : String) (kind : SymbolKind) (type guard : Option String)
    (span : Span) : (program.declare name kind type guard span).2.namedClasses =
      program.namedClasses ++ match kind with
        | .classType info => [(info.qualifiedName, program.symbols.size)]
        | _ => [] := by
  have hold : ∀ id ∈ List.range program.symbols.size,
      ((program.declare name kind type guard span).2.qualifiedName? id).map (·, id) =
        (program.qualifiedName? id).map (·, id) := fun id hid => by
    rw [qualifiedName?_declare name kind type guard span (List.mem_range.mp hid)]
  rw [namedClasses, size_declare, List.range_succ, List.filterMap_append, List.filterMap_congr hold,
    List.filterMap_cons, qualifiedName?, classInfo?_declare, if_pos rfl, namedClasses]
  cases kind <;> rfl

/-- What is learned of a class is not its name. -/
theorem namedClasses_updateClass (owner : SymbolId) {change : ClassInfo → ClassInfo}
    (hname : ∀ info, (change info).qualifiedName = info.qualifiedName) :
    (program.updateClass owner change).namedClasses = program.namedClasses := by
  rw [namedClasses, size_updateClass, namedClasses]
  refine List.filterMap_congr fun id _ => ?_
  rw [qualifiedName?, classInfo?_updateClass, qualifiedName?]
  cases program.classInfo? id with
  | none => rfl
  | some info =>
      simp only [Option.map_some]
      split
      · rw [hname]
      · rfl

theorem namedClasses_updateMembers (owner : SymbolId) (change : MemberTable → MemberTable) :
    (program.updateMembers owner change).namedClasses = program.namedClasses :=
  namedClasses_updateClass owner fun _ => rfl

theorem namedClasses_addMethod (name : String) (owner : SymbolId) (isStatic isSynchronized : Bool)
    (arity : Nat) (type guard : Option String) (span : Span) :
    (program.addMethod name owner isStatic isSynchronized arity type guard span).namedClasses =
      program.namedClasses := by
  rw [addMethod, namedClasses_updateMembers, namedClasses_declare]
  exact List.append_nil _

/-! ### Classes are entered as they are declared -/

/-- Classes are declared and entered under their qualified names, while the simple names that are known
from elsewhere stay. -/
structure Registers (program later : Program) : Prop where
  classes : ∃ added, later.namedClasses = program.namedClasses ++ added ∧
    later.qualified = program.qualified ++ added
  library : later.library = program.library
  imports : later.imports = program.imports
  package : later.package = program.package

namespace Registers

theorem refl (program : Program) : program.Registers program :=
  ⟨⟨[], (List.append_nil _).symm, (List.append_nil _).symm⟩, rfl, rfl, rfl⟩

theorem trans (hfirst : program.Registers later) (hsecond : later.Registers latest) :
    program.Registers latest := by
  obtain ⟨first, hclasses, hqualified⟩ := hfirst.classes
  obtain ⟨second, hclasses', hqualified'⟩ := hsecond.classes
  refine ⟨⟨first ++ second, ?_, ?_⟩, hsecond.library.trans hfirst.library,
    hsecond.imports.trans hfirst.imports, hsecond.package.trans hfirst.package⟩
  · rw [hclasses', hclasses, List.append_assoc]
  · rw [hqualified', hqualified, List.append_assoc]

/-- Where no class is declared none is entered. -/
theorem of_same (hclasses : later.namedClasses = program.namedClasses)
    (hqualified : later.qualified = program.qualified) (hlibrary : later.library = program.library)
    (himports : later.imports = program.imports) (hpackage : later.package = program.package) :
    program.Registers later :=
  ⟨⟨[], hclasses.trans (List.append_nil _).symm, hqualified.trans (List.append_nil _).symm⟩, hlibrary,
    himports, hpackage⟩

end Registers

theorem Change.registers {classes : Prop} (h : program.Change classes later) :
    program.Registers later := by
  cases h with
  | use | problem | topLevel => exact .of_same rfl rfl rfl rfl rfl
  | «variable» name kind type span hkind =>
      refine .of_same ((namedClasses_declare ..).trans ?_) rfl rfl rfl rfl
      cases kind <;> first | exact hkind.elim | exact List.append_nil _
  | field => exact .of_same ((namedClasses_declare ..).trans (List.append_nil _)) rfl rfl rfl rfl
  | method => exact .of_same (namedClasses_addMethod ..) rfl rfl rfl rfl
  | classType name info span =>
      exact ⟨⟨[(info.qualifiedName, program.symbols.size)], namedClasses_declare .., rfl⟩, rfl, rfl, rfl⟩
  | table => exact .of_same (namedClasses_updateMembers ..) rfl rfl rfl rfl
  | supertypes owner => exact .of_same (namedClasses_updateClass owner fun _ => rfl) rfl rfl rfl rfl

theorem Grows.registers {classes : Prop} (h : Grows classes program later) : program.Registers later := by
  induction h with
  | refl => exact .refl program
  | tail _ hchange ih => exact ih.trans hchange.registers

/-! ### The library -/

/-- The classes of a program are some of the library. They are entered under their qualified names, and
under their simple names as well. -/
structure Catalogued (program : Program) (known : List Library.LibraryClass) : Prop where
  qualified : program.qualified = program.namedClasses
  library : program.library =
    program.namedClasses.map fun entry => (Text.lastSegment entry.1, entry.2)
  names : program.namedClasses.map (·.1) = known.map (·.name)

theorem Catalogued.declareLibraryMethods {known : List Library.LibraryClass}
    (h : program.Catalogued known) (owner : SymbolId) (methods : List (String × String)) :
    (methods.foldl (Library.declareMethod owner) program).Catalogued known := by
  induction methods generalizing program with
  | nil => exact h
  | cons method methods ih =>
      have hclasses : (Library.declareMethod owner program method).namedClasses =
          program.namedClasses := namedClasses_addMethod ..
      exact ih ⟨hclasses ▸ h.qualified, hclasses ▸ h.library, hclasses ▸ h.names⟩

theorem Catalogued.declareLibraryClass {known : List Library.LibraryClass}
    (h : program.Catalogued known) (decl : Library.LibraryClass) :
    (Library.declareClass program decl).Catalogued (known ++ [decl]) := by
  refine declareLibraryMethods ?_ _ decl.methods
  refine ⟨?_, ?_, ?_⟩
  · refine Eq.trans ?_ (namedClasses_declare ..).symm
    exact congrArg (· ++ [(decl.name, program.symbols.size)]) h.qualified
  · refine Eq.trans ?_ (congrArg (List.map _) (namedClasses_declare ..).symm)
    rw [List.map_append]
    exact congrArg (· ++ [(Text.lastSegment decl.name, program.symbols.size)]) h.library
  · refine (congrArg (List.map _) (namedClasses_declare ..)).trans ?_
    rw [List.map_append, List.map_append]
    exact congrArg (· ++ [decl.name]) h.names

theorem Catalogued.withImports {known : List Library.LibraryClass} (h : program.Catalogued known)
    (imports : List (String × String)) : { program with imports }.Catalogued known :=
  ⟨h.qualified, h.library, h.names⟩

theorem catalogued_start (unit : CompilationUnit) :
    (startDraft unit).program.Catalogued Library.classes := by
  have hall (known decls : List Library.LibraryClass) {program : Program}
      (h : program.Catalogued known) :
      (decls.foldl Library.declareClass program).Catalogued (known ++ decls) := by
    induction decls generalizing known program with
    | nil => rwa [List.append_nil]
    | cons decl decls ih =>
        have hrest := ih (known ++ [decl]) (h.declareLibraryClass decl)
        rwa [List.append_assoc] at hrest
  have hempty : (empty unit.package).Catalogued [] := ⟨rfl, rfl, rfl⟩
  have hlibrary : (Library.declareAll (.empty unit.package)).Catalogued Library.classes :=
    hall [] Library.classes hempty
  exact hlibrary.withImports (typeImports unit.imports)

/-! ### The names of a unit -/

variable (unit : CompilationUnit)

theorem registers_ofUnit : (startDraft unit).program.Registers (ofUnit unit) :=
  (grows_linkedDraft unit).registers.trans (grows_ofUnit unit).registers

theorem imports_ofUnit : (ofUnit unit).imports = typeImports unit.imports :=
  (registers_ofUnit unit).imports

/-- What the table has under a qualified name is the first class that bears it. -/
theorem lookup_qualified_ofUnit (name : String) :
    (ofUnit unit).qualified.lookup name = (ofUnit unit).classNamed? name := by
  obtain ⟨added, hclasses, hqualified⟩ := (registers_ofUnit unit).classes
  rw [← lookup_namedClasses, hqualified, hclasses, (catalogued_start unit).qualified]

theorem package_ofUnit : (ofUnit unit).package = unit.package :=
  (registers_ofUnit unit).package.trans (package_declareAll unit.package)

theorem findQualified?_ofUnit (name : String) :
    (ofUnit unit).findQualified? name = (ofUnit unit).classKnownAs? unit.package name := by
  rw [findQualified?, package_ofUnit, lookup_qualified_ofUnit, classKnownAs?]
  simp only [lookup_qualified_ofUnit]

/-- What a simple name means in the library is a class with the name there. -/
theorem exists_of_lookup_library {name : String} {id : SymbolId}
    (h : (ofUnit unit).library.lookup name = some id) : ∃ decl ∈ Library.classes,
      Text.lastSegment decl.name = name ∧ (ofUnit unit).qualifiedName? id = some decl.name := by
  obtain ⟨added, hclasses, -⟩ := (registers_ofUnit unit).classes
  have hmem := mem_of_lookup_eq_some h
  rw [(registers_ofUnit unit).library, (catalogued_start unit).library] at hmem
  obtain ⟨⟨qualifiedName, id⟩, hentry, heq⟩ := List.mem_map.mp hmem
  obtain ⟨rfl, rfl⟩ := Prod.mk.inj heq
  have hname := List.mem_map_of_mem (f := Prod.fst) hentry
  rw [(catalogued_start unit).names] at hname
  obtain ⟨decl, hdecl, rfl⟩ := List.mem_map.mp hname
  refine ⟨decl, hdecl, rfl, mem_namedClasses.mp ?_⟩
  rw [hclasses]
  exact List.mem_append_left _ hentry

/-- Every class of the library is known by its simple name. -/
theorem isSome_lookup_library {decl : Library.LibraryClass} (hdecl : decl ∈ Library.classes) :
    ((ofUnit unit).library.lookup (Text.lastSegment decl.name)).isSome := by
  have hname := List.mem_map_of_mem (f := Library.LibraryClass.name) hdecl
  rw [← (catalogued_start unit).names] at hname
  obtain ⟨entry, hentry, heq⟩ := List.mem_map.mp hname
  rw [(registers_ofUnit unit).library, (catalogued_start unit).library]
  rw [Option.isSome_iff_ne_none, Ne, List.lookup_eq_none_iff]
  intro hnone
  have hbeq := hnone _ (List.mem_map_of_mem (f := fun entry : String × SymbolId =>
    (Text.lastSegment entry.1, entry.2)) hentry)
  simp [heq] at hbeq

end LockDiscipline.Program
