import LockDiscipline.Proofs.Program.Footprints
import LockDiscipline.Proofs.Program.Growth
/-!
# What the unit declares itself

The symbols of the library come first, and they have no place in the source. Whatever is reported with a
place is a symbol of the unit, since only the unit declares fields, member classes, top-level classes and
guards. `Program.SetApart` says this of a program, and the changes that the resolver makes leave it true.
-/

namespace LockDiscipline

/-- How many symbols the library has. -/
def Library.size : Nat :=
  (classes.flatMap fun decl => decl.name :: decl.methods.map (·.1)).length

namespace Library

private theorem size_foldl_declareMethod (owner : SymbolId) (methods : List (String × String))
    (program : Program) : (methods.foldl (declareMethod owner) program).symbols.size =
      program.symbols.size + methods.length := by
  induction methods generalizing program with
  | nil => rfl
  | cons method rest ih =>
      have hsize : (declareMethod owner program method).symbols.size = program.symbols.size + 1 :=
        (Program.size_updateClass ..).trans (Program.size_declare ..)
      rw [List.foldl_cons, ih, hsize, List.length_cons, Nat.add_assoc, Nat.add_comm 1]

theorem size_declareAll (package : Option String) :
    (declareAll (.empty package)).symbols.size = size := by
  have hclasses (classes : List LibraryClass) (program : Program) :
      (classes.foldl declareClass program).symbols.size =
        program.symbols.size + (classes.flatMap fun decl => decl.name :: decl.methods.map (·.1)).length := by
    induction classes generalizing program with
    | nil => rfl
    | cons decl rest ih =>
        have hsize : (declareClass program decl).symbols.size =
            program.symbols.size + 1 + decl.methods.length :=
          (size_foldl_declareMethod ..).trans (congrArg (· + _) (Program.size_declare ..))
        rw [List.foldl_cons, ih, hsize, List.flatMap_cons, List.length_append, List.length_cons, List.length_map]
        omega
  exact (hclasses classes _).trans (Nat.zero_add _)

end Library

namespace Program

variable {program : Program}

/-- A symbol is one of the unit and not of the library. -/
def Own (program : Program) (id : SymbolId) : Prop :=
  Library.size ≤ id ∧ id < program.symbols.size

theorem Own.mono {later : Program} {id : SymbolId} (h : program.Own id)
    (hsize : program.symbols.size ≤ later.symbols.size) : later.Own id :=
  ⟨h.1, Nat.lt_of_lt_of_le h.2 hsize⟩

/-- The tables of a class list only symbols of the unit as its fields and member classes. -/
structure OwnTable (program : Program) (table : MemberTable) : Prop where
  field : ∀ entry ∈ table.fields, program.Own entry.2
  memberClass : ∀ entry ∈ table.classes, program.Own entry.2

theorem OwnTable.mono {later : Program} {table : MemberTable} (h : program.OwnTable table)
    (hsize : program.symbols.size ≤ later.symbols.size) : later.OwnTable table :=
  ⟨fun entry hentry => (h.field entry hentry).mono hsize,
    fun entry hentry => (h.memberClass entry hentry).mono hsize⟩

theorem OwnTable.default : program.OwnTable default :=
  ⟨fun _ h => absurd h List.not_mem_nil, fun _ h => absurd h List.not_mem_nil⟩

/-- The library is set apart: fields, member classes, top-level classes and whatever has a guard are symbols
of the unit. -/
structure SetApart (program : Program) : Prop where
  members : ∀ type, program.OwnTable (program.members type)
  topLevel : ∀ entry ∈ program.topLevel, program.Own entry.2
  guarded : ∀ {id symbol}, program.symbol? id = some symbol → symbol.guard ≠ none → Library.size ≤ id

/-! ### Changes of programs -/

/-- A class that changes keeps its guard. -/
private theorem exists_guard_of_updateClass {owner id : SymbolId} {change : ClassInfo → ClassInfo}
    {symbol : NamedSymbol} (h : (program.updateClass owner change).symbol? id = some symbol) :
    ∃ old, program.symbol? id = some old ∧ symbol.guard = old.guard := by
  have hid : id < program.symbols.size := program.size_updateClass owner change ▸ lt_size_of_symbol?_eq_some h
  obtain ⟨old, hold⟩ : ∃ old, program.symbol? id = some old := ⟨_, Array.getElem?_eq_getElem hid⟩
  refine ⟨old, hold, ?_⟩
  by_cases howner : id = owner
  · subst howner
    cases hkind : old.kind with
    | classType info =>
        rw [symbol?_updateClass_of_info change hold hkind] at h
        exact congrArg (·.guard) (Option.some.inj h).symm
    | _ =>
        rw [symbol?_updateClass_of_not_class id change hold (by simp [NamedSymbol.classInfo?, hkind])] at h
        exact congrArg (·.guard) (Option.some.inj h).symm
  · rw [symbol?_updateClass_of_ne _ change howner, hold] at h
    exact congrArg (·.guard) (Option.some.inj h).symm

namespace SetApart

theorem empty (package : Option String) : (Program.empty package).SetApart where
  members type := by
    have hnone : (Program.empty package).classInfo? type = none := by simp [classInfo?, symbol?, Program.empty]
    rw [members_eq_default hnone]
    exact .default
  topLevel _ h := absurd h List.not_mem_nil
  guarded h := by simp [symbol?, Program.empty] at h

variable (h : program.SetApart)
include h

theorem declare (name : String) {kind : SymbolKind} (type : Option String) {guard : Option String}
    (span : Span) (hkind : ∀ info, kind = .classType info → info.members = default)
    (hguard : guard ≠ none → Library.size ≤ program.symbols.size) :
    (program.declare name kind type guard span).2.SetApart := by
  have hle : program.symbols.size ≤ (program.declare name kind type guard span).2.symbols.size := by
    rw [size_declare]
    exact Nat.le_succ _
  constructor
  case members =>
    intro owner
    by_cases howner : owner = program.symbols.size
    · cases hinfo : (program.declare name kind type guard span).2.classInfo? owner with
      | none =>
          rw [members_eq_default hinfo]
          exact .default
      | some info =>
          rw [members_eq_of_classInfo? hinfo]
          rw [classInfo?_declare, if_pos howner] at hinfo
          cases kind with
          | classType known =>
              obtain rfl := Option.some.inj hinfo
              rw [hkind known rfl]
              exact .default
          | _ => cases hinfo
    · have hmembers : (program.declare name kind type guard span).2.members owner = program.members owner := by
        rw [Program.members, classInfo?_declare, if_neg howner, ← Program.members]
      rw [hmembers]
      exact (h.members owner).mono hle
  case topLevel => exact fun entry hentry => (h.topLevel entry hentry).mono hle
  case guarded =>
    intro id symbol hsymbol hsome
    rw [symbol?_declare] at hsymbol
    split at hsymbol
    case isTrue hid =>
      obtain rfl := Option.some.inj hsymbol
      exact hid ▸ hguard hsome
    case isFalse => exact h.guarded hsymbol hsome

/-- A class may change as long as its table lists symbols of the unit only. -/
theorem updateClass (owner : SymbolId) {change : ClassInfo → ClassInfo}
    (hchange : ∀ info, program.OwnTable info.members → program.OwnTable (change info).members) :
    (program.updateClass owner change).SetApart := by
  have hle := Nat.le_of_eq (program.size_updateClass owner change).symm
  constructor
  case members =>
    intro type
    have htable := h.members type
    apply OwnTable.mono _ hle
    rw [Program.members, classInfo?_updateClass]
    cases hinfo : program.classInfo? type with
    | none => exact .default
    | some info =>
        rw [members_eq_of_classInfo? hinfo] at htable
        simp only [Option.map_some, Option.getD_some]
        split
        · exact hchange info htable
        · exact htable
  case topLevel => exact fun entry hentry => (h.topLevel entry hentry).mono hle
  case guarded =>
    intro id symbol hsymbol hsome
    obtain ⟨old, hold, hguard⟩ := exists_guard_of_updateClass hsymbol
    exact h.guarded hold (hguard ▸ hsome)

theorem withTopLevel {topLevel : List (String × SymbolId)} (htop : ∀ entry ∈ topLevel, program.Own entry.2) :
    { program with topLevel }.SetApart :=
  ⟨fun type => (h.members type).mono (Nat.le_refl _), htop, h.guarded⟩

/-- What is in none of these tables does not matter. -/
theorem of_eq {later : Program} (hsymbols : later.symbols = program.symbols)
    (htop : later.topLevel = program.topLevel) : later.SetApart := by
  obtain ⟨symbols, uses, problems, package, topLevel, qualified, library, imports⟩ := later
  obtain rfl : symbols = program.symbols := hsymbols
  obtain rfl : topLevel = program.topLevel := htop
  exact ⟨fun type => (h.members type).mono (Nat.le_refl _), h.topLevel, h.guarded⟩

theorem withImports (imports : List (String × String)) : { program with imports }.SetApart :=
  h.of_eq rfl rfl

theorem declareLibraryClass (decl : Library.LibraryClass) : (Library.declareClass program decl).SetApart := by
  refine List.foldlRecOn (motive := SetApart) decl.methods _ ?_ fun program hprogram method _ => ?_
  · exact (h.declare (Text.lastSegment decl.name) none default (fun info hinfo => by cases hinfo; rfl)
      fun hguard => absurd rfl hguard).of_eq rfl rfl
  · exact (hprogram.declare method.1 (some method.2) default (by rintro _ ⟨⟩)
      fun hguard => absurd rfl hguard).updateClass _ fun info hinfo => ⟨hinfo.field, hinfo.memberClass⟩

end SetApart

/-- The unit starts from a program in which the library is set apart. -/
theorem setApart_start (unit : CompilationUnit) : (startDraft unit).program.SetApart := by
  have hlibrary : (Library.declareAll (.empty unit.package)).SetApart :=
    List.foldlRecOn (motive := SetApart) Library.classes _ (.empty unit.package)
      fun _ h decl _ => h.declareLibraryClass decl
  exact hlibrary.withImports _

end Program
end LockDiscipline
