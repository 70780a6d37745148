import Mathlib.Logic.Relation
import LockDiscipline.Program.Basic
/-!
# How programs grow

Name resolution only ever changes a program in a few ways: it declares symbols, enters members into
the tables of classes, links supertypes, and records uses and problems. `Program.Change` lists these
changes and `Program.Grows` is a sequence of them. A symbol keeps its number, its name and its kind
through all of them, and the well-formedness of a program is kept as well. A sequence of changes that
concern no classes is marked as such, since the lookups in the classes stay as they are along it.
-/

namespace LockDiscipline

/-- The kinds of symbols that are no classes and no members. -/
def SymbolKind.IsVariable : SymbolKind → Prop
  | .parameter _ | .localVar _ => True
  | _ => False

/-- What a symbol can become as a program grows: more is learned of a class, nothing of others. -/
inductive NamedSymbol.Becomes (symbol : NamedSymbol) : NamedSymbol → Prop where
  | same : Becomes symbol symbol
  | learned {info info' : ClassInfo} (hkind : symbol.kind = .classType info)
      (houter : info'.outer = info.outer) : Becomes symbol { symbol with kind := .classType info' }

namespace NamedSymbol.Becomes

variable {symbol later latest : NamedSymbol}

theorem trans (hfirst : symbol.Becomes later) (hsecond : later.Becomes latest) :
    symbol.Becomes latest := by
  cases hfirst with
  | same => exact hsecond
  | learned hkind houter =>
      cases hsecond with
      | same => exact .learned hkind houter
      | learned hkind' houter' =>
          obtain rfl := SymbolKind.classType.inj hkind'
          exact .learned hkind (houter'.trans houter)

theorem id_eq (h : symbol.Becomes later) : later.id = symbol.id := by
  cases h <;> rfl

theorem name_eq (h : symbol.Becomes later) : later.name = symbol.name := by
  cases h <;> rfl

theorem outer_eq {info : ClassInfo} (h : symbol.Becomes later)
    (hinfo : symbol.classInfo? = some info) :
    ∃ info', later.classInfo? = some info' ∧ info'.outer = info.outer := by
  cases h with
  | same => exact ⟨info, hinfo, rfl⟩
  | learned hkind houter =>
      obtain rfl : _ = info := by simpa [classInfo?, hkind] using hinfo
      exact ⟨_, rfl, houter⟩

theorem eq_of_classInfo?_eq_none (h : symbol.Becomes later) (hinfo : symbol.classInfo? = none) :
    later = symbol := by
  cases h with
  | same => rfl
  | learned hkind => simp [classInfo?, hkind] at hinfo

theorem eq_of_later_classInfo?_eq_none (h : symbol.Becomes later) (hinfo : later.classInfo? = none) :
    later = symbol := by
  cases h with
  | same => rfl
  | learned => cases hinfo

end NamedSymbol.Becomes

namespace Program

variable (program : Program)

/-! ### Symbols after a change -/

theorem size_declare (name : String) (kind : SymbolKind) (type guard : Option String)
    (span : Span) :
    (program.declare name kind type guard span).2.symbols.size = program.symbols.size + 1 := by
  simp [declare]

theorem symbol?_declare (name : String) (kind : SymbolKind) (type guard : Option String)
    (span : Span) (id : SymbolId) :
    (program.declare name kind type guard span).2.symbol? id =
      if id = program.symbols.size then some ⟨program.symbols.size, name, kind, type, guard, span⟩
      else program.symbol? id := by
  simp [declare, symbol?, Array.getElem?_push]

theorem size_updateClass (owner : SymbolId) (change : ClassInfo → ClassInfo) :
    (program.updateClass owner change).symbols.size = program.symbols.size := by
  simp [updateClass]

theorem lt_size_of_symbol?_eq_some {program : Program} {id : SymbolId} {symbol : NamedSymbol}
    (h : program.symbol? id = some symbol) : id < program.symbols.size := by
  obtain ⟨hlt, -⟩ := Array.getElem?_eq_some_iff.mp h
  exact hlt

theorem lt_size_of_classInfo?_eq_some {program : Program} {id : SymbolId} {info : ClassInfo}
    (h : program.classInfo? id = some info) : id < program.symbols.size := by
  obtain ⟨symbol, hsymbol, -⟩ := Option.bind_eq_some_iff.mp h
  exact lt_size_of_symbol?_eq_some hsymbol

theorem symbol?_eq_none_of_le {program : Program} {id : SymbolId}
    (h : program.symbols.size ≤ id) : program.symbol? id = none :=
  Array.getElem?_eq_none h

theorem symbol?_updateClass_of_ne {owner id : SymbolId} (change : ClassInfo → ClassInfo)
    (hne : id ≠ owner) : (program.updateClass owner change).symbol? id = program.symbol? id := by
  simp [updateClass, symbol?, Array.getElem?_modify, Ne.symm hne]

theorem symbol?_updateClass_of_info {program : Program} {id : SymbolId} {symbol : NamedSymbol}
    {info : ClassInfo} (change : ClassInfo → ClassInfo) (hsymbol : program.symbol? id = some symbol)
    (hkind : symbol.kind = .classType info) :
    (program.updateClass id change).symbol? id =
      some { symbol with kind := .classType (change info) } := by
  rw [symbol?] at hsymbol
  simp [updateClass, symbol?, Array.getElem?_modify, hsymbol, hkind]

theorem symbol?_updateClass_of_not_class {program : Program} {id : SymbolId} {symbol : NamedSymbol}
    (owner : SymbolId) (change : ClassInfo → ClassInfo) (hsymbol : program.symbol? id = some symbol)
    (hinfo : symbol.classInfo? = none) :
    (program.updateClass owner change).symbol? id = some symbol := by
  rw [symbol?] at hsymbol
  rw [updateClass, symbol?, Array.getElem?_modify, hsymbol]
  split
  · rcases hkind : symbol.kind <;> simp_all [NamedSymbol.classInfo?]
  · rfl

/-- A class that is updated only learns, if the class around it stays the same. -/
theorem becomes_updateClass {program : Program} (owner : SymbolId) {id : SymbolId}
    {symbol : NamedSymbol} {change : ClassInfo → ClassInfo}
    (houter : ∀ info, (change info).outer = info.outer) (hsymbol : program.symbol? id = some symbol) :
    ∃ later, (program.updateClass owner change).symbol? id = some later ∧ symbol.Becomes later := by
  by_cases heq : id = owner
  · subst heq
    cases hkind : symbol.kind with
    | classType info =>
        exact ⟨_, symbol?_updateClass_of_info change hsymbol hkind, .learned hkind (houter info)⟩
    | _ =>
        refine ⟨symbol, symbol?_updateClass_of_not_class id change hsymbol ?_, .same⟩
        simp [NamedSymbol.classInfo?, hkind]
  · exact ⟨symbol, (program.symbol?_updateClass_of_ne change heq).trans hsymbol, .same⟩

theorem classInfo?_declare (name : String) (kind : SymbolKind) (type guard : Option String)
    (span : Span) (id : SymbolId) :
    (program.declare name kind type guard span).2.classInfo? id =
      if id = program.symbols.size then
        (⟨program.symbols.size, name, kind, type, guard, span⟩ : NamedSymbol).classInfo?
      else program.classInfo? id := by
  rw [classInfo?, symbol?_declare]
  split <;> rfl

theorem classInfo?_updateClass (owner : SymbolId) (change : ClassInfo → ClassInfo)
    (id : SymbolId) :
    (program.updateClass owner change).classInfo? id =
      (program.classInfo? id).map fun info => if id = owner then change info else info := by
  by_cases heq : id = owner
  · subst heq
    cases hsymbol : program.symbol? id with
    | none =>
        have hle : program.symbols.size ≤ id := Array.getElem?_eq_none_iff.mp hsymbol
        rw [classInfo?, classInfo?, hsymbol, symbol?_eq_none_of_le
          (by rw [size_updateClass]; exact hle)]
        rfl
    | some symbol =>
        cases hkind : symbol.kind with
        | classType info =>
            rw [classInfo?, classInfo?, symbol?_updateClass_of_info change hsymbol hkind, hsymbol]
            simp [NamedSymbol.classInfo?, hkind]
        | _ =>
            have hinfo : symbol.classInfo? = none := by simp [NamedSymbol.classInfo?, hkind]
            rw [classInfo?, classInfo?, symbol?_updateClass_of_not_class id change hsymbol hinfo,
              hsymbol]
            simp [hinfo]
  · rw [classInfo?, symbol?_updateClass_of_ne _ change heq, classInfo?]
    simp [heq]

/-- What is declared without supertypes leaves those of all classes as they are. -/
theorem supertypes_declare (name : String) {kind : SymbolKind} (type guard : Option String)
    (span : Span)
    (hkind : ∀ info, kind = .classType info → info.superclass = none ∧ info.interfaces = [])
    (id : SymbolId) :
    (program.declare name kind type guard span).2.supertypes id = program.supertypes id := by
  rw [supertypes, supertypes, classInfo?_declare]
  by_cases heq : id = program.symbols.size
  · have hnone : program.classInfo? id = none := by
      rw [classInfo?, symbol?_eq_none_of_le (Nat.le_of_eq heq.symm)]
      rfl
    rw [if_pos heq, hnone]
    cases kind with
    | classType info =>
        obtain ⟨hsuperclass, hinterfaces⟩ := hkind info rfl
        change info.superclass.toList ++ info.interfaces = []
        rw [hsuperclass, hinterfaces]
        rfl
    | _ => rfl
  · rw [if_neg heq]

theorem supertypes_updateMembers (owner : SymbolId) (change : MemberTable → MemberTable)
    (id : SymbolId) : (program.updateMembers owner change).supertypes id = program.supertypes id := by
  rw [supertypes, supertypes, updateMembers, classInfo?_updateClass]
  cases program.classInfo? id with
  | none => rfl
  | some info =>
      simp only [Option.map_some]
      split <;> rfl

/-- The program with a further method, which is the last one in the table of its class. -/
def addMethod (name : String) (owner : SymbolId) (isStatic isSynchronized : Bool) (arity : Nat)
    (type guard : Option String) (span : Span) : Program :=
  let declared := program.declare name (.method owner isStatic isSynchronized arity) type guard span
  declared.2.updateMembers owner fun members =>
    { members with methods := members.methods ++ [(name, declared.1)] }

theorem supertypes_addMethod (name : String) (owner : SymbolId) (isStatic isSynchronized : Bool)
    (arity : Nat) (type guard : Option String) (span : Span) (id : SymbolId) :
    (program.addMethod name owner isStatic isSynchronized arity type guard span).supertypes id =
      program.supertypes id :=
  (supertypes_updateMembers ..).trans
    (program.supertypes_declare name type guard span (by rintro _ ⟨⟩) id)

/-- The program with a further class, which is the last one in the table of qualified names. -/
def addClass (name : String) (info : ClassInfo) (span : Span) : Program :=
  let declared := program.declare name (.classType info) none none span
  { declared.2 with qualified := declared.2.qualified ++ [(info.qualifiedName, declared.1)] }

/-! ### Well-formed programs -/

/-- A symbol is a class. -/
def IsClass (id : SymbolId) : Prop :=
  ∃ info, program.classInfo? id = some info

theorem IsClass.lt_size {program : Program} {id : SymbolId} (h : program.IsClass id) :
    id < program.symbols.size := by
  obtain ⟨info, hinfo⟩ := h
  exact lt_size_of_classInfo?_eq_some hinfo

theorem IsClass.declare {program : Program} {id : SymbolId} (h : program.IsClass id)
    (name : String) (kind : SymbolKind) (type guard : Option String) (span : Span) :
    (program.declare name kind type guard span).2.IsClass id := by
  obtain ⟨info, hinfo⟩ := h
  exact ⟨info, by rw [classInfo?_declare,
    if_neg (Nat.ne_of_lt (lt_size_of_classInfo?_eq_some hinfo)), hinfo]⟩

theorem IsClass.updateClass {program : Program} {id : SymbolId} (h : program.IsClass id)
    (owner : SymbolId) (change : ClassInfo → ClassInfo) :
    (program.updateClass owner change).IsClass id := by
  obtain ⟨info, hinfo⟩ := h
  exact ⟨_, by rw [classInfo?_updateClass, hinfo]; rfl⟩

/-- The entries of a table of members are symbols of the class that the table belongs to. -/
structure TableOk (owner : SymbolId) (table : MemberTable) : Prop where
  field : ∀ entry ∈ table.fields, ∃ symbol isStatic, program.symbol? entry.2 = some symbol ∧
    symbol.name = entry.1 ∧ symbol.kind = .field owner isStatic
  method : ∀ entry ∈ table.methods, ∃ symbol isStatic isSynchronized arity,
    program.symbol? entry.2 = some symbol ∧ symbol.name = entry.1 ∧
      symbol.kind = .method owner isStatic isSynchronized arity
  isClass : ∀ entry ∈ table.classes, program.IsClass entry.2

/-- What holds of every program: symbols bear their own numbers, a class is declared after the one
around it, supertypes and members are symbols that there are, and the names of classes refer to
classes. -/
structure WellFormed : Prop where
  id_eq : ∀ {id symbol}, program.symbol? id = some symbol → symbol.id = id
  outer_lt : ∀ id {outer}, program.outerClass? id = some outer → outer < id
  supertype_lt : ∀ id {supertype}, supertype ∈ program.supertypes id →
    supertype < program.symbols.size
  table : ∀ id, program.TableOk id (program.members id)
  topLevel_class : ∀ entry ∈ program.topLevel, program.IsClass entry.2
  qualified_class : ∀ entry ∈ program.qualified, program.IsClass entry.2
  library_class : ∀ entry ∈ program.library, program.IsClass entry.2

/-- A way in which a program changes. Whether it may be a change to classes is a parameter. A method is
declared and entered into the table of its class at once, and a class into the table of qualified names; a
field is not entered where there is one of the name. The names of top-level classes are only ever entered
behind those that are there. -/
inductive Change (classes : Prop) : Program → Prop where
  | use (node : NodeId) (id : SymbolId) : Change classes (program.setUse node id)
  | problem (problem : NameProblem) : Change classes (program.addProblem problem)
  | «variable» (name : String) (kind : SymbolKind) (type : Option String) (span : Span)
      (hkind : kind.IsVariable) : Change classes (program.declare name kind type none span).2
  | field (name : String) (owner : SymbolId) (isStatic : Bool) (type guard : Option String)
      (span : Span) (hclasses : classes) :
      Change classes (program.declare name (.field owner isStatic) type guard span).2
  | method (name : String) (owner : SymbolId) (isStatic isSynchronized : Bool) (arity : Nat)
      (type guard : Option String) (span : Span) (hclasses : classes) (howner : program.IsClass owner) :
      Change classes (program.addMethod name owner isStatic isSynchronized arity type guard span)
  | classType (name : String) (info : ClassInfo) (span : Span) (hclasses : classes)
      (houter : ∀ outer, info.outer = some outer → outer < program.symbols.size)
      (hsuper : info.superclass = none ∧ info.interfaces = []) (hmembers : info.members = default) :
      Change classes (program.addClass name info span)
  | table (owner : SymbolId) (change : MemberTable → MemberTable) (hclasses : classes)
      (hmethods : ∀ members, (change members).methods = members.methods)
      (hchange : ∀ info, program.classInfo? owner = some info →
        program.TableOk owner (change info.members))
      (hkept : ∀ info, program.classInfo? owner = some info →
        info.members.classes <+: (change info.members).classes) :
      Change classes (program.updateMembers owner change)
  | supertypes (id : SymbolId) (superclass : Option SymbolId) (interfaces : List SymbolId)
      (hclasses : classes)
      (hlt : ∀ supertype ∈ superclass.toList ++ interfaces, supertype < program.symbols.size)
      (hacyclic : ∀ supertype ∈ superclass.toList ++ interfaces,
        program.isSubclass supertype id = false) :
      Change classes (program.updateClass id fun info => { info with superclass, interfaces })
  | topLevel (topLevel : List (String × SymbolId)) (hclasses : classes)
      (htop : ∀ entry ∈ topLevel, program.IsClass entry.2) (hkept : program.topLevel <+: topLevel) :
      Change classes { program with topLevel }

/-- A sequence of changes. -/
def Grows (classes : Prop) : Program → Program → Prop :=
  Relation.ReflTransGen (Change · classes)

theorem TableOk.mono {program later : Program} {owner : SymbolId} {table : MemberTable}
    (h : program.TableOk owner table)
    (hsymbol : ∀ {id symbol}, program.symbol? id = some symbol → symbol.classInfo? = none →
      later.symbol? id = some symbol)
    (hclass : ∀ {id}, program.IsClass id → later.IsClass id) : later.TableOk owner table where
  field entry hentry := by
    obtain ⟨symbol, isStatic, hfound, hname, hkind⟩ := h.field entry hentry
    exact ⟨symbol, isStatic, hsymbol hfound (by simp [NamedSymbol.classInfo?, hkind]), hname, hkind⟩
  method entry hentry := by
    obtain ⟨symbol, isStatic, isSynchronized, arity, hfound, hname, hkind⟩ := h.method entry hentry
    exact ⟨symbol, isStatic, isSynchronized, arity,
      hsymbol hfound (by simp [NamedSymbol.classInfo?, hkind]), hname, hkind⟩
  isClass entry hentry := hclass (h.isClass entry hentry)

theorem TableOk.default (owner : SymbolId) : program.TableOk owner default where
  field _ h := absurd h List.not_mem_nil
  method _ h := absurd h List.not_mem_nil
  isClass _ h := absurd h List.not_mem_nil

theorem members_eq_of_classInfo? {program : Program} {id : SymbolId} {info : ClassInfo}
    (h : program.classInfo? id = some info) : program.members id = info.members := by
  rw [members, h]; rfl

theorem members_eq_default {program : Program} {id : SymbolId}
    (h : program.classInfo? id = none) : program.members id = default := by
  rw [members, h]; rfl

theorem members_declare {program : Program} {id : SymbolId} (hid : id < program.symbols.size) (name : String)
    (kind : SymbolKind) (type guard : Option String) (span : Span) :
    (program.declare name kind type guard span).2.members id = program.members id := by
  rw [members, members, classInfo?_declare, if_neg (Nat.ne_of_lt hid)]

theorem members_updateMembers {program : Program} {owner : SymbolId} {info : ClassInfo}
    (hinfo : program.classInfo? owner = some info) (change : MemberTable → MemberTable) :
    (program.updateMembers owner change).members owner = change (program.members owner) := by
  rw [members_eq_of_classInfo? hinfo, members, updateMembers, classInfo?_updateClass, hinfo]
  simp

namespace Change

variable {program} {classes : Prop} {later : Program}

theorem size_le (h : program.Change classes later) :
    program.symbols.size ≤ later.symbols.size := by
  cases h with
  | «variable» | field => rw [size_declare]; omega
  | classType name info span => exact Nat.le_of_lt (Nat.lt_of_lt_of_eq (Nat.lt_succ_self _) (size_declare ..).symm)
  | method name owner isStatic isSynchronized arity type guard span =>
      rw [addMethod, Program.updateMembers, size_updateClass, size_declare]
      omega
  | table owner change => exact Nat.le_of_eq (program.size_updateClass owner _).symm
  | supertypes id => exact Nat.le_of_eq (program.size_updateClass id _).symm
  | _ => exact Nat.le_refl _

/-- No symbol is lost, and only classes change. -/
theorem symbol? (h : program.Change classes later) {id : SymbolId} {symbol : NamedSymbol}
    (hsymbol : program.symbol? id = some symbol) :
    ∃ symbol', later.symbol? id = some symbol' ∧ symbol.Becomes symbol' := by
  have hne : id ≠ program.symbols.size := Nat.ne_of_lt (lt_size_of_symbol?_eq_some hsymbol)
  cases h with
  | «variable» | field =>
      exact ⟨symbol, by rw [symbol?_declare, if_neg hne, hsymbol], .same⟩
  | classType =>
      exact ⟨symbol, (symbol?_declare ..).trans ((if_neg hne).trans hsymbol), .same⟩
  | method =>
      exact becomes_updateClass _ (fun _ => by rfl) (by rw [symbol?_declare, if_neg hne, hsymbol])
  | table owner change => exact becomes_updateClass _ (fun _ => by rfl) hsymbol
  | supertypes id => exact becomes_updateClass _ (fun _ => by rfl) hsymbol
  | _ => exact ⟨symbol, hsymbol, .same⟩

theorem symbol?_of_not_class (h : program.Change classes later) {id : SymbolId}
    {symbol : NamedSymbol} (hsymbol : program.symbol? id = some symbol)
    (hinfo : symbol.classInfo? = none) : later.symbol? id = some symbol := by
  obtain ⟨symbol', hsymbol', hbecomes⟩ := h.symbol? hsymbol
  rw [hsymbol', hbecomes.eq_of_classInfo?_eq_none hinfo]

end Change

/-- A symbol that is declared leaves a program well-formed, if a class has as yet no supertypes and
no members and is declared after the one around it. -/
theorem WellFormed.declare {program : Program} (hprogram : program.WellFormed)
    (name : String) (kind : SymbolKind) (type guard : Option String) (span : Span)
    (hkind : ∀ info, kind = .classType info →
      (∀ outer, info.outer = some outer → outer < program.symbols.size) ∧
        (∀ supertype ∈ info.superclass.toList ++ info.interfaces,
          supertype < program.symbols.size) ∧ info.members = default) :
    (program.declare name kind type guard span).2.WellFormed := by
  have hsize := program.size_declare name kind type guard span
  have hclass {id : SymbolId} (h : program.IsClass id) :
      (program.declare name kind type guard span).2.IsClass id :=
    h.declare name kind type guard span
  -- The new class, or none if the symbol is no class.
  have hnew {info : ClassInfo} (h : (⟨program.symbols.size, name, kind, type, guard, span⟩ :
      NamedSymbol).classInfo? = some info) : kind = .classType info := by
    cases kind <;> simp_all [NamedSymbol.classInfo?]
  refine ⟨?_, ?_, ?_, ?_, fun entry hentry => hclass (hprogram.topLevel_class entry hentry),
    fun entry hentry => hclass (hprogram.qualified_class entry hentry),
    fun entry hentry => hclass (hprogram.library_class entry hentry)⟩
  · intro id symbol hsymbol
    rw [symbol?_declare] at hsymbol
    split at hsymbol
    case isTrue heq => rw [← Option.some.inj hsymbol, heq]
    case isFalse => exact hprogram.id_eq hsymbol
  · intro id outer houter
    obtain ⟨info, hinfo, houter⟩ := Option.bind_eq_some_iff.mp houter
    rw [classInfo?_declare] at hinfo
    split at hinfo
    case isTrue heq => exact heq ▸ (hkind info (hnew hinfo)).1 outer houter
    case isFalse => exact hprogram.outer_lt id (by rw [outerClass?, hinfo]; exact houter)
  · intro id supertype hsupertype
    rw [supertypes, classInfo?_declare] at hsupertype
    rw [hsize]
    refine Nat.lt_succ_of_lt ?_
    split at hsupertype
    case h_2 => cases hsupertype
    case h_1 info hinfo =>
      split at hinfo
      case isTrue => exact (hkind info (hnew hinfo)).2.1 supertype hsupertype
      case isFalse => exact hprogram.supertype_lt id (by rw [supertypes, hinfo]; exact hsupertype)
  · intro id
    have hmono {table : MemberTable} (h : program.TableOk id table) :
        (program.declare name kind type guard span).2.TableOk id table := by
      refine h.mono (fun {id symbol} hsymbol _ => ?_) hclass
      rw [symbol?_declare, if_neg (Nat.ne_of_lt (lt_size_of_symbol?_eq_some hsymbol)), hsymbol]
    rw [members, classInfo?_declare]
    split
    case isTrue =>
      cases hinfo : (⟨program.symbols.size, name, kind, type, guard, span⟩ :
          NamedSymbol).classInfo? with
      | none => exact .default _ id
      | some info =>
          rw [Option.map_some, Option.getD_some, (hkind info (hnew hinfo)).2.2]
          exact .default _ id
    case isFalse => exact hmono (hprogram.table id)

/-- What is learned of a class leaves a program well-formed, if the class stays where it is and its
supertypes and members are symbols that there are. -/
theorem WellFormed.updateClass {program : Program} (hprogram : program.WellFormed)
    (owner : SymbolId) (change : ClassInfo → ClassInfo)
    (houter : ∀ info, (change info).outer = info.outer)
    (hinfo : ∀ info, program.classInfo? owner = some info →
      (∀ supertype ∈ (change info).superclass.toList ++ (change info).interfaces,
        supertype < program.symbols.size) ∧ program.TableOk owner (change info).members) :
    (program.updateClass owner change).WellFormed := by
  have hsize := program.size_updateClass owner change
  have hmono {id : SymbolId} {table : MemberTable} (h : program.TableOk id table) :
      (program.updateClass owner change).TableOk id table :=
    h.mono (symbol?_updateClass_of_not_class owner change) fun h => h.updateClass owner change
  refine ⟨?_, ?_, ?_, ?_,
    fun entry hentry => (hprogram.topLevel_class entry hentry).updateClass owner change,
    fun entry hentry => (hprogram.qualified_class entry hentry).updateClass owner change,
    fun entry hentry => (hprogram.library_class entry hentry).updateClass owner change⟩
  · intro id symbol hsymbol
    have hlt : id < program.symbols.size := hsize ▸ lt_size_of_symbol?_eq_some hsymbol
    obtain ⟨old, hold⟩ : ∃ old, program.symbol? id = some old :=
      ⟨_, Array.getElem?_eq_getElem hlt⟩
    obtain ⟨symbol', hsymbol', hbecomes⟩ := becomes_updateClass owner houter hold
    obtain rfl := Option.some.inj (hsymbol.symm.trans hsymbol')
    rw [hbecomes.id_eq, hprogram.id_eq hold]
  · intro id outer h
    rw [outerClass?, classInfo?_updateClass] at h
    refine hprogram.outer_lt id ?_
    rw [outerClass?]
    cases hid : program.classInfo? id with
    | none => rw [hid] at h; cases h
    | some info =>
        rw [hid, Option.map_some, Option.bind_some] at h
        rw [Option.bind_some]
        split at h
        · rwa [houter] at h
        · exact h
  · intro id supertype h
    rw [supertypes, classInfo?_updateClass] at h
    rw [hsize]
    cases hid : program.classInfo? id with
    | none => rw [hid] at h; cases h
    | some info =>
        rw [hid, Option.map_some] at h
        by_cases heq : id = owner
        · subst heq
          rw [if_pos rfl] at h
          exact (hinfo info hid).1 supertype h
        · rw [if_neg heq] at h
          exact hprogram.supertype_lt id (by rw [supertypes, hid]; exact h)
  · intro id
    refine hmono ?_
    cases hid : program.classInfo? id with
    | none =>
        rw [members_eq_default (by rw [classInfo?_updateClass, hid]; rfl)]
        exact .default _ id
    | some info =>
        rw [members_eq_of_classInfo? (by rw [classInfo?_updateClass, hid]; rfl)]
        by_cases heq : id = owner
        · subst heq
          simpa using (hinfo info hid).2
        · simpa [heq, members_eq_of_classInfo? hid] using hprogram.table id

/-- The table of a class may change if its entries still are members of the class. -/
theorem WellFormed.updateMembers {program : Program} (hprogram : program.WellFormed)
    (owner : SymbolId) (change : MemberTable → MemberTable)
    (hchange : ∀ info, program.classInfo? owner = some info →
      program.TableOk owner (change info.members)) :
    (program.updateMembers owner change).WellFormed := by
  refine hprogram.updateClass owner _ (fun _ => rfl) fun info hinfo =>
    ⟨fun supertype h => hprogram.supertype_lt owner ?_, hchange info hinfo⟩
  rw [Program.supertypes, hinfo]
  exact h

/-- A class leaves a program well-formed when it is entered under its qualified name. -/
theorem WellFormed.addClass {program : Program} (hprogram : program.WellFormed) (name : String)
    {info : ClassInfo} (span : Span)
    (houter : ∀ outer, info.outer = some outer → outer < program.symbols.size)
    (hsuper : ∀ supertype ∈ info.superclass.toList ++ info.interfaces, supertype < program.symbols.size)
    (hmembers : info.members = default) : (program.addClass name info span).WellFormed := by
  have hdeclared := hprogram.declare name (.classType info) none none span fun info' h => by
    obtain rfl := SymbolKind.classType.inj h
    exact ⟨houter, hsuper, hmembers⟩
  refine ⟨hdeclared.id_eq, hdeclared.outer_lt, hdeclared.supertype_lt,
    fun id => (hdeclared.table id).mono (fun h _ => h) fun h => h, hdeclared.topLevel_class,
    fun entry hentry => ?_, hdeclared.library_class⟩
  rcases List.mem_append.mp hentry with hentry | hentry
  · exact hdeclared.qualified_class entry hentry
  · obtain rfl := List.mem_singleton.mp hentry
    exact ⟨info, (classInfo?_declare ..).trans (if_pos rfl)⟩

theorem WellFormed.addMethod {program : Program} (hprogram : program.WellFormed) (name : String)
    (owner : SymbolId) (isStatic isSynchronized : Bool) (arity : Nat) (type guard : Option String)
    (span : Span) :
    (program.addMethod name owner isStatic isSynchronized arity type guard span).WellFormed := by
  have hdeclared := hprogram.declare name (.method owner isStatic isSynchronized arity) type guard span
    nofun
  rw [Program.addMethod]
  refine hdeclared.updateMembers owner _ fun info hinfo => ?_
  have htable := members_eq_of_classInfo? hinfo ▸ hdeclared.table owner
  refine ⟨htable.field, fun entry hentry => ?_, htable.isClass⟩
  rcases List.mem_append.mp hentry with hentry | hentry
  · exact htable.method entry hentry
  · obtain rfl := List.mem_singleton.mp hentry
    exact ⟨_, _, _, _, (symbol?_declare ..).trans (if_pos rfl), rfl, rfl⟩

namespace Change

variable {program} {classes : Prop} {later : Program}

theorem wellFormed (h : program.Change classes later) (hprogram : program.WellFormed) :
    later.WellFormed := by
  cases h with
  | use | problem => exact ⟨hprogram.id_eq, hprogram.outer_lt, hprogram.supertype_lt,
      fun id => (hprogram.table id).mono (fun h _ => h) fun h => h, hprogram.topLevel_class,
      hprogram.qualified_class, hprogram.library_class⟩
  | topLevel _ _ htop =>
      exact ⟨hprogram.id_eq, hprogram.outer_lt, hprogram.supertype_lt,
        fun id => (hprogram.table id).mono (fun h _ => h) fun h => h, htop, hprogram.qualified_class,
        hprogram.library_class⟩
  | «variable» _ _ _ _ hkind =>
      refine hprogram.declare _ _ _ _ _ fun info h => ?_
      subst h
      exact hkind.elim
  | field => exact hprogram.declare _ _ _ _ _ nofun
  | method => exact hprogram.addMethod ..
  | classType name info span _ houter hsuper hmembers =>
      refine hprogram.addClass name span houter ?_ hmembers
      rw [hsuper.1, hsuper.2]
      exact fun _ h => absurd h List.not_mem_nil
  | table owner change _ _ hchange => exact hprogram.updateMembers owner change hchange
  | supertypes id superclass interfaces _ hlt =>
      refine hprogram.updateClass id _ (fun _ => rfl) fun info hinfo => ⟨hlt, ?_⟩
      rw [← members_eq_of_classInfo? hinfo]
      exact hprogram.table id

theorem mono {classes' : Prop} (himp : classes → classes') (h : program.Change classes later) :
    program.Change classes' later := by
  cases h with
  | use node id => exact .use node id
  | problem problem => exact .problem problem
  | «variable» name kind type span hkind => exact .variable name kind type span hkind
  | field name owner isStatic type guard span hclasses =>
      exact .field name owner isStatic type guard span (himp hclasses)
  | method name owner isStatic isSynchronized arity type guard span hclasses howner =>
      exact .method name owner isStatic isSynchronized arity type guard span (himp hclasses) howner
  | classType name info span hclasses houter hsuper hmembers =>
      exact .classType name info span (himp hclasses) houter hsuper hmembers
  | table owner change hclasses hmethods hchange hkept =>
      exact .table owner change (himp hclasses) hmethods hchange hkept
  | supertypes id superclass interfaces hclasses hlt hacyclic =>
      exact .supertypes id superclass interfaces (himp hclasses) hlt hacyclic
  | topLevel topLevel hclasses htop hkept => exact .topLevel topLevel (himp hclasses) htop hkept

end Change

namespace Grows

variable {program later latest : Program} {classes classes' : Prop}

theorem refl (classes : Prop) (program : Program) : Grows classes program program :=
  Relation.ReflTransGen.refl

theorem trans (hfirst : Grows classes program later) (hsecond : Grows classes later latest) :
    Grows classes program latest :=
  Relation.ReflTransGen.trans hfirst hsecond

theorem of_change (h : program.Change classes later) : Grows classes program later :=
  Relation.ReflTransGen.single h

theorem mono (himp : classes → classes') (h : Grows classes program later) :
    Grows classes' program later := by
  induction h with
  | refl => exact refl classes' program
  | tail _ hchange ih => exact ih.trans (of_change (hchange.mono himp))

theorem size_le (h : Grows classes program later) :
    program.symbols.size ≤ later.symbols.size := by
  induction h with
  | refl => exact Nat.le_refl _
  | tail _ hchange ih => exact Nat.le_trans ih hchange.size_le

theorem symbol? (h : Grows classes program later) {id : SymbolId} {symbol : NamedSymbol}
    (hsymbol : program.symbol? id = some symbol) :
    ∃ symbol', later.symbol? id = some symbol' ∧ symbol.Becomes symbol' := by
  induction h with
  | refl => exact ⟨symbol, hsymbol, .same⟩
  | tail _ hchange ih =>
      obtain ⟨middle, hmiddle, hfirst⟩ := ih
      obtain ⟨last, hlast, hsecond⟩ := hchange.symbol? hmiddle
      exact ⟨last, hlast, hfirst.trans hsecond⟩

theorem symbol?_of_not_class (h : Grows classes program later) {id : SymbolId}
    {symbol : NamedSymbol} (hsymbol : program.symbol? id = some symbol)
    (hinfo : symbol.classInfo? = none) : later.symbol? id = some symbol := by
  induction h with
  | refl => exact hsymbol
  | tail _ hchange ih => exact hchange.symbol?_of_not_class ih hinfo

/-- What is no class in the end and was there before was the same before. -/
theorem symbol?_of_lt_size (h : Grows classes program later) {id : SymbolId} {symbol : NamedSymbol}
    (hsymbol : later.symbol? id = some symbol) (hinfo : symbol.classInfo? = none)
    (hid : id < program.symbols.size) : program.symbol? id = some symbol := by
  obtain ⟨old, hold⟩ : ∃ old, program.symbol? id = some old := ⟨_, Array.getElem?_eq_getElem hid⟩
  obtain ⟨symbol', hsymbol', hbecomes⟩ := h.symbol? hold
  obtain rfl := Option.some.inj (hsymbol.symm.trans hsymbol')
  rw [hold, hbecomes.eq_of_later_classInfo?_eq_none hinfo]

/-- Where no classes change no fields and methods are declared. -/
theorem symbol?_of_owner? (h : Grows False program later) {id owner : SymbolId}
    {symbol : NamedSymbol} (hsymbol : later.symbol? id = some symbol)
    (howner : symbol.owner? = some owner) : program.symbol? id = some symbol := by
  induction h with
  | refl => exact hsymbol
  | tail _ hchange ih =>
      refine ih ?_
      cases hchange with
      | use | problem => exact hsymbol
      | «variable» _ _ _ _ hkind =>
          rw [symbol?_declare] at hsymbol
          split at hsymbol
          · obtain rfl := Option.some.inj hsymbol
            rw [NamedSymbol.owner?] at howner
            split at howner <;> simp_all [SymbolKind.IsVariable]
          · exact hsymbol
      | field | method | classType | table | supertypes | topLevel => contradiction

theorem wellFormed (h : Grows classes program later) (hprogram : program.WellFormed) :
    later.WellFormed := by
  induction h with
  | refl => exact hprogram
  | tail _ hchange ih => exact hchange.wellFormed ih

/-- The class around a class never changes. -/
theorem classInfo? (h : Grows classes program later) {id : SymbolId} {info : ClassInfo}
    (hinfo : program.classInfo? id = some info) :
    ∃ info', later.classInfo? id = some info' ∧ info'.outer = info.outer := by
  obtain ⟨symbol, hsymbol, hinfo⟩ := Option.bind_eq_some_iff.mp hinfo
  obtain ⟨symbol', hsymbol', hbecomes⟩ := h.symbol? hsymbol
  obtain ⟨info', hinfo', houter⟩ := hbecomes.outer_eq hinfo
  exact ⟨info', by rw [Program.classInfo?, hsymbol']; exact hinfo', houter⟩

end Grows

theorem IsClass.mono {program later : Program} {classes : Prop} {id : SymbolId}
    (h : program.IsClass id) (hgrows : Grows classes program later) : later.IsClass id := by
  obtain ⟨info, hinfo⟩ := h
  obtain ⟨info', hinfo', -⟩ := hgrows.classInfo? hinfo
  exact ⟨info', hinfo'⟩

end Program
end LockDiscipline
