import LockDiscipline.Proofs.Check.Skips
/-!
# Which guard annotations are answered

An annotation that declares a guard is answered in one of two ways: the symbols of its declaration have
a guard that binds from their class, or the rule on guards that do not name a lock reports it. Both the
resolver and the rule read the annotation through the text of its element `value`, and an annotation
without such a text looks to both of them like no annotation at all. So a member is neither protected nor
reported where its first guard annotation gives anything but a string literal, though the text of such a
literal is reported whatever it says.
-/

namespace LockDiscipline

/-! ### What an annotation says -/

namespace AnnotationUse

/-- The element `value` of an annotation is a string literal. -/
def IsText (use : AnnotationUse) : Prop :=
  ∃ arg text, use.valueArg? = some arg ∧ arg.value.kind = .string text

theorem isSome_value? {use : AnnotationUse} : use.value?.isSome ↔ use.IsText := by
  rw [value?, IsText]
  cases harg : use.valueArg? with
  | none => simp
  | some arg =>
      obtain ⟨name, id, kind, span⟩ := arg
      cases kind <;> simp

end AnnotationUse

namespace Modifiers

/-- An annotation that declares a guard stands among the modifiers. -/
def IsAnnotated (modifiers : Modifiers) : Prop :=
  ∃ use ∈ modifiers.annotations, use.simpleName = guardAnnotationName

/-- The first annotation that declares a guard gives it as a string literal. -/
def NamesGuard (modifiers : Modifiers) : Prop :=
  ∃ use, modifiers.guardUse? = some use ∧ use.IsText

theorem isSome_guardedBy? {modifiers : Modifiers} :
    modifiers.guardedBy?.isSome ↔ modifiers.NamesGuard := by
  rw [guardedBy?, NamesGuard]
  cases huse : modifiers.guardUse? with
  | none => simp
  | some use => simp [← AnnotationUse.isSome_value?]

theorem isSome_guardUse? {modifiers : Modifiers} :
    modifiers.guardUse?.isSome ↔ modifiers.IsAnnotated := by
  simp [guardUse?, IsAnnotated, List.find?_isSome]

end Modifiers

/-! ### The answers to a guard annotation -/

namespace ClassUnit

/-- The field or method that a node declares in a class has a guard that binds from this class. -/
def Honours (program : Program) (declaring : ClassUnit) (node : NodeId) : Prop :=
  ∃ symbol guard lock, program.usedSymbol? node = some symbol ∧
    symbol.owner? = some declaring.id ∧ symbol.guard = some guard ∧
      (declaring.view program).bindGuard guard = .ok lock

/-- A finding reports the guard of a declaration in a class, and shows its annotation. -/
def ReportsOn (program : Program) (options : CheckOptions) (declaring : ClassUnit) (member : Member)
    (finding : Diagnostic) : Prop :=
  ∃ declared error, DeclaredGuard.ofMember? program member = some declared ∧
    (declaring.view program).bindGuard declared.guard = .error error ∧
      finding = declaring.guardDiagnostic program options.guardSeverity declared error ∧
        finding.primarySpan? = some declared.declaration.span

end ClassUnit

/-- The guard annotation on what a node declares is honoured, or there is a finding on its declaration. -/
def CompilationUnit.Answers (unit : CompilationUnit) (options : CheckOptions) (declaring : ClassUnit)
    (member : Member) (node : NodeId) : Prop :=
  declaring.Honours (.ofUnit unit) node ∨
    ∃ finding ∈ (CheckSubject.ofUnit unit).findings options .invalidGuard,
      declaring.ReportsOn (.ofUnit unit) options member finding

namespace CompilationUnit

variable {unit : CompilationUnit} {declaring : ClassUnit} {member : Member}
  {carrier : Modifiers × NodeId}

/-- The variables of a field declaration share their modifiers, which the rule reads at the first. -/
theorem guardedBy?_of_ofMember? {declared : DeclaredGuard} {program : Program}
    (hdeclared : DeclaredGuard.ofMember? program member = some declared)
    (hcarrier : carrier ∈ member.carriers) : carrier.1.guardedBy? = some declared.guard := by
  obtain ⟨modifiers, node, hfirst, huse, hvalue, -⟩ := DeclaredGuard.ofMember?_eq_some.mp hdeclared
  have hmodifiers : carrier.1 = modifiers := by
    obtain ⟨number, kind, span⟩ := member
    cases kind with
    | field shared type declarators =>
        obtain ⟨declarator, hdeclarator, rfl⟩ := List.mem_map.mp hcarrier
        cases declarators with
        | nil => cases hdeclarator
        | cons first rest => exact (Prod.mk.inj (Option.some.inj hfirst)).1
    | method decl =>
        obtain rfl := List.mem_singleton.mp hcarrier
        exact (Prod.mk.inj (Option.some.inj hfirst)).1
    | _ => cases hfirst
  rw [hmodifiers, Modifiers.guardedBy?, huse]
  exact hvalue

/-- An annotation that gives no text is answered by nothing: the symbol has no guard, and the rule
passes over the declaration. -/
theorem not_answers {inInterface : Bool}
    (hdeclared : (Program.ofUnit unit).Carries declaring.id inInterface member carrier)
    (hcarrier : carrier ∈ member.carriers) (htext : carrier.1.guardedBy? = none)
    (options : CheckOptions) : ¬ unit.Answers options declaring member carrier.2 := by
  obtain ⟨id, symbol, huse, hsymbol, -, hguard, -⟩ := hdeclared
  rintro (⟨honoured, guard, lock, hhonoured, -, hsome, -⟩ | ⟨finding, -, declared, error, hread, -⟩)
  · rw [Program.usedSymbol?, huse, Option.bind_some, hsymbol] at hhonoured
    obtain rfl := Option.some.inj hhonoured
    rw [hguard, htext] at hsome
    cases hsome
  · rw [guardedBy?_of_ofMember? hread hcarrier] at htext
    cases htext

variable (hnodup : unit.numbers.Nodup)
include hnodup

/-- An annotation that gives a text is answered, whatever the text is: where it does not bind, the rule
binds it in vain from the same class. -/
theorem answers (hdeclaring : declaring ∈ (CodeUnits.ofUnit (.ofUnit unit) unit).classes)
    (hmember : member ∈ declaring.decl.members) (hcarrier : carrier ∈ member.carriers) {guard : String}
    (htext : carrier.1.guardedBy? = some guard) (options : CheckOptions) :
    unit.Answers options declaring member carrier.2 := by
  obtain ⟨id, symbol, huse, hsymbol, howner, hguard, -⟩ :=
    carries_of_mem_classes hnodup hdeclaring hmember hcarrier
  cases hbind : (declaring.view (.ofUnit unit)).bindGuard guard with
  | ok lock =>
      refine .inl ⟨symbol, guard, lock, ?_, howner, hguard.trans htext, hbind⟩
      rw [Program.usedSymbol?, huse, Option.bind_some, hsymbol]
  | error error =>
      obtain ⟨declaration, -, -, hdeclared⟩ :=
        exists_declaredGuard hnodup hdeclaring hmember hcarrier htext
      have hfinding : declaring.guardDiagnostic (.ofUnit unit) options.guardSeverity
          ⟨guard, declaration⟩ error ∈ (CheckSubject.ofUnit unit).findings options .invalidGuard :=
        mem_findings_invalidGuard.mpr
          ⟨declaring, hdeclaring, member, hmember, _, error, hdeclared, hbind, rfl⟩
      exact .inr ⟨_, hfinding, _, error, hdeclared, hbind, rfl, rfl⟩

end CompilationUnit

/-- What a class of the unit declares is protected by the lock that an annotation names, or the annotation
is reported, exactly if the first guard annotation there gives a string literal. -/
theorem ParsedUnit.answers_iff_namesGuard_ofTokens (tokens : List Token) (options : CheckOptions)
    {declaring : ClassUnit} (hdeclaring : declaring ∈
      (CodeUnits.ofUnit (.ofUnit (ofTokens tokens).unit) (ofTokens tokens).unit).classes)
    {member : Member} (hmember : member ∈ declaring.decl.members) {carrier : Modifiers × NodeId}
    (hcarrier : carrier ∈ member.carriers) :
    (ofTokens tokens).unit.Answers options declaring member carrier.2 ↔ carrier.1.NamesGuard := by
  have hnodup := nodup_numbers_ofTokens tokens
  rw [← Modifiers.isSome_guardedBy?]
  constructor
  · intro hanswers
    by_contra hnone
    rw [Bool.not_eq_true, Option.isSome_eq_false_iff, Option.isNone_iff_eq_none] at hnone
    have hdeclared := CompilationUnit.carries_of_mem_classes hnodup hdeclaring hmember hcarrier
    exact CompilationUnit.not_answers hdeclared hcarrier hnone options hanswers
  · intro hsome
    obtain ⟨guard, htext⟩ := Option.isSome_iff_exists.mp hsome
    exact CompilationUnit.answers hnodup hdeclaring hmember hcarrier htext options

/-- A class with a guard annotation that names the lock without quotes, and with a string literal that
names nothing. -/
def unquotedGuardTokens : List Token :=
  (Lexer.tokenize ("class A \x7b final Object lock = new Object(); @GuardedBy(lock) int x; " ++
    "@GuardedBy(\"lost\") int y; void f() \x7b x = y; \x7d \x7d").toList).tokens

private theorem exists_lostGuard :
    let unit := (ParsedUnit.ofTokens unquotedGuardTokens).unit
    ∃ declaring, declaring ∈ (CodeUnits.ofUnit (.ofUnit unit) unit).classes ∧
      ∃ member, member ∈ declaring.decl.members ∧
        ∃ carrier, carrier ∈ member.carriers ∧ carrier.1.guardedBy? = some "lost" := by
  decide +kernel

theorem answers_iff_namesGuard_unquotedGuardTokens :
    let unit := (ParsedUnit.ofTokens unquotedGuardTokens).unit
    ∃ declaring, declaring ∈ (CodeUnits.ofUnit (.ofUnit unit) unit).classes ∧
      ∃ member, member ∈ declaring.decl.members ∧
        ∃ carrier, carrier ∈ member.carriers ∧ carrier.1.guardedBy? = some "lost" ∧
          unit.Answers .default declaring member carrier.2 := by
  obtain ⟨declaring, hdeclaring, member, hmember, carrier, hcarrier, hguard⟩ := exists_lostGuard
  have hnames : carrier.1.NamesGuard := Modifiers.isSome_guardedBy?.mp (by rw [hguard]; rfl)
  exact ⟨declaring, hdeclaring, member, hmember, carrier, hcarrier, hguard,
    (ParsedUnit.answers_iff_namesGuard_ofTokens unquotedGuardTokens .default hdeclaring hmember
      hcarrier).mpr hnames⟩

private theorem exists_unquotedGuard :
    let parsed := ParsedUnit.ofTokens unquotedGuardTokens
    parsed.errors = [] ∧
      ∃ declaring, declaring ∈ (CodeUnits.ofUnit (.ofUnit parsed.unit) parsed.unit).classes ∧
        ∃ member, member ∈ declaring.decl.members ∧
          ∃ carrier, carrier ∈ member.carriers ∧
            carrier.1.guardUse?.isSome ∧ carrier.1.guardedBy? = none := by
  decide +kernel

/-- The guard annotation without quotes protects nothing there, and no rule says so. -/
theorem exists_annotated_not_answers :
    let parsed := ParsedUnit.ofTokens unquotedGuardTokens
    parsed.errors = [] ∧
      ∃ declaring, declaring ∈ (CodeUnits.ofUnit (.ofUnit parsed.unit) parsed.unit).classes ∧
        ∃ member, member ∈ declaring.decl.members ∧
          ∃ carrier, carrier ∈ member.carriers ∧ carrier.1.IsAnnotated ∧
            ∀ options, ¬ parsed.unit.Answers options declaring member carrier.2 := by
  obtain ⟨herrors, declaring, hdeclaring, member, hmember, carrier, hcarrier, huse, hguard⟩ :=
    exists_unquotedGuard
  have hdeclared := CompilationUnit.carries_of_mem_classes
    (ParsedUnit.nodup_numbers_ofTokens unquotedGuardTokens) hdeclaring hmember hcarrier
  exact ⟨herrors, declaring, hdeclaring, member, hmember, carrier, hcarrier,
    Modifiers.isSome_guardUse?.mp huse, CompilationUnit.not_answers hdeclared hcarrier hguard⟩

end LockDiscipline
