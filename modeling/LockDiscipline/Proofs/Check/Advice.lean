import LockDiscipline.Check.InvalidGuard
import LockDiscipline.Proofs.Grammar.BareNames
import LockDiscipline.Proofs.Grammar.DeclarationSpans
import LockDiscipline.Proofs.Lock.Agreement
import LockDiscipline.Proofs.Program.Provenance
import LockDiscipline.Proofs.Program.Supertypes
import LockDiscipline.Proofs.Report.Suggestion
/-!
# Advice that can be followed

The finding on a guard that is no lock may suggest a field. The suggestion is taken from all symbols that are
fields of the class or of a class around it, whereas the guard that is written instead is read as an expression
and looked up from the class. Both meet at the declaration of the field: its name is an identifier of the
source, so it can be read again, and the class that declares the field finds one of this name, so the name means
a field for the classes inside of it. Which one it is does not matter. A field that is declared twice, or that
an inner class hides, is not the one that is found, but what is found is a field as well.
-/

namespace LockDiscipline

/-! ### Where the suggested names come from -/

/-- The fields of a program that was read from a text have identifiers of the text as their names, and their
classes find fields of these names among their own. -/
theorem ParsedUnit.isIdentOf_of_isField (source : List Char) {id owner : SymbolId} {symbol : NamedSymbol}
    (hsymbol : (Program.ofUnit (ofSource source).unit).symbol? id = some symbol)
    (howner : symbol.owner? = some owner) (hfield : symbol.isField) :
    IsIdentOf (Lexer.tokenize source).tokens symbol.name ∧
      ∃ entry ∈ ((Program.ofUnit (ofSource source).unit).members owner).fields, entry.1 = symbol.name := by
  obtain ⟨⟨outer, houter, path, member, hwithin, hname⟩, hentry⟩ :=
    Program.exists_fieldNames_ofUnit (nodup_numbers_ofTokens _) hsymbol howner hfield
  obtain ⟨inside, inner, hinner, hdeclared⟩ := TreeNode.exists_declaredNames hname
  obtain ⟨path, hplace⟩ := CompilationUnit.exists_hasAt houter (hwithin.trans hinner)
  obtain ⟨low, high, hlaid⟩ := exists_laid_ofTokens (Lexer.inOrder_tokens source)
  exact ⟨(hlaid.spanned hplace).named _ hdeclared, hentry⟩

namespace Viewpoint

variable {view : Viewpoint}

theorem mem_fieldNames {name : String} : name ∈ view.fieldNames ↔
    ∃ symbol ∈ view.program.symbols, symbol.isField ∧
      (∃ owner, symbol.owner? = some owner ∧ owner ∈ view.enclosing) ∧ symbol.name = name := by
  simp only [fieldNames, List.mem_map, List.mem_filter, Array.mem_toList_iff, Bool.and_eq_true,
    Option.any_eq_true, List.contains_iff_mem, and_assoc]

/-- The advice names a field of the class or of a class around it, another one than the guard. -/
theorem mem_fieldNames_of_guardAdvice? {declared : DeclaredGuard} {meant : String}
    (h : view.guardAdvice? declared = some ("did you mean `" ++ meant ++ "`?")) :
    meant ∈ view.fieldNames ∧ meant ≠ String.ofList declared.plainName := by
  rw [guardAdvice?] at h
  split at h
  case isFalse => cases h
  case isTrue =>
    obtain ⟨closest, hclosest, htext⟩ := Option.map_eq_some_iff.mp h
    obtain rfl : closest = meant := by simpa using htext
    have hfirst := Suggestion.firstNearest_of_closest? hclosest
    exact ⟨hfirst.mem, hfirst.1.1.1⟩

end Viewpoint

/-! ### What a bare name is bound to -/

theorem LockSymbol.ofSymbol_of_isField {symbol : NamedSymbol} (h : symbol.isField) :
    LockSymbol.ofSymbol symbol = ⟨symbol.id, symbol.name⟩ := by
  have hmethod : symbol.isMethod = false := by
    rw [← Bool.not_eq_true]
    exact fun hmethod => symbol.not_isField_of_isMethod hmethod h
  rw [LockSymbol.ofSymbol, hmethod]
  rfl

/-- A class offers a field for every name in its table. -/
theorem Program.offers_of_mem_fields {program : Program} {owner : SymbolId} {name : String}
    (h : ∃ entry ∈ (program.members owner).fields, entry.1 = name) : program.offers (.name name) owner := by
  obtain ⟨entry, hentry, hkey⟩ := h
  obtain ⟨more, hself⟩ := program.exists_ancestors_eq owner
  have hdeclares : program.declaresNamed (.name name) owner := by
    rw [declaresNamed, List.lookup_isSome_iff]
    exact ⟨entry, hentry, by rw [hkey, beq_self_eq_true]⟩
  rw [offers, hself, List.any_cons, hdeclares, Bool.true_or]

namespace Viewpoint

variable {view : Viewpoint}

/-- A bare name for which a class around offers a field is bound to a field of this name. -/
theorem exists_bindGuard_of_offers (hprogram : view.program.WellFormed) {owner : SymbolId}
    (howner : owner ∈ view.enclosing) {name : String} (hoffers : view.program.offers (.name name) owner)
    (hparse : ∃ id span, Expr.ofSource name.toList = .ok ⟨id, .name name, span⟩) :
    ∃ base id, view.bindGuard name = .ok (.select base ⟨id, name⟩) := by
  obtain ⟨field, hfield⟩ :
      ∃ field, view.enclosing.findSome? (view.program.offered? (.name name)) = some field := by
    refine Option.isSome_iff_exists.mp (List.findSome?_isSome_iff.mpr ⟨owner, howner, ?_⟩)
    rw [Program.offered?_isSome, hoffers]
  have hscoped : view.scopedField? name = some field := (scopedField?_eq hprogram name).trans hfield
  -- Any field that is found from inside can be selected, from the instance or the class that it belongs to.
  obtain ⟨symbol, base, hsymbol, hselect⟩ := exists_select_of_findSome? hprogram (.name name) hfield
  obtain ⟨type, -, htype⟩ := List.exists_of_findSome?_eq_some hfield
  obtain ⟨symbol', hsymbol', rfl, hisField⟩ := hprogram.findField?_name htype
  obtain rfl := Option.some.inj (hsymbol.symm.trans hsymbol')
  obtain ⟨id, span, hparse⟩ := hparse
  refine ⟨base, symbol.id, ?_⟩
  rw [bindGuard, hparse]
  dsimp only
  rw [bindGuardExpr?, bindName?, hscoped]
  dsimp only
  rw [hselect, LockSymbol.ofSymbol_of_isField hisField]
  rfl

end Viewpoint

/-- Where the finding on a guard suggests a name, the guard can be replaced by this name. For any text, any class
and any guard, the name is not the one that was misspelled, and from the class it is bound to a field of this
name. This holds whatever field the suggestion was taken from: an inherited or static one, one of a class around,
a constant of an enum, or one that is declared twice. -/
theorem ParsedUnit.exists_bindGuard_of_help_ofSource (source : List Char) (declaring : ClassUnit)
    (declared : DeclaredGuard) (severity : Severity) (error : NotALock) (meant : String)
    (hhelp : (declaring.guardDiagnostic (.ofUnit (ofSource source).unit) severity declared error).help =
      some ("did you mean `" ++ meant ++ "`?")) :
    meant ≠ String.ofList declared.plainName ∧ ∃ base id,
      (declaring.view (.ofUnit (ofSource source).unit)).bindGuard meant = .ok (.select base ⟨id, meant⟩) := by
  have hprogram := Program.wellFormed_ofUnit (ofSource source).unit
  obtain ⟨hmem, hne⟩ := Viewpoint.mem_fieldNames_of_guardAdvice? hhelp
  obtain ⟨symbol, hsymbol, hfield, ⟨owner, hbelongs, howner⟩, rfl⟩ := Viewpoint.mem_fieldNames.mp hmem
  obtain ⟨id, hid⟩ := Array.getElem?_of_mem hsymbol
  obtain ⟨hident, hentry⟩ := isIdentOf_of_isField source hid hbelongs hfield
  exact ⟨hne, Viewpoint.exists_bindGuard_of_offers hprogram howner (Program.offers_of_mem_fields hentry)
    (Expr.exists_ofSource_of_isIdentOf hident)⟩

/-- An inner class whose guard is a misspelled field of the class around. -/
def misspelledGuardSource : List Char :=
  ("class A \x7b Object lock; class B \x7b @GuardedBy(\"this.lokc\") int x; \x7d \x7d").toList

private theorem misspelledGuard_help :
    let unit := (ParsedUnit.ofSource misspelledGuardSource).unit
    let program := Program.ofUnit unit
    ∃ declaring ∈ (CodeUnits.ofUnit program unit).classes, ∃ declared ∈ declaring.guards program,
      declared.plainName = "lokc".toList ∧
        ((declaring.view program).bindGuard declared.guard).toOption = none ∧
          (declaring.view program).guardAdvice? declared = some "did you mean `lock`?" := by
  decide +kernel

theorem exists_bindGuard_of_help_misspelled :
    let unit := (ParsedUnit.ofSource misspelledGuardSource).unit
    let program := Program.ofUnit unit
    ∃ declaring ∈ (CodeUnits.ofUnit program unit).classes, ∃ declared ∈ declaring.guards program, ∃ error,
      (declaring.view program).bindGuard declared.guard = .error error ∧
        (declaring.guardDiagnostic program .error declared error).help =
          some ("did you mean `" ++ "lock" ++ "`?") ∧
        "lock" ≠ "lokc" ∧
          ∃ base id, (declaring.view program).bindGuard "lock" = .ok (.select base ⟨id, "lock"⟩) := by
  obtain ⟨declaring, hdeclaring, declared, hdeclared, hplain, hbind, hadvice⟩ := misspelledGuard_help
  cases hguard : (declaring.view _).bindGuard declared.guard with
  | ok lock =>
      rw [hguard] at hbind
      cases hbind
  | error error =>
      obtain ⟨hne, hbound⟩ := ParsedUnit.exists_bindGuard_of_help_ofSource misspelledGuardSource declaring
        declared .error error "lock" hadvice
      rw [hplain, String.ofList_toList] at hne
      exact ⟨declaring, hdeclaring, declared, hdeclared, error, hguard, hadvice, hne, hbound⟩

end LockDiscipline
