import LockDiscipline.Proofs.Program.DottedTypes
/-!
# Variables in front of dotted names

The name of a local variable should not matter. It does where the class of the variable is not known and
names are selected from it: then the selection is resolved by its text, as if the variable were a package,
so that it may name a class. A variable does not obscure the package of its name. With another name of the
variable the text is another one, and the two are resolved alike exactly if both dotted names lead to the
same class.
-/

namespace LockDiscipline

/-- An expression selects names, in a class, from a variable of which no class is known. -/
structure Draft.SpellsUnknown (draft : TrackedDraft) (fromClass : SymbolId) (head : String) (names : List String)
    (expr : Expr) : Prop extends draft.Spells fromClass head none names expr where
  isVariable : ∃ id symbol, draft.scopes.lookup head (draft.program.findField? · head) = some id ∧
    draft.program.symbol? id = some symbol ∧ draft.program.IsClass symbol.contextClass ∧
      draft.program.typeOf? id = none

namespace Resolving

variable {draft : TrackedDraft} {fromClass : SymbolId} {head : String} {names : List String} {expr : Expr}

/-- A variable of unknown class denotes what a name without meaning denotes. -/
theorem resolvesTo_variable (hdraft : draft.program.WellFormed) {id : SymbolId} {symbol : NamedSymbol}
    (hfound : draft.scopes.lookup head (draft.program.findField? · head) = some id)
    (hsymbol : draft.program.symbol? id = some symbol) (hcontext : draft.program.IsClass symbol.contextClass)
    (htype : draft.program.typeOf? id = none) (node : NodeId) (span : Span) :
    ResolvesTo ⟨node, .name head, span⟩ draft none := by
  have hrun : (resolveExpr ⟨node, .name head, span⟩).run draft =
      (useValue node id).run (visiting draft node) := by
    rw [run_resolveExpr, resolveExprKind, run_resolveName_of_some hfound]
  have hused : draft.program.SameClasses (draft.program.setUse node id) := .of_change (.use node id)
  have hunknown : (draft.program.setUse node id).typeOf? id = none := by
    rw [hused.typeOf?_eq hdraft hsymbol hcontext.lt_size, htype]
  constructor <;> rw [hrun]
  · exact congrArg Denotation.value hunknown
  · rintro type ⟨⟩
  · rfl
  · exact .of_change (.use node id)

/-- Names that are selected from a variable of unknown class are resolved link by link, as if the variable
were a package: the selection denotes a class where one bears the dotted name, whatever the variable is. -/
theorem resolvesTo_spellsUnknown (hdraft : draft.program.WellFormed) (hclass : draft.program.IsClass fromClass)
    (h : draft.SpellsUnknown fromClass head names expr) :
    ResolvesTo expr draft
      (draft.program.typeAlong? fromClass draft.program.memberClass? (some head) none names) := by
  obtain ⟨node, span, hselects⟩ := h.selects
  obtain ⟨id, symbol, hfound, hsymbol, hcontext, htype⟩ := h.isVariable
  refine resolvesTo_selects hselects ⟨node, span, rfl⟩ (fun before hprogram hscopes => ?_) hdraft hclass
    h.toSpells
  rw [← hprogram] at hdraft hfound hsymbol hcontext htype
  rw [← hscopes] at hfound
  exact resolvesTo_variable hdraft hfound hsymbol hcontext htype node span

end Resolving

/-! ### A variable with the name of a package -/

/-- An initializer in which the rest of the name of a library class is selected from a local variable of an
unknown class. -/
def localSource (name : String) : List Char :=
  ("class A \x7b \x7b T " ++ name ++ "; T t = " ++ name ++ ".lang.Object; \x7d \x7d").toList

/-- The unit of that source. Behind the library the class has the number 24, and the variable the number
25. -/
def localUnit (name : String) : CompilationUnit :=
  (ParsedUnit.ofSource (localSource name)).unit

/-- The place behind such a variable in such a class. -/
def behindLocal (unit : CompilationUnit) (name : String) : TrackedDraft :=
  let draft := Resolving.inside (Program.draftOf unit) 24
  { draft with scopes := (draft.scopes.push .block).define name 25 }

/-- The selection from the variable. -/
def localSelection (name : String) : Expr :=
  ⟨5, .select ⟨4, .select ⟨3, .name name, default⟩ "lang", default⟩ "Object", default⟩

namespace Resolving

private theorem local_names : ((Program.ofUnit (localUnit "java")).classInfo? 24).isSome ∧
    (behindLocal (localUnit "java") "java").scopes.lookup "java"
      ((Program.ofUnit (localUnit "java")).findField? · "java") = some 25 ∧
    ((Program.ofUnit (localUnit "java")).symbol? 25).map (·.contextClass) = some 24 ∧
    (Program.ofUnit (localUnit "java")).typeOf? 25 = none ∧
    (Program.ofUnit (localUnit "java")).typeAlong? 24 (Program.ofUnit (localUnit "java")).memberClass?
      (some "java") none ["lang"] = none ∧
    (Program.ofUnit (localUnit "java")).typeAlong? 24 (Program.ofUnit (localUnit "java")).memberClass?
      (some "java") none ["lang", "Object"] = some 0 := by
  decide +kernel

private theorem program_behindLocal (unit : CompilationUnit) (name : String) :
    (behindLocal unit name).program = Program.ofUnit unit := Program.program_draftOf unit

private theorem isClass_local : (Program.ofUnit (localUnit "java")).IsClass 24 :=
  Option.isSome_iff_exists.mp local_names.1

private theorem spellsUnknown_local :
    (behindLocal (localUnit "java") "java").SpellsUnknown 24 "java" ["lang", "Object"]
      (localSelection "java") where
  selects := ⟨3, default, .select 5 "Object" default (.select 4 "lang" default .object)⟩
  isWord := by decide
  currentClass := rfl
  noField before name after type heq hreached := by
    rw [program_behindLocal] at hreached
    match before, heq with
    | [], _ => cases hreached
    | [_], heq =>
        obtain ⟨rfl, -⟩ := List.cons.inj heq
        exact nomatch local_names.2.2.2.2.1.symm.trans hreached
    | _ :: _ :: _, heq => simp at heq
  isVariable := by
    obtain ⟨-, hfound, hcontext, htype, -⟩ := local_names
    obtain ⟨symbol, hsymbol, hcontext⟩ := Option.map_eq_some_iff.mp hcontext
    rw [program_behindLocal]
    exact ⟨25, symbol, hfound, hsymbol, hcontext ▸ isClass_local, htype⟩

/-- The variable `java` has no known class, and the names behind it lead to a class of the library. -/
theorem typeAlong?_local : (behindLocal (localUnit "java") "java").program.WellFormed ∧
    (behindLocal (localUnit "java") "java").program.IsClass 24 ∧
      (behindLocal (localUnit "java") "java").SpellsUnknown 24 "java" ["lang", "Object"]
        (localSelection "java") ∧
          (behindLocal (localUnit "java") "java").program.typeAlong? 24
            (behindLocal (localUnit "java") "java").program.memberClass? (some "java") none ["lang", "Object"] =
              some 0 := by
  refine ⟨?_, ?_, spellsUnknown_local, ?_⟩ <;> rw [program_behindLocal]
  · exact Program.wellFormed_ofUnit _
  · exact isClass_local
  · exact local_names.2.2.2.2.2

/-- The name of a local variable can matter. The name `lock` is neither the simple name of a class nor the
beginning of a qualified name, and the name `java` does not occur where the variable is called `lock`. With
that name the same nodes refer to the variable, but the selection refers to a class that it did not refer to
before. -/
theorem exists_use?_renamed_ne :
    (ParsedUnit.ofSource (localSource "lock")).errors = [] ∧
    (Program.ofUnit (localUnit "lock")).problems = [] ∧
    (∀ known ∈ Library.classes, Text.lastSegment known.name ≠ "lock" ∧
      (Text.segments known.name).head? ≠ some "lock") ∧
    (∀ token ∈ (Lexer.tokenize (localSource "lock")).tokens, token.kind ≠ .ident "java") ∧
    (Program.ofUnit (localUnit "lock")).uses.toList = [(0, 24), (1, 25), (3, 25), (6, 26)] ∧
    (Program.ofUnit (localUnit "java")).uses.toList = [(0, 24), (1, 25), (3, 25), (5, 0), (6, 26)] := by
  decide +kernel

end Resolving
end LockDiscipline
