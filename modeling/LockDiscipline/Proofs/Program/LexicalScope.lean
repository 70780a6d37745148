import LockDiscipline.Proofs.Grammar.DeclarationNumbers
import LockDiscipline.Proofs.Program.References
/-!
# Variables are lexically scoped

A name that refers to a variable refers to the nearest variable of the name that its place sees, and no
class body between the two has a field of the name. What a place sees is said by the tree alone: the marks
along the path to it. The resolver finds it in its scopes, to which it returns behind every expression and
every class body, and behind every statement but for the variables that the statement leaves to the next
one.
-/

namespace LockDiscipline

namespace Program

/-- A mark gives a name another meaning than one from further away. -/
def Hides (program : Program) (name : String) : ScopeMark → Prop
  | .variable site => site.name = name
  | .classBody node =>
      ∃ type, program.use? node = some type ∧ (program.findField? type name).isSome

/-- A mark gives a name this meaning. -/
def Gives (program : Program) (name : String) (id : SymbolId) : ScopeMark → Prop
  | .variable site => site.name = name ∧ program.DeclaredAt site id
  | .classBody node =>
      ∃ type, program.use? node = some type ∧ program.findField? type name = some id

/-- Of what gives a name a meaning at a place the nearest gives it this one. -/
def Means (program : Program) (marks : List ScopeMark) (name : String) (id : SymbolId) : Prop :=
  ∃ inner mark outer, marks = inner ++ mark :: outer ∧ program.Gives name id mark ∧
    ∀ mark ∈ inner, ¬program.Hides name mark

/-- Of what gives a name a meaning at a place the nearest is the declaration of a variable. -/
def MeansVariable (program : Program) (marks : List ScopeMark) (name : String) (id : SymbolId) : Prop :=
  ∃ inner site outer, marks = inner ++ .variable site :: outer ∧ site.name = name ∧
    program.DeclaredAt site id ∧ ∀ mark ∈ inner, ¬program.Hides name mark

variable {program : Program} {name : String} {id : SymbolId}

theorem Gives.hides {mark : ScopeMark} (h : program.Gives name id mark) : program.Hides name mark := by
  cases mark with
  | «variable» site => exact h.1
  | classBody node =>
      obtain ⟨type, huse, hfield⟩ := h
      exact ⟨type, huse, by rw [hfield]; rfl⟩

/-- What gives a name no meaning does not count. -/
theorem means_cons_iff {marks : List ScopeMark} {mark : ScopeMark} (hmark : ¬program.Hides name mark) :
    program.Means (mark :: marks) name id ↔ program.Means marks name id := by
  constructor
  · rintro ⟨inner, giving, outer, hmarks, hgives, hinner⟩
    cases inner with
    | nil =>
        obtain ⟨rfl, -⟩ := List.cons.inj hmarks
        exact absurd hgives.hides hmark
    | cons first inner =>
        exact ⟨inner, giving, outer, (List.cons.inj hmarks).2, hgives, (List.forall_mem_cons.mp hinner).2⟩
  · rintro ⟨inner, giving, outer, rfl, hgives, hinner⟩
    exact ⟨mark :: inner, giving, outer, rfl, hgives, List.forall_mem_cons.mpr ⟨hmark, hinner⟩⟩

theorem means_append_iff {inner marks : List ScopeMark} (hinner : ∀ mark ∈ inner, ¬program.Hides name mark) :
    program.Means (inner ++ marks) name id ↔ program.Means marks name id := by
  induction inner with
  | nil => rfl
  | cons mark inner ih =>
      obtain ⟨hmark, hinner⟩ := List.forall_mem_cons.mp hinner
      exact (means_cons_iff hmark).trans (ih hinner)

/-- The nearest that gives a name a meaning gives it one only. -/
theorem meansVariable_of_means {marks : List ScopeMark} (h : program.Means marks name id)
    (hvariable : ∀ type, program.findField? type name ≠ some id) : program.MeansVariable marks name id := by
  obtain ⟨inner, mark, outer, rfl, hgives, hinner⟩ := h
  cases mark with
  | «variable» site => exact ⟨inner, site, outer, rfl, hgives.1, hgives.2, hinner⟩
  | classBody node =>
      obtain ⟨type, -, hfield⟩ := hgives
      exact absurd hfield (hvariable type)

/-- What is found in scopes is the nearest meaning of the name, and where nothing is found nothing gives
the name a meaning. -/
theorem means_of_findSome? {marks : List ScopeMark} {items : List ScopeItem}
    (hshows : List.Forall₂ program.Shows marks items) {field? : SymbolId → Option SymbolId}
    (hfields : ∀ type, .classBody type ∈ items → field? type = program.findField? type name) :
    (items.findSome? (ScopeItem.meaning? name field?)).elim (∀ mark ∈ marks, ¬program.Hides name mark)
      (program.Means marks name) := by
  induction hshows with
  | nil => exact List.forall_mem_nil _
  | @cons mark item marks items hshow hrest ih =>
      replace ih := ih fun type htype => hfields type (List.mem_cons_of_mem _ htype)
      rw [List.findSome?_cons]
      -- The item gives the meaning, or else the mark hides nothing.
      have hitem : (ScopeItem.meaning? name field? item).elim (¬program.Hides name mark)
          (program.Gives name · mark) := by
        cases hshow with
        | @«variable» site bound hsite =>
            rw [ScopeItem.meaning?]
            by_cases hname : site.name = name
            · rw [if_pos hname]
              exact ⟨hname, hsite⟩
            · rwa [if_neg hname]
        | @classBody node type huse =>
            rw [ScopeItem.meaning?, hfields type List.mem_cons_self]
            cases hfield : program.findField? type name with
            | some field => exact ⟨type, huse, hfield⟩
            | none =>
                rintro ⟨type', huse', hhides⟩
                obtain rfl := Option.some.inj (huse.symm.trans huse')
                rw [hfield] at hhides
                cases hhides
      cases hmeaning : ScopeItem.meaning? name field? item with
      | some found =>
          rw [hmeaning] at hitem
          exact ⟨[], mark, marks, rfl, hitem, List.forall_mem_nil _⟩
      | none =>
          rw [hmeaning] at hitem
          dsimp only
          cases hfound : items.findSome? (ScopeItem.meaning? name field?) with
          | some found =>
              rw [hfound] at ih
              exact (means_cons_iff hitem).mpr ih
          | none =>
              rw [hfound] at ih
              exact List.forall_mem_cons.mpr ⟨hitem, ih⟩

end Program

/-- Every expression of a unit that refers to a variable is its name, and the variable is the nearest one
of this name that the place sees. -/
def CompilationUnit.ScopesVariables (unit : CompilationUnit) : Prop :=
  ∀ decl ∈ unit.types, ∀ path expr, Within (.classDecl decl) path (.expr expr) →
    ∀ id symbol, (Program.ofUnit unit).use? expr.id = some id →
      (Program.ofUnit unit).symbol? id = some symbol → symbol.isVariable →
        ∃ name, expr.kind = .name name ∧ symbol.name = name ∧
          (Program.ofUnit unit).MeansVariable ((TreeNode.classDecl decl).marks path) name id

namespace Resolving

/-- The resolver returns to the scopes from which it went through a construct. Only a statement may leave
variables behind, in the innermost scope. -/
structure ReturnsToScopes : Prop where
  expr : ∀ (expr : Expr) (draft : TrackedDraft),
    ((resolveExpr expr).run draft).2.scopes.toList = draft.scopes.toList
  stmt : ∀ (stmt : Stmt) (draft : TrackedDraft), ∃ bindings,
    ScopeStack.Binds bindings draft.scopes ((resolveStmt stmt).run draft).2.scopes ∧
      (stmt.declared = [] → bindings = [])
  classBody : ∀ (id : SymbolId) (members : List Member) (draft : TrackedDraft),
    ((inScope (.classBody id) (resolveMembers members)).run draft).2.scopes.toList = draft.scopes.toList
  nestedClass : ∀ (decl : ClassDecl) (draft : TrackedDraft),
    ((resolveNested decl).run draft).2.scopes.toList = draft.scopes.toList
  memberClass : ∀ (decl : ClassDecl) (draft : TrackedDraft),
    ((resolveMemberClass decl).run draft).2.scopes.toList = draft.scopes.toList

/-- What leaves no variables leaves the scopes as they were. -/
theorem Covers.toList_scopes {α : Type} {ids : List NodeId} {course : Course}
    {computation : Tracked α} (h : Covers ids course computation) (hleaves : course.leaves = [])
    (draft : TrackedDraft) : (computation.run draft).2.scopes.toList = draft.scopes.toList := by
  obtain ⟨bindings, hbinds, hnone⟩ := h.scopes draft
  rw [hnone hleaves] at hbinds
  exact hbinds.toList_eq

theorem returnsToScopes : ReturnsToScopes where
  expr expr := (covers_plain expr).toList_scopes rfl
  stmt stmt := (covers_resolveStmt .plain PartRole.plain_ne_nested stmt).scopes
  classBody id members draft := by
    obtain ⟨bindings, hbinds, -⟩ :=
      (covers_resolveMembers members).scopes { draft with scopes := draft.scopes.push (.classBody id) }
    exact hbinds.pop
  nestedClass decl := (covers_resolveNested decl).toList_scopes rfl
  memberClass decl := (covers_resolveMemberClass decl).toList_scopes rfl

/-- A name that the resolver comes to refers to what it means at its place. If it means nothing there, it
refers to a class or to nothing. -/
theorem ComesTo.means_or_isClass {nests : Prop} {program : Program} {classes : List SymbolId}
    {draft : TrackedDraft} {node : NodeId} {name : String} {span : Span} {marks : List ScopeMark}
    (h : ComesTo nests program classes ⟨node, .name name, span⟩ draft)
    (hshows : List.Forall₂ program.Shows marks draft.scopes.items) :
    (∃ id, program.use? node = some id ∧ program.Means marks name id) ∨
      (∀ mark ∈ marks, ¬program.Hides name mark) ∧ ∀ id, program.use? node = some id → program.IsClass id := by
  have hfields (type : SymbolId) (htype : .classBody type ∈ draft.scopes.items) :
      draft.program.findField? type name = program.findField? type name := by
    have hclass : type ∈ classes := by
      rw [← h.around, ScopeStack.enclosingClasses_eq]
      exact List.mem_filterMap.mpr ⟨_, htype, rfl⟩
    exact (h.retained.findField?_eq (h.lt_size hclass) h.wellFormed name).symm
  have hmeans := Program.means_of_findSome? hshows hfields
  rw [← ScopeStack.lookup_eq] at hmeans
  cases hlookup : draft.scopes.lookup name (draft.program.findField? · name) with
  | some id =>
      rw [hlookup] at hmeans
      refine .inl ⟨id, ?_, hmeans⟩
      rw [h.use?_eq, resolveExprKind, run_resolveName_of_some hlookup]
      exact (draft.program.use?_setUse node id node).trans (if_pos rfl)
  | none =>
      rw [hlookup] at hmeans
      refine .inr ⟨hmeans, fun id huse => ?_⟩
      obtain hfound | ⟨-, hfound⟩ := h.name_found huse
      · cases hlookup.symm.trans hfound
      · exact h.isClass_of_findTypeHere (.refl False _) rfl h.grows hfound

/-- A name that the resolver comes to refers to a variable only as the nearest one of the name. -/
theorem ComesTo.meansVariable {nests : Prop} {program : Program} {classes : List SymbolId}
    {draft : TrackedDraft} {node : NodeId} {name : String} {span : Span} {marks : List ScopeMark}
    (h : ComesTo nests program classes ⟨node, .name name, span⟩ draft) (hprogram : program.WellFormed)
    (hshows : List.Forall₂ program.Shows marks draft.scopes.items) {id : SymbolId}
    {symbol : NamedSymbol} (huse : program.use? node = some id) (hsymbol : program.symbol? id = some symbol)
    (hvariable : symbol.isVariable) :
    symbol.name = name ∧ program.MeansVariable marks name id := by
  have hnotField (type : SymbolId) : program.findField? type name ≠ some id := fun hfield => by
    obtain ⟨field, hfound, -, hisField⟩ := hprogram.findField?_name hfield
    obtain rfl := Option.some.inj (hsymbol.symm.trans hfound)
    rw [symbol.isVariable_eq_false_of_isField hisField] at hvariable
    cases hvariable
  have hnotClass : ¬program.IsClass id := by
    rintro ⟨info, hinfo⟩
    rw [Program.classInfo?, hsymbol, Option.bind_some,
      symbol.classInfo?_eq_none_of_isVariable hvariable] at hinfo
    cases hinfo
  obtain ⟨id', huse', hmeans⟩ := (h.means_or_isClass hshows).resolve_right fun hclass =>
    hnotClass (hclass.2 id huse)
  obtain rfl := Option.some.inj (huse.symm.trans huse')
  have hnearest := Program.meansVariable_of_means hmeans hnotField
  refine ⟨?_, hnearest⟩
  obtain ⟨-, site, -, -, hname, hsite, -⟩ := hnearest
  obtain ⟨found, hfound, hsiteName, -⟩ := hsite.exists_symbol
  obtain rfl := Option.some.inj (hsymbol.symm.trans hfound)
  exact hsiteName.trans hname

end Resolving

open Resolving in
/-- In any compilation unit, a name that refers to a local variable or parameter refers to the nearest one
of the name before it, in the code around it and not hidden by a field of a class body in between. The
resolver is back in the same scope behind every statement, expression and class body. -/
theorem ParsedUnit.scopesVariables_ofTokens (tokens : List Token) :
    (ofTokens tokens).unit.ScopesVariables ∧ ReturnsToScopes := by
  refine ⟨fun decl hdecl path expr hwithin id symbol huse hsymbol hvariable => ?_, returnsToScopes⟩
  have hnodup := nodup_numbers_ofTokens tokens
  generalize (ofTokens tokens).unit = unit at *
  have hprogram := Program.wellFormed_ofUnit unit
  have hpath := Program.isResolved_of_use? hnodup hdecl hwithin huse
  have hnotField : ¬symbol.isField := fun hfield => by
    rw [symbol.isVariable_eq_false_of_isField hfield] at hvariable
    cases hvariable
  obtain ⟨draft, hcomes⟩ := (Program.exists_comesAlong hnodup hdecl hwithin hpath).resolve_left <| by
    rintro ⟨-, name, id', constant, -, huse', hconstant, -, hfield⟩
    obtain rfl := Option.some.inj (huse.symm.trans huse')
    obtain rfl := Option.some.inj (hsymbol.symm.trans hconstant)
    exact hnotField hfield
  have hcomesTo := hcomes.comesTo
  have hnotClass : ¬(Program.ofUnit unit).IsClass id := by
    rintro ⟨info, hinfo⟩
    rw [Program.classInfo?, hsymbol, Option.bind_some,
      symbol.classInfo?_eq_none_of_isVariable hvariable] at hinfo
    cases hinfo
  obtain ⟨node, kind, span⟩ := expr
  cases kind with
  | name name => exact ⟨name, rfl, hcomesTo.meansVariable hprogram hcomes.sees huse hsymbol hvariable⟩
  | select object name =>
      obtain ⟨type, -, hfound⟩ := (hcomesTo.select_member huse).resolve_left hnotClass
      obtain ⟨field, hfield, -, hisField⟩ := hprogram.findField?_name hfound
      obtain rfl := Option.some.inj (hsymbol.symm.trans hfield)
      exact absurd hisField hnotField
  | call receiver method args =>
      have hmethod : ∃ type, (Program.ofUnit unit).findMethod? type method args.length = some id := by
        cases receiver with
        | none =>
            obtain ⟨type, -, htype⟩ := List.exists_of_findSome?_eq_some (hcomesTo.call_cases huse)
            exact ⟨type, htype⟩
        | some receiver =>
            obtain ⟨type, -, htype⟩ := hcomesTo.callOn_member huse
            exact ⟨type, htype⟩
      obtain ⟨type, hfound⟩ := hmethod
      obtain ⟨found, owner, hinherits, -, hisMethod⟩ := hprogram.findMethod? hfound
      obtain rfl := Option.some.inj (hsymbol.symm.trans hinherits.symbol_eq)
      rw [symbol.isVariable_eq_false_of_isMethod hisMethod] at hvariable
      cases hvariable
  | _ =>
      refine absurd (hcomesTo.isClass_of_use? huse ?_ ?_ ?_) hnotClass
      all_goals
        intros
        exact ExprKind.noConfusion

/-! ### The condition of a `do` statement -/

/-- A `do` statement whose body declares a variable with the name of a parameter. -/
def shadowingDoTokens : List Token :=
  (Lexer.tokenize ("class A \x7b void f(int y) \x7b \x7b do int y = 1; while (y > 0); \x7d " ++
    "\x7d \x7d").toList).tokens

/-- The variable that a block declares by a `do` statement only, and what the condition compares. -/
private def doBlock? : TreeNode → Option (Declarator × Expr)
  | .stmt ⟨_, .block [⟨_, .doWhile ⟨_, .localVars _ [declarator], _⟩
      ⟨_, .binary _ ⟨id, .name name, span⟩ _, _⟩, _⟩], _⟩ =>
      if declarator.name = name then some (declarator, ⟨id, .name name, span⟩) else none
  | _ => none

private theorem eq_of_doBlock? {node : TreeNode} {declarator : Declarator} {left : Expr}
    (h : doBlock? node = some (declarator, left)) : ∃ block, node = .stmt block ∧
      (∃ loop body type bodySpan cond op right condSpan loopSpan, block.kind = .block
        [⟨loop, .doWhile ⟨body, .localVars type [declarator], bodySpan⟩
          ⟨cond, .binary op left right, condSpan⟩, loopSpan⟩]) ∧ left.kind = .name declarator.name := by
  unfold doBlock? at h
  split at h
  · split at h
    case isTrue hname =>
      obtain ⟨rfl, rfl⟩ := Prod.mk.inj (Option.some.inj h)
      exact ⟨_, rfl, ⟨_, _, _, _, _, _, _, _, _, rfl⟩, by rw [hname]⟩
    case isFalse => cases h
  · cases h

private theorem shadowingDo_resolved :
    let unit := (ParsedUnit.ofTokens shadowingDoTokens).unit
    ∃ decl ∈ unit.types, ∃ place ∈ (TreeNode.classDecl decl).places,
      ∃ found ∈ (doBlock? place.node).toList, found.1.span.stop ≤ found.2.span.start ∧
        ∃ id ∈ ((Program.ofUnit unit).use? found.2.id).toList,
          (∃ symbol ∈ ((Program.ofUnit unit).symbol? id).toList, symbol.kind = .parameter 24) ∧
            (Program.ofUnit unit).use? found.1.id ≠ some id := by
  decide +kernel

/-- The condition of a `do` statement comes before its body: a name in it refers to a parameter although a
variable of the name is declared nearer to it, in the same block, and stands before it in the text. -/
theorem exists_nearer_declaration :
    let unit := (ParsedUnit.ofTokens shadowingDoTokens).unit
    (ParsedUnit.ofTokens shadowingDoTokens).errors = [] ∧
    ∃ decl ∈ unit.types, ∃ path block, Within (.classDecl decl) path (.stmt block) ∧
      ∃ declarator left, (∃ loop body type bodySpan cond op right condSpan loopSpan, block.kind = .block
        [⟨loop, .doWhile ⟨body, .localVars type [declarator], bodySpan⟩
          ⟨cond, .binary op left right, condSpan⟩, loopSpan⟩]) ∧
        left.kind = .name declarator.name ∧ declarator.span.stop ≤ left.span.start ∧
          ∃ id symbol context, (Program.ofUnit unit).use? left.id = some id ∧
            (Program.ofUnit unit).symbol? id = some symbol ∧ symbol.kind = .parameter context ∧
              (Program.ofUnit unit).use? declarator.id ≠ some id := by
  refine ⟨by decide +kernel, ?_⟩
  obtain ⟨decl, hdecl, ⟨path, node⟩, hplace, ⟨declarator, left⟩, hfound, hspan, id, hid,
    ⟨symbol, hsymbol, hkind'⟩, hother⟩ := shadowingDo_resolved
  obtain ⟨block, rfl, hkind, hleft⟩ := eq_of_doBlock? (Option.mem_toList.mp hfound)
  exact ⟨decl, hdecl, path, block, TreeNode.mem_places.mp hplace, declarator, left, hkind, hleft, hspan,
    id, symbol, 24, Option.mem_toList.mp hid, Option.mem_toList.mp hsymbol, hkind', hother⟩

end LockDiscipline
