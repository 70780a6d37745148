import LockDiscipline.Proofs.Program.Mirroring
/-!
# Single names of retouched trees

What the resolver does with a name, a variable or a nested class does not depend on where these stand. There
is one lemma for each step that the resolver takes in a body. None of them goes into the constructs of the
body, so the steps are the same wherever they are taken.
-/

namespace LockDiscipline
namespace Resolving

/-! ### Scopes and names -/

namespace Mirrors

variable {α : Type} {move : Span → Span}

theorem updateScopes (change : ScopeStack → ScopeStack) :
    Mirrors move (updateScopes change) (updateScopes change) :=
  fun _ _ h => ⟨rfl, { h with scopes := congrArg change h.scopes }, Nat.le_refl _⟩

theorem currentClass? : Mirrors move currentClass? currentClass? :=
  fun _ _ h => ⟨congrArg ScopeStack.currentClass? h.scopes, h, Nat.le_refl _⟩

theorem visit (node : NodeId) : Mirrors move (visit node) (visit node) :=
  fun _ _ h => ⟨rfl, { h with }, Nat.le_refl _⟩

theorem lookIn (node : NodeId) (type : Option SymbolId) :
    Mirrors move (lookIn node type) (lookIn node type) :=
  fun _ _ h => ⟨rfl, { h with receivers := congrArg ((node, type) :: ·) h.receivers }, Nat.le_refl _⟩

end Mirrors

section Names

variable {move : Span → Span}

theorem mirrors_declareVariable (name : String) (type : Option String) (node : Option NodeId) (span : Span)
    (isParameter : Bool) :
    Mirrors move (declareVariable name type node span isParameter)
      (declareVariable name type node (move span) isParameter) := by
  apply Mirrors.bind .currentClass?
  intro context?
  cases context? with
  | none => exact .pure ()
  | some context =>
      apply Mirrors.bind (mirrors_declare name rfl (by split <;> rintro _ ⟨⟩) type none span).mirrors
      intro symbol
      apply Mirrors.bind (.updateScopes _)
      intro _
      cases node with
      | none => exact .pure ()
      | some node => exact mirrors_setUse node symbol

theorem mirrors_declareLambdaParams (span : Span) (names : List String) :
    Mirrors move (declareLambdaParams span names) (declareLambdaParams (move span) names) := by
  induction names with
  | nil => exact .pure ()
  | cons name rest ih =>
      apply Mirrors.bind (mirrors_declareVariable name none none span true)
      intro _
      exact ih

theorem mirrors_findTypeHere (type : String) : Mirrors move (findTypeHere type) (findTypeHere type) := by
  apply Mirrors.bind .currentClass?
  intro context?
  cases context? with
  | none => exact .pure none
  | some context =>
      apply Mirrors.ask
      intro move program
      have hfind : (program.recast move).findType? context = program.findType? context :=
        funext (program.findType?_recast move context)
      rw [hfind]

theorem mirrors_valueOf (symbol : SymbolId) : Mirrors move (valueOf symbol) (valueOf symbol) :=
  .ask fun move program => by simp only [Program.typeOf?_recast]

theorem mirrors_useValue (node : NodeId) (symbol : SymbolId) :
    Mirrors move (useValue node symbol) (useValue node symbol) := by
  apply Mirrors.bind (mirrors_setUse node symbol)
  intro _
  exact mirrors_valueOf symbol

theorem mirrors_useType (node : NodeId) (found : Option SymbolId) :
    Mirrors move (useType node found) (useType node found) := by
  cases found with
  | none => exact .pure Denotation.unknown
  | some symbol =>
      apply Mirrors.bind (mirrors_setUse node symbol)
      intro _
      exact .pure ( Denotation.typeName symbol)

theorem mirrors_useMethod (node : NodeId) (found : Option SymbolId) :
    Mirrors move (useMethod node found) (useMethod node found) := by
  cases found with
  | none => exact .pure Denotation.unknown
  | some symbol => exact mirrors_useValue node symbol

theorem mirrors_findVariable (name : String) : Mirrors move (findVariable name) (findVariable name) := by
  apply Mirrors.get_bind
  intro draft draft' h
  have hfield : draft'.program.findField? = draft.program.findField? := by
    funext type name
    exact h.program.congr (·.findField? type name) fun move program =>
      program.findField?_recast move type name
  rw [hfield, h.scopes]
  exact .pure _

theorem mirrors_resolveName (node : NodeId) (name : String) :
    Mirrors move (resolveName node name) (resolveName node name) := by
  apply Mirrors.bind (mirrors_findVariable name)
  intro found
  cases found with
  | some symbol => exact mirrors_useValue node symbol
  | none =>
      apply Mirrors.bind (mirrors_findTypeHere name)
      intro found
      exact mirrors_useType node found

theorem mirrors_resolveSelect (node : NodeId) (qualifier : Denotation) (name : String)
    (dotted : Option String) :
    Mirrors move (resolveSelect node qualifier name dotted) (resolveSelect node qualifier name dotted) := by
  apply Mirrors.bind (.lookIn node _)
  intro _
  cases qualifier.memberClass? with
  | some owner =>
      apply Mirrors.bind (.ask fun move program => program.findField?_recast move owner name)
      intro field?
      cases field? with
      | some field => exact mirrors_useValue node field
      | none =>
          apply Mirrors.bind (.ask fun move program => program.memberClass?_recast move owner name)
          intro found
          exact mirrors_useType node found
  | none =>
      cases dotted with
      | none => exact .pure Denotation.unknown
      | some dotted =>
          apply Mirrors.bind (mirrors_findTypeHere dotted)
          intro found
          exact mirrors_useType node found

theorem mirrors_findScopedMethod (method : String) (arity : Nat) :
    Mirrors move (findScopedMethod method arity) (findScopedMethod method arity) := by
  unfold findScopedMethod
  split
  · exact .pure none
  · apply Mirrors.get_bind
    intro draft draft' h
    have hmethod : draft'.program.findMethod? = draft.program.findMethod? := by
      funext type name arity
      exact h.program.congr (·.findMethod? type name arity) fun move program =>
        program.findMethod?_recast move type name arity
    rw [hmethod, h.scopes]
    exact .pure _

theorem mirrors_localType (type : Option String) (init : Denotation) :
    Mirrors move (localType type init) (localType type init) := by
  unfold localType
  split
  · exact .pure _
  · apply Mirrors.ask
    intro move program
    have hname : (program.recast move).qualifiedName? = program.qualifiedName? :=
      funext (program.qualifiedName?_recast move)
    rw [hname]

end Names

/-! ### Bodies -/

section Bodies

variable {retouch : Retouch}

theorem mirrors_findConstant (selector : Option SymbolId) (kind : ExprKind) :
    Mirrors retouch.span (findConstant selector kind) (findConstant selector (kind.retouch retouch)) := by
  cases kind with
  | name name =>
      simp only [ExprKind.retouch, findConstant]
      apply Mirrors.ask
      intro move program
      simp only [Program.classInfo?_recast, Program.findField?_recast]
  | _ => exact .pure none

theorem mirrors_nextNested {move : Span → Span} (outer : SymbolId) :
    Mirrors move (nextNested outer) (nextNested outer) := by
  intro draft draft' h
  have hnumber : (draft'.nestedCounts.lookup outer).getD 0 + 1 =
      (draft.nestedCounts.lookup outer).getD 0 + 1 := by rw [h.nestedCounts]
  refine ⟨hnumber, { h with nestedCounts := ?_ }, Nat.le_refl _⟩
  show (outer, (draft'.nestedCounts.lookup outer).getD 0 + 1) :: draft'.nestedCounts =
    (outer, (draft.nestedCounts.lookup outer).getD 0 + 1) :: draft.nestedCounts
  rw [h.nestedCounts]

theorem mirrors_declareInside [retouch.KeepsNames] (hregular : retouch.Regular) (outer : SymbolId)
    {symbol symbol' : NamedSymbol} (hname : symbol'.name = symbol.name) (decl : ClassDecl) :
    Mirrors retouch.span (declareInside outer symbol decl)
      (declareInside outer symbol' (decl.retouch retouch)) := by
  unfold declareInside
  rw [hname, ClassDecl.kind_retouch, ClassDecl.name_retouch]
  apply Mirrors.bind (.ask fun move program => by simp only [Program.qualifiedName?_recast])
  intro outerName
  apply Mirrors.bind (mirrors_nextNested outer)
  intro number
  dsimp only
  split
  · exact (mirrors_declareClass hregular _ _ _ _ decl).mirrors
  · apply MirrorsNew.bind (mirrors_declareClass hregular _ _ _ _ decl)
    intro symbol draft draft' h hown
    have hat := (mirrorsAt_enterMemberClass outer decl.name h hown).1
    exact hat.bind (Mirrors.pure symbol _ _ hat.matches_run)

theorem mirrors_declareNested [retouch.KeepsNames] (hregular : retouch.Regular) (decl : ClassDecl) :
    Mirrors retouch.span (declareNested decl) (declareNested (decl.retouch retouch)) := by
  apply Mirrors.bind .currentClass?
  intro outer?
  cases outer? with
  | none => exact .pure none
  | some outer =>
      apply Mirrors.ask_bind
      intro program program' h
      have hsymbol := h.symbol?_map outer
      cases hfound : program.symbol? outer with
      | none =>
          rw [hfound, Option.map_none, Option.map_eq_none_iff] at hsymbol
          rw [hsymbol]
          exact .pure none
      | some symbol =>
          rw [hfound, Option.map_some, Option.map_eq_some_iff] at hsymbol
          obtain ⟨symbol', hfound', hsymbol⟩ := hsymbol
          rw [hfound']
          apply Mirrors.bind (mirrors_declareInside hregular outer (congrArg (·.name) hsymbol) decl)
          intro inner
          apply Mirrors.bind (mirrors_linkClass inner decl)
          intro _
          exact .pure (some inner)

theorem mirrors_declareParams (params : List Param) :
    Mirrors retouch.span (declareParams params) (declareParams (retouchParams retouch params)) := by
  induction params with
  | nil => exact .pure ()
  | cons param rest ih =>
      obtain ⟨node, name, type, modifiers, isVarargs, span⟩ := param
      apply Mirrors.bind (mirrors_declareVariable name _ (some node) span true)
      intro _
      exact ih

end Bodies

end Resolving
end LockDiscipline
