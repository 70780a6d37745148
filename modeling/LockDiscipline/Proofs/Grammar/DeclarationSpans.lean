import LockDiscipline.Proofs.Grammar.DeclarationProgress
import LockDiscipline.Proofs.Grammar.StatementSpans
import LockDiscipline.Proofs.Token.Layout
/-!
# The spans in a compilation unit

The readers of members and class bodies lay out what they return, so the rules tied together do, to every
depth. The tokens that the lexer cuts out of a text stand in its order. It follows that the spans in the
unit of any text nest as its constructs do, whatever errors are recovered from.
-/

namespace LockDiscipline

namespace TreeNode

theorem pieces_method (id : NodeId) (decl : MethodDecl) (span : Span) :
    (TreeNode.member ⟨id, .method decl, span⟩).pieces = decl.modifiers.items ++
      (decl.params.flatMap (fun param => (TreeNode.param param).items) ++
        (TreeNode.code (.method decl)).items) := by
  rw [pieces_of_modifiers (List.append_assoc ..) rfl, itemsOf_append, itemsOf_map, itemsOf_singleton]

theorem pieces_field (id : NodeId) (modifiers : Modifiers) (type : String)
    (declarators : List Declarator) (span : Span) :
    (TreeNode.member ⟨id, .field modifiers type declarators, span⟩).pieces =
      modifiers.items ++ declarators.flatMap Declarator.items := by
  rw [pieces_of_modifiers rfl rfl, itemsOf_map]

theorem pieces_param (param : Param) : (TreeNode.param param).pieces = param.modifiers.items := by
  rw [pieces_of_modifiers (List.append_nil _).symm rfl, itemsOf_nil, List.append_nil]

end TreeNode

/-- A parameter as the only item. -/
abbrev Param.items (param : Param) : List Item :=
  (TreeNode.param param).items

/-- A method as the only item, as a member with the span of the method. -/
abbrev MethodDecl.items (decl : MethodDecl) : List Item :=
  (TreeNode.member ⟨decl.id, .method decl, decl.span⟩).items

namespace Grammar

section Readers

variable {tokens : List Token} (htokens : InOrder tokens) {rules : Rules}
  (hprogress : rules.Consuming none) (hrules : rules.Laying tokens) {low : Nat} {pre : Stage}
  {held : List Item}

theorem lays_mkMember {kind : MemberKind}
    (hspans : ∀ id span, (TreeNode.member ⟨id, kind, span⟩).ownSpans = [span])
    (hnames : ∀ id span, ∀ name ∈ (TreeNode.member ⟨id, kind, span⟩).declaredNames, IsIdentOf tokens name)
    (hpieces : ∀ id span item, (TreeNode.member ⟨id, kind, span⟩).pieces.count item ≤ held.count item) :
    Lays tokens low .begun .begun held Member.items (mkMember kind low) :=
  lays_freshId fun id => lays_spanFrom fun high => laid_node (fun span hspan => by
    rw [hspans] at hspan
    exact List.mem_singleton.mp hspan) (List.forall_mem_nil _) (hnames id _) (hpieces id _)

theorem lays_mkMethod (decl : MethodDecl) :
    Lays tokens low .begun .begun decl.items Member.items (mkMember (.method decl) low) :=
  lays_freshId fun _ => lays_spanFrom fun _ hcovers h => h.wrap_method hcovers

/-- A method goes around its modifiers, its parameters and its body of code. -/
theorem laid_method {decl : MethodDecl} {high : Nat} (hspan : decl.span = ⟨low, high⟩)
    (hcovers : Span.Covers tokens ⟨low, high⟩)
    (h : Laid tokens low high (decl.modifiers.items ++ decl.params.flatMap Param.items ++
      decl.body.toList.flatMap fun body => body.flatMap Stmt.items)) :
    Laid tokens low high decl.items := by
  have hcode : Laid tokens low high (decl.modifiers.items ++ decl.params.flatMap Param.items ++
      (TreeNode.code (.method decl)).items) :=
    laid_bare _ rfl rfl (List.forall_mem_nil _) (List.forall_mem_nil _) (fun item => by
      rw [TreeNode.pieces_code]
      cases hbody : decl.body <;> simp [UnitBody.parts, hbody]) h
  refine laid_node (fun span hmem => ?_) (List.forall_mem_nil _) (List.forall_mem_nil _) (fun item => ?_)
    hcovers hcode
  · rw [← hspan]
    simpa [TreeNode.ownSpans] using hmem
  · rw [TreeNode.pieces_method, List.append_assoc]

include htokens hprogress hrules

/-! ### Constants of enums -/

theorem reads_readEnumConstant? (enumName : String) :
    Reads tokens .fresh (fun constant => constant.toList.flatMap Member.items)
      (readEnumConstant? rules enumName) := by
  have hconstant {low : Nat} {name : String} (hname : IsIdentOf tokens name) (args : List Expr) :
      Lays tokens low .begun .begun (args.flatMap Expr.items)
        (fun constant => constant.toList.flatMap Member.items) (do
          let body ← readWhen (← atSymbol .leftBrace) (readAnonymousBody rules enumName low)
          return some (← mkMember (.enumConstant name args body) low)) := by
    refine (looks_atSymbol .leftBrace).past fun found =>
      ((lays_readAnonymousBody htokens hrules enumName).readWhen found).consume fun body => ?_
    refine (lays_mkMember (fun _ _ => rfl) (fun id span => ?_) fun id span item => ?_).consume
      fun constant => .pure fun item => by simp
    · exact List.forall_mem_singleton.mpr hname
    · change (TreeNode.itemsOf (exprParts .declared args ++ body.toList.map nestedPart)).count item ≤ _
      simp
  refine .of_start fun start => (passes_skipAnnotations hprogress).past htokens fun _ =>
    lays_kind fun kind hname => ?_
  split
  case h_1 name =>
    refine .forget <| .advance htokens <| (looks_atSymbol .leftParen).past fun found => .ite ?_ ?_
    · exact (reads_readArgs htokens hrules).bind htokens fun args => hconstant (hname name rfl) args
    · exact hconstant (hname name rfl) []
  case h_2 => exact Lays.atStage (.pure fun _ => Nat.le_refl _)

theorem reads_readEnumConstants (enumName : String) :
    Reads tokens .fresh (fun constants => constants.flatMap Member.items)
      (readEnumConstants rules enumName) := by
  refine .of_lays fun low => Lays.consume (lays_iterate
    (fun scan : List Member × Bool => scan.1.flatMap Member.items) rfl fun scan => ?_) fun scan => ?_
  · refine .ite (.pure fun _ => Nat.le_refl _) ?_
    refine (reads_readEnumConstant? htokens hprogress hrules enumName).bind htokens fun constant? => ?_
    cases constant? with
    | none => exact .pure fun item => by simp [stepItems]
    | some constant =>
        exact (accepts_acceptSymbol .comma).passes.past htokens fun more =>
          .pure fun item => by simp +arith [stepItems]
  · have hconstants {pre : Stage} : Lays tokens low pre pre (scan.1.flatMap Member.items)
        (fun constants => constants.flatMap Member.items) (pure scan.1.reverse) :=
      .pure fun item => Nat.le_of_eq ((scan.1.reverse_perm.flatMap_right _).count_eq item)
    refine (looks_atSymbol .rightBrace).past fun closing => .ite ?_ hconstants
    exact .forget <| consumes_endStatement.past htokens fun _ => hconstants

/-! ### Methods -/

theorem reads_readParam? :
    Reads tokens .begun (fun param => param.toList.flatMap Param.items) (readParam? rules) := by
  refine .of_start fun start => (reads_readModifiers htokens hrules).bind htokens fun modifiers =>
    (hprogress .type).past htokens fun type => (accepts_acceptSymbol .ellipsis).passes.past htokens
      fun isVarargs => (accepts_acceptKeyword .this).passes.past htokens fun found =>
        .ite (.pure fun item => by simp) ?_
  refine consumes_expectName.past htokens fun name => passes_readDims.past htokens fun dims =>
    lays_freshId fun id => lays_spanFrom fun high hcovers h => ?_
  rw [Option.toList_some, List.flatMap_singleton]
  exact laid_node (List.forall_mem_singleton.mpr rfl) (List.forall_mem_nil _) (List.forall_mem_nil _) (fun item => by
    rw [TreeNode.pieces_param]
    exact Nat.le_refl _) hcovers h

theorem reads_readParams :
    Reads tokens .begun (fun params => params.flatMap Param.items) (readParams rules) := by
  refine .of_lays fun low => (consumes_expectSymbol .leftParen).past htokens fun _ =>
    ((reads_readParam? htokens hprogress hrules).enumerated htokens .rightParen .comma).bind htokens
      fun params => (consumes_expectSymbol .rightParen).past htokens fun _ => .pure fun item => ?_
  rw [List.filterMap_eq_flatMap_toList, List.flatMap_assoc]
  exact Nat.le_refl _

/-- What follows the name of a method lays it out as a member, with its modifiers. -/
theorem lays_readMethodRest (name : String) (modifiers : Modifiers) (typeParams : List String)
    (returnType : Option String) :
    Lays tokens low pre .begun modifiers.items MethodDecl.items
      (readMethodRest rules name modifiers typeParams returnType low) := by
  refine lays_freshId fun id => (reads_readParams htokens hprogress hrules).bind htokens fun params => ?_
  have hbody (throws : List String) : Lays tokens low .begun .begun
      (modifiers.items ++ params.flatMap Param.items) MethodDecl.items (do
        let body ← readWhen (!(← acceptSymbol .semicolon)) (rules _ .block)
        return (⟨id, name, modifiers, typeParams, returnType, params, throws, body, ← spanFrom low⟩ :
          MethodDecl)) := by
    refine (accepts_acceptSymbol .semicolon).passes.past htokens fun found =>
      ((hrules .block).readWhen (!found)).bind htokens fun body =>
        lays_spanFrom fun high hcovers h => laid_method rfl hcovers h
  have hdefault (throws : List String) : Lays tokens low .begun .begun
      (modifiers.items ++ params.flatMap Param.items) MethodDecl.items (do
        if ← acceptKeyword .default then
          let _ ← rules _ .elementValue
        let body ← readWhen (!(← acceptSymbol .semicolon)) (rules _ .block)
        return (⟨id, name, modifiers, typeParams, returnType, params, throws, body, ← spanFrom low⟩ :
          MethodDecl)) := by
    refine (accepts_acceptKeyword .default).past htokens (by decide) ?_ (hbody throws)
    exact (hprogress .elementValue).past htokens fun _ => hbody throws
  refine passes_readDims.past htokens fun _ => (accepts_acceptKeyword .throws).past htokens (by decide) ?_
    (hdefault [])
  exact (consumes_readTypeList hprogress).past htokens hdefault

omit hprogress in
theorem lays_readInitializer (isStatic : Bool) :
    Lays tokens low pre .begun [] Member.items (readInitializer rules isStatic low) := by
  refine (hrules .block).bind htokens fun body => ?_
  have hmember : Lays tokens low .begun .begun (TreeNode.code (.initializer body)).items Member.items
      (mkMember (.initializer isStatic body) low) :=
    lays_mkMember (fun _ _ => rfl) (fun _ _ => List.forall_mem_nil _) fun id span item => Nat.le_of_eq (by
      change (TreeNode.itemsOf [⟨.plain, .code (.initializer body)⟩]).count item = _
      rw [TreeNode.itemsOf_singleton])
  exact hmember.regroup fun high h => laid_bare [] rfl rfl (List.forall_mem_nil _) (List.forall_mem_nil _) (fun item => by
    simp [TreeNode.pieces_code, UnitBody.parts, Nonterminal.items]) h

/-- The variables of a field begin at their names, behind the modifiers and the type. -/
theorem lays_readTypedMember (modifiers : Modifiers) (typeParams : List String) :
    Lays tokens low .fresh .begun modifiers.items Member.items
      (readTypedMember rules modifiers typeParams low) := by
  have hrest (type : String) : Lays tokens low .begun .begun modifiers.items Member.items (do
      let nameStart ← currentStart
      let name ← expectName
      if ← atSymbol .leftParen then
        let method ← readMethodRest rules name modifiers typeParams (some type) low
        mkMember (.method method) low
      else
        let declarators ← readDeclarators rules name nameStart
        endStatement
        mkMember (.field modifiers type declarators) low) := by
    refine .name htokens fun mark name hname => (looks_atSymbol .leftParen).past fun found => .ite ?_ ?_
    · exact (lays_readMethodRest htokens hprogress hrules name modifiers typeParams (some type)).consume
        fun method => lays_mkMethod method
    · refine .from_mark htokens (lays_readDeclarators htokens hrules hname) fun declarators =>
        consumes_endStatement.past htokens fun _ =>
          lays_mkMember (fun _ _ => rfl) (fun _ _ => List.forall_mem_nil _) fun id span item => ?_
      rw [TreeNode.pieces_field]
  refine (accepts_acceptKeyword .void).past htokens (by decide) (hrest "void") ?_
  exact (hprogress .type).past htokens hrest

theorem lays_readDeclaredMember (className : String) :
    Lays tokens low .fresh .begun [] Member.items (readDeclaredMember rules className low) := by
  refine (reads_readModifiers htokens hrules).bind htokens fun modifiers =>
    looks_currentKind.past fun kind => (looks_peek 1).past fun next => .ite ?_ ?_
  · refine (lays_readClass htokens hprogress hrules modifiers).consume fun decl =>
      lays_mkMember (fun _ _ => rfl) (fun _ _ => List.forall_mem_nil _) fun id span item => Nat.le_of_eq ?_
    change (TreeNode.itemsOf [nestedPart decl]).count item = _
    rw [TreeNode.itemsOf_singleton]
    rfl
  · refine (passes_readTypeParams hprogress).past htokens fun typeParams =>
      looks_currentKind.past fun kind => (looks_peek 1).past fun next => .ite ?_
        (lays_readTypedMember htokens hprogress hrules modifiers typeParams)
    exact passes_advance.past htokens fun _ => (lays_readMethodRest htokens hprogress hrules className
      modifiers typeParams none).consume fun method => lays_mkMethod method

theorem reads_readMember? (className : String) :
    Reads tokens .fresh (fun member => member.toList.flatMap Member.items)
      (readMember? rules className) := by
  have hinitializer {low : Nat} {pre : Stage} (isStatic : Bool) :
      Lays tokens low pre .begun [] (fun member => member.toList.flatMap Member.items) (do
        return some (← readInitializer rules isStatic low)) :=
    (lays_readInitializer htokens hrules isStatic).consume fun member =>
      .pure fun item => by simp
  refine .of_start fun _ => (accepts_acceptSymbol .semicolon).past htokens (by decide)
    (.forget <| .pure fun _ => Nat.le_refl _) ?_
  refine .forget <| (looks_atSymbol .leftBrace).past fun found => .ite (hinitializer false) ?_
  refine (looks_atKeyword .static).past fun found => (looks_peek 1).past fun next => .ite ?_ ?_
  · exact passes_advance.past htokens fun _ => hinitializer true
  · exact (lays_readDeclaredMember htokens hprogress hrules className).consume fun member =>
      .pure fun item => by simp

/-! ### Class bodies -/

theorem reads_readMembers (className : String) :
    Reads tokens .fresh (fun members => members.flatMap Member.items) (readMembers rules className) := by
  refine .of_lays fun low => Lays.consume (lays_iterate
    (fun scan : MemberScan => scan.members.flatMap Member.items) rfl fun scan => ?_) fun scan =>
      .pure fun item => Nat.le_of_eq ((scan.members.reverse_perm.flatMap_right _).count_eq item)
  refine (looks_atSymbol .rightBrace).past fun closing => looks_atEnd.past fun ended =>
    .ite (.pure fun _ => Nat.le_refl _) ?_
  refine (reads_readMember? htokens hprogress hrules className).attempt htokens (fun member? => ?_)
    fun error => ?_
  · cases member? with
    | none => exact .pure fun item => by simp [stepItems]
    | some member => exact .pure fun item => by simp +arith [stepItems]
  · refine lays_recordError error fun more => .ite ?_ ?_
    · exact passes_skipToMember.past htokens fun _ => .pure fun _ => Nat.le_refl _
    · exact passes_skipToClosingBrace.past htokens fun _ => .pure fun _ => Nat.le_refl _

theorem reads_readClassBody (className : String) (isEnum : Bool) :
    Reads tokens .begun (fun members => members.flatMap Member.items)
      (readClassBody rules className isEnum) := by
  have hnone : Reads tokens .fresh (fun members => members.flatMap Member.items) (pure []) :=
    .of_lays fun _ => .pure fun _ => Nat.le_refl _
  refine .of_lays fun low => (consumes_expectSymbol .leftBrace).past htokens fun _ => ?_
  refine (reads_readEnumConstants htokens hprogress hrules className).choose htokens hnone
    fun constants => (reads_readMembers htokens hprogress hrules className).bind htokens fun members =>
      (consumes_expectSymbol .rightBrace).past htokens fun _ => .pure fun item => by simp

/-! ### The rules tied together -/

theorem reads_readNonterminal {α : Type} (nonterminal : Nonterminal α) :
    Reads tokens .begun nonterminal.items (readNonterminal rules nonterminal) := by
  cases nonterminal with
  | expr => exact reads_readExpr htokens hrules
  | ternary => exact reads_readTernary htokens hrules
  | binary least => exact reads_readBinary htokens hprogress hrules least
  | unary => exact reads_readUnary htokens hprogress hrules
  | type => exact Consumes.reads htokens (consumes_readType hprogress)
  | annotationUse => exact reads_readAnnotationUse htokens hrules
  | elementValue => exact reads_readElementValue htokens hrules
  | varInit => exact reads_readVarInit htokens hrules
  | stmt => exact reads_readStmt htokens hprogress hrules
  | block => exact reads_readBlock htokens hrules
  | classBody className isEnum => exact reads_readClassBody htokens hprogress hrules className isEnum

end Readers

/-- To whatever depth the rules are tied, they lay out what they read. -/
theorem laying_rules {tokens : List Token} (htokens : InOrder tokens) (depth : Nat) :
    (rules depth).Laying tokens := by
  induction depth with
  | zero => exact fun nonterminal cursor _ => .refl cursor
  | succ depth ih =>
      exact fun nonterminal => reads_readNonterminal htokens (consuming_rules_unasked depth) ih nonterminal

/-! ### Units -/

section Units

variable {tokens : List Token} (htokens : InOrder tokens) {rules : Rules}
  (hprogress : rules.Consuming none) (hrules : rules.Laying tokens)

include htokens

theorem reads_readPackage? : Reads tokens .fresh (fun _ => []) readPackage? := by
  refine .of_lays fun low => (looks_atKeyword .package).past fun found =>
    .ite (.pure fun _ => Nat.le_refl _) ?_
  refine (Consumes.reads htokens consumes_readPackage).attempt htokens (fun package => ?_) fun error => ?_
  · exact .forget (.pure fun _ => Nat.le_refl _)
  · exact lays_recordError error fun more => passes_skipPastSemicolon.past htokens fun _ =>
      .pure fun _ => Nat.le_refl _

theorem reads_readImports : Reads tokens .fresh (fun _ => []) readImports := by
  refine .of_lays fun low => Lays.consume (lays_iterate (fun _ => []) rfl fun scan => ?_) fun scan =>
    .pure fun _ => Nat.le_refl _
  refine (looks_atKeyword .import).past fun found => .ite (.pure fun _ => Nat.le_refl _) ?_
  refine (Consumes.reads htokens consumes_readImport).attempt htokens (fun decl => ?_) fun error => ?_
  · exact .forget (.pure fun _ => Nat.le_refl _)
  · refine lays_recordError error fun more => .ite ?_ (.pure fun _ => Nat.le_refl _)
    exact passes_skipPastSemicolon.past htokens fun _ => .pure fun _ => Nat.le_refl _

include hprogress hrules

theorem reads_readTypeDecl : Reads tokens .begun ClassDecl.items (readTypeDecl rules) :=
  .of_start fun _ => (reads_readModifiers htokens hrules).bind htokens fun modifiers =>
    lays_readClass htokens hprogress hrules modifiers

theorem reads_readTypeDecls :
    Reads tokens .fresh (fun types => types.flatMap ClassDecl.items) (readTypeDecls rules) := by
  refine .of_lays fun low => Lays.consume (lays_iterate
    (fun scan : DeclScan ClassDecl => scan.decls.flatMap ClassDecl.items) rfl fun scan => ?_) fun scan =>
      .pure fun item => Nat.le_of_eq ((scan.decls.reverse_perm.flatMap_right _).count_eq item)
  refine looks_atEnd.past fun ended => .ite (.pure fun _ => Nat.le_refl _) ?_
  refine (accepts_acceptSymbol .semicolon).past htokens (by decide)
    (.forget <| .pure fun _ => Nat.le_refl _) ?_
  refine (reads_readTypeDecl htokens hprogress hrules).attempt htokens (fun decl => ?_) fun error => ?_
  · exact .forget <| .pure fun item => by simp +arith [stepItems]
  · refine lays_recordError error fun more => .ite ?_ (.pure fun _ => Nat.le_refl _)
    exact passes_skipToTypeDecl.past htokens fun _ => .pure fun _ => Nat.le_refl _

/-- The classes of a unit are laid out, whatever errors are recovered from. -/
theorem reads_readUnit :
    Reads tokens .fresh (fun unit => TreeNode.itemsOf unit.parts) (readUnit rules) := by
  refine .of_lays fun low => (reads_readPackage? htokens).bind htokens fun package =>
    (reads_readImports htokens).bind htokens fun imports => ?_
  have hnone : Reads tokens .fresh (fun types => types.flatMap ClassDecl.items) (pure []) :=
    .of_lays fun _ => .pure fun _ => Nat.le_refl _
  refine (reads_readTypeDecls htokens hprogress hrules).choose htokens hnone fun types =>
    .pure fun item => ?_
  simp [CompilationUnit.parts]

end Units
end Grammar

/-! ### The units of all texts -/

/-- The tokens that are cut out of a text stand in its order. -/
theorem Lexer.inOrder_tokens (source : List Char) : Grammar.InOrder (tokenize source).tokens := by
  have hrun := analysed_run recovery 0 0 source
  have hinside {token : Token} (htoken : token ∈ (run recovery 0 0 0 source).tokens) :
      token.span.start < token.span.stop ∧ token.span.stop ≤ Text.byteLength source := by
    obtain ⟨-, before, lexeme, after, hne, rfl, hspan⟩ := hrun.exists_lexeme htoken
    have hpos := Text.byteLength_pos hne
    rw [hspan, Text.byteLength_append, Text.byteLength_append]
    dsimp only
    omega
  refine ⟨fun token htoken hkind => ?_, List.pairwise_append.mpr ⟨hrun.pairwise_tokens,
    List.pairwise_singleton _ _, fun token htoken last hlast => ?_⟩⟩
  · rcases List.mem_append.mp htoken with htoken | htoken
    · exact (hinside htoken).1
    · exact absurd (by rw [List.mem_singleton.mp htoken]) hkind
  · rw [List.mem_singleton.mp hlast]
    exact (hinside htoken).2

/-- The unit of any tokens in order is laid out. -/
theorem ParsedUnit.exists_laid_ofTokens {tokens : List Token} (htokens : Grammar.InOrder tokens) :
    ∃ low high, Laid tokens low high (TreeNode.itemsOf (ofTokens tokens).unit.parts) := by
  have hread := Grammar.reads_readUnit htokens (Grammar.consuming_rules_unasked (Grammar.depthFor tokens))
    (Grammar.laying_rules htokens _) (.start tokens) (.refl _)
  rw [ofTokens]
  cases hrun : (Grammar.readUnit (Grammar.rules (Grammar.depthFor tokens))).run (.start tokens) with
  | ok unit cursor =>
      rw [hrun] at hread
      exact ⟨_, _, hread.2.laid⟩
  | error error cursor => exact ⟨0, 0, .nil 0 0⟩

/-- The spans in the unit of any tokens in order nest as its constructs do. -/
theorem ParsedUnit.spansNest_ofTokens {tokens : List Token} (htokens : Grammar.InOrder tokens) :
    (ofTokens tokens).unit.SpansNest tokens := by
  obtain ⟨low, high, hlaid⟩ := exists_laid_ofTokens htokens
  exact hlaid.spansNest

/-- The spans in the unit of any text nest as its constructs do and cover whole tokens of the text, whatever
errors are recovered from. -/
theorem ParsedUnit.spans_nest (source : List Char) :
    (ofSource source).unit.SpansNest (Lexer.tokenize source).tokens :=
  spansNest_ofTokens (Lexer.inOrder_tokens source)

end LockDiscipline
