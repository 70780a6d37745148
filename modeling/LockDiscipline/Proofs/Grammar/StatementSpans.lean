import LockDiscipline.Proofs.Grammar.StatementProgress
import LockDiscipline.Proofs.Grammar.ExpressionSpans
/-!
# The spans in statements

The readers of statements lay out what they return. What a statement that could not be read has consumed is
passed over, so the statements behind it are laid out behind that. Not all parts of a statement are read in
the order in which they are kept: the condition of a `do` statement stands behind its body.
-/

namespace LockDiscipline

/-- A declared variable as the only item. -/
abbrev Declarator.items (declarator : Declarator) : List Item :=
  (TreeNode.declarator declarator).items

/-- A resource as the only item. -/
abbrev Resource.items (resource : Resource) : List Item :=
  (TreeNode.resource resource).items

/-- A handler as the only item. -/
abbrev CatchClause.items (clause : CatchClause) : List Item :=
  (TreeNode.catchClause clause).items

/-- A case as the only item. -/
abbrev SwitchCase.items (case : SwitchCase) : List Item :=
  (TreeNode.switchCase case).items

namespace Grammar

/-- The parts of a statement of a kind, as items. -/
def kindItems (kind : StmtKind) : List Item :=
  TreeNode.itemsOf kind.parts

/-- The head of a `for` statement, as items. -/
def ForHead.items : ForHead → List Item
  | .over _ _ iterated => iterated.items
  | .starts init => init.flatMap Stmt.items

section Readers

variable {tokens : List Token} (htokens : InOrder tokens) {rules : Rules}
  (hprogress : rules.Consuming none) (hrules : rules.Laying tokens) {low : Nat} {held : List Item}

include htokens hrules

/-! ### Blocks -/

theorem reads_readStmtsUntil (isEnd : TokenKind → Bool) :
    Reads tokens .fresh (fun body => body.flatMap Stmt.items) (readStmtsUntil rules isEnd) := by
  refine .of_lays fun low => Lays.consume (lays_iterate
    (fun scan : StmtScan => scan.stmts.flatMap Stmt.items) rfl fun scan => ?_) fun scan =>
      .pure fun item => Nat.le_of_eq ((scan.stmts.reverse_perm.flatMap_right _).count_eq item)
  refine looks_currentKind.past fun kind => .ite (.pure fun _ => Nat.le_refl _)
    (looks_get.past fun cursor => (hrules .stmt).attempt htokens (fun stmt => ?_) fun error => ?_)
  · exact .forget <| .pure fun item => by simp +arith [stepItems, Nonterminal.items]
  · refine lays_recordError error fun more => .ite ?_ ?_
    · exact (passes_recoverInBlock _).past htokens fun _ => .pure fun _ => Nat.le_refl _
    · exact passes_skipToClosingBrace.past htokens fun _ => .pure fun _ => Nat.le_refl _

theorem reads_readBlock :
    Reads tokens .begun (fun body => body.flatMap Stmt.items) (readBlock rules) :=
  .of_lays fun _ => (consumes_expectSymbol .leftBrace).past htokens fun _ =>
    (reads_readStmtsUntil htokens hrules _).bind htokens fun _ =>
      (consumes_expectSymbol .rightBrace).past htokens fun _ => .pure fun _ => Nat.le_refl _

/-! ### Declarations of variables -/

/-- A variable is laid out from its name on. -/
theorem lays_readDeclaratorRest {name : String} (hname : IsIdentOf tokens name) :
    Lays tokens low .begun .begun [] Declarator.items (readDeclaratorRest rules name low) := by
  refine passes_readDims.past htokens fun _ => (accepts_acceptSymbol .assign).passes.past htokens
    fun found => ((hrules .varInit).readWhen found).bind htokens fun init => lays_freshId fun id =>
      lays_spanFrom fun high => laid_node (List.forall_mem_singleton.mpr rfl)
        (List.forall_mem_nil _) (List.forall_mem_singleton.mpr hname) fun item => ?_
  change (TreeNode.itemsOf (exprParts .plain init.toList)).count item ≤ _
  simp [Nonterminal.items]

theorem reads_readDeclarator : Reads tokens .begun Declarator.items (readDeclarator rules) :=
  .of_start fun _ => lays_expectName htokens fun _ hname => lays_readDeclaratorRest htokens hrules hname

theorem lays_readDeclarators {first : String} (hfirst : IsIdentOf tokens first) :
    Lays tokens low .begun .begun [] (fun declarators => declarators.flatMap Declarator.items)
      (readDeclarators rules first low) := by
  have hothers : Reads tokens .fresh (fun declarators => declarators.flatMap Declarator.items)
      (collect do
        if ← acceptSymbol .comma then return some (← readDeclarator rules) else return none) := by
    refine .collect htokens (.of_lays fun low => ?_)
    refine (accepts_acceptSymbol .comma).past htokens (by decide) ?_ (.pure fun _ => Nat.le_refl _)
    exact .forget <| (reads_readDeclarator htokens hrules).bind htokens fun declarator =>
      .pure fun item => by simp
  exact (lays_readDeclaratorRest htokens hrules hfirst).consume fun head =>
    hothers.bind htokens fun others => .pure fun item => by simp

theorem reads_readCondition : Reads tokens .begun Expr.items (readCondition rules) :=
  .of_lays fun _ => (consumes_expectSymbol .leftParen).past htokens fun _ =>
    (hrules .expr).bind htokens fun _ => (consumes_expectSymbol .rightParen).past htokens fun _ =>
      .pure fun _ => Nat.le_refl _

include hprogress in
theorem reads_readLocalVars : Reads tokens .begun kindItems (readLocalVars rules) := by
  refine .of_lays fun _ => (hprogress .type).past htokens fun type =>
    ((reads_readDeclarator htokens hrules).separated htokens .comma).bind htokens fun declarators =>
      consumes_endStatement.past htokens fun _ => .pure fun item => ?_
  simp [kindItems, StmtKind.parts]

/-! ### Loops and branches -/

theorem reads_readIf : Reads tokens .begun kindItems (readIf rules) := by
  refine .of_lays fun _ => passes_advance.past htokens fun _ =>
    (reads_readCondition htokens hrules).bind htokens fun cond => (hrules .stmt).bind htokens
      fun whenTrue => (accepts_acceptKeyword .else).passes.past htokens fun found =>
        ((hrules .stmt).readWhen found).bind htokens fun whenFalse => .pure fun item => ?_
  simp +arith [kindItems, StmtKind.parts, Nonterminal.items]

theorem reads_readWhile : Reads tokens .begun kindItems (readWhile rules) := by
  refine .of_lays fun _ => passes_advance.past htokens fun _ =>
    (reads_readCondition htokens hrules).bind htokens fun cond => (hrules .stmt).bind htokens
      fun body => .pure fun item => ?_
  simp [kindItems, StmtKind.parts, Nonterminal.items]

theorem reads_readDo : Reads tokens .begun kindItems (readDo rules) := by
  refine .of_lays fun _ => passes_advance.past htokens fun _ => (hrules .stmt).bind htokens fun body =>
    (consumes_expectKeyword .while).past htokens fun _ =>
      (reads_readCondition htokens hrules).bind htokens fun cond =>
        consumes_endStatement.past htokens fun _ => .pure fun item => ?_
  simp +arith [kindItems, StmtKind.parts, Nonterminal.items]

include hprogress in
/-- The variables that a `for` statement declares begin at their names, behind the modifiers and the type. -/
theorem lays_readForDeclaration :
    Lays tokens low .fresh .begun [] ForHead.items (readForDeclaration rules low) := by
  refine (passes_readModifiers hprogress).past htokens fun _ => (hprogress .type).past htokens fun type =>
    .name htokens fun mark name hname => ?_
  refine (accepts_acceptSymbol .colon).past htokens (by decide) ?_ ?_
  · exact (hrules .expr).bind htokens fun iterated =>
      (consumes_expectSymbol .rightParen).past htokens fun _ => .pure fun _ => Nat.le_refl _
  · refine .from_mark htokens (lays_readDeclarators htokens hrules hname) fun declarators => ?_
    exact (lays_mkStmt fun item => by simp [StmtKind.parts]).consume fun stmt =>
      .pure fun item => by simp [ForHead.items]

omit htokens hrules in
/-- An expression is made a statement from the byte where it starts. -/
theorem lays_mkExprStmt (others : List Item) (expr : Expr) :
    Lays tokens low .begun .begun (others ++ expr.items) (fun stmt => others ++ stmt.items)
      (mkStmt (.expr expr) expr.span.start) :=
  lays_freshId fun _ cursor _ hpre =>
    ⟨.refl cursor, hpre.1, hpre.2.wrap_exprStmt hpre.1.stop⟩

omit htokens hrules in
theorem lays_mkExprStmts (exprs : List Expr) (others : List Item) :
    Lays tokens low .begun .begun (others ++ exprs.flatMap Expr.items)
      (fun stmts => others ++ stmts.flatMap Stmt.items) (mkExprStmts exprs) := by
  induction exprs generalizing others with
  | nil => exact .pure fun _ => Nat.le_refl _
  | cons expr rest ih =>
      -- The statement made first is held while the others are made, and so are their expressions.
      have hfirst : Lays tokens low .begun .begun (others ++ rest.flatMap Expr.items ++ expr.items)
          (fun stmt => others ++ rest.flatMap Expr.items ++ stmt.items)
            (mkStmt (.expr expr) expr.span.start) :=
        lays_mkExprStmt _ expr
      refine (hfirst.regroup fun high h => h.of_subperm (List.subperm_iff_count.mpr fun item => by
        simp +arith)).consume fun stmt => ?_
      refine ((ih (others ++ stmt.items)).regroup fun high h =>
        h.of_subperm (List.subperm_iff_count.mpr fun item => by simp +arith)).consume fun stmts =>
          .pure fun item => by simp

include hprogress in
theorem reads_readForHead : Reads tokens .fresh ForHead.items (readForHead rules) := by
  refine .of_start fun start => looks_declarationAhead.past fun found =>
    .ite (lays_readForDeclaration htokens hprogress hrules).forget ?_
  refine (looks_atSymbol .semicolon).past fun empty => .ite (.pure fun _ => Nat.le_refl _) ?_
  exact .forget <| ((hrules .expr).separated htokens .comma).bind htokens fun exprs =>
    (lays_mkExprStmts exprs []).consume fun stmts => .pure fun _ => Nat.le_refl _

include hprogress in
theorem reads_readFor : Reads tokens .begun kindItems (readFor rules) := by
  refine .of_lays fun _ => passes_advance.past htokens fun _ => (consumes_expectSymbol .leftParen).past
    htokens fun _ => (reads_readForHead htokens hprogress hrules).bind htokens fun head => ?_
  cases head with
  | «over» type name iterated =>
      refine (hrules .stmt).bind htokens fun body => .pure fun item => ?_
      simp [kindItems, StmtKind.parts, Nonterminal.items, ForHead.items]
  | starts init =>
      refine (consumes_expectSymbol .semicolon).past htokens fun _ => (looks_atSymbol .semicolon).past
        fun endless => ((hrules .expr).readWhen (!endless)).bind htokens fun cond =>
          (consumes_expectSymbol .semicolon).past htokens fun _ => (looks_atSymbol .rightParen).past
            fun closing => ?_
      have hnone : Reads tokens .fresh (fun exprs => exprs.flatMap Expr.items) (pure []) :=
        .of_lays fun _ => .pure fun _ => Nat.le_refl _
      refine hnone.choose htokens ((hrules .expr).separated htokens .comma).forget fun update =>
        (consumes_expectSymbol .rightParen).past htokens fun _ => (hrules .stmt).bind htokens fun body =>
          .pure fun item => ?_
      simp +arith [kindItems, StmtKind.parts, Nonterminal.items, ForHead.items]

/-! ### Resources and handlers -/

include hprogress in
theorem reads_readResource : Reads tokens .begun Resource.items (readResource rules) := by
  have hresource {low : Nat} {pre : Stage} (id : NodeId) (type name : Option String) :
      Lays tokens low pre .begun [] Resource.items (do
        return ⟨id, type, name, ← rules _ .expr⟩) :=
    (hrules .expr).bind htokens fun init => .yield fun high =>
      laid_bare [] rfl rfl (List.forall_mem_nil _) (List.forall_mem_nil _) fun item => by
      change (TreeNode.itemsOf (exprParts .plain [init])).count item ≤ _
      simp [Nonterminal.items]
  refine .of_lays fun low => lays_freshId fun id => looks_declarationAhead.past fun found => .ite ?_ ?_
  · exact (passes_readModifiers hprogress).past htokens fun _ => (hprogress .type).past htokens
      fun type => consumes_expectName.past htokens fun name =>
        (consumes_expectSymbol .assign).past htokens fun _ => hresource id _ _
  · exact hresource id _ _

include hprogress in
theorem reads_readResources :
    Reads tokens .fresh (fun resources => resources.flatMap Resource.items) (readResources rules) := by
  refine .of_lays fun low => (accepts_acceptSymbol .leftParen).past htokens (by decide) ?_
    (.pure fun _ => Nat.le_refl _)
  exact .forget <| ((reads_readResource htokens hprogress hrules).enumerated htokens .rightParen
    .semicolon).bind htokens fun _ => (consumes_expectSymbol .rightParen).past htokens fun _ =>
      .pure fun _ => Nat.le_refl _

include hprogress in
theorem reads_readCatch : Reads tokens .begun CatchClause.items (readCatch rules) := by
  refine .of_token htokens (consumes_expectKeyword .catch) span_of_expectKeyword fun span => ?_
  refine (consumes_expectSymbol .leftParen).past htokens fun _ =>
    (passes_readModifiers hprogress).past htokens fun _ =>
      (consumes_separated .pipe (by decide) (hprogress .type)).past htokens fun types =>
        consumes_expectName.past htokens fun name =>
          (consumes_expectSymbol .rightParen).past htokens fun _ => (hrules .block).bind htokens
            fun body => lays_freshId fun id => lays_spanFrom fun high =>
              laid_node (List.forall_mem_singleton.mpr rfl) (List.forall_mem_nil _)
        (List.forall_mem_nil _) fun item => ?_
  change (TreeNode.itemsOf (stmtParts .plain body)).count item ≤ _
  simp [Nonterminal.items]

include hprogress in
theorem reads_readTry : Reads tokens .begun kindItems (readTry rules) := by
  have hcatches : Reads tokens .fresh (fun clauses => clauses.flatMap CatchClause.items) (collect do
      if ← atKeyword .catch then return some (← readCatch rules) else return none) := by
    refine .collect htokens (.of_lays fun low => (looks_atKeyword .catch).past fun found =>
      .ite ?_ (.pure fun _ => Nat.le_refl _))
    exact .forget <| (reads_readCatch htokens hprogress hrules).bind htokens fun clause =>
      .pure fun item => by simp
  refine .of_lays fun low => (consumes_expectKeyword .try).past htokens fun trySpan =>
    (reads_readResources htokens hprogress hrules).bind htokens fun resources =>
      (hrules .block).bind htokens fun body => hcatches.bind htokens fun catches =>
        (accepts_acceptKeyword .finally).passes.past htokens fun found =>
          ((hrules .block).readWhen found).bind htokens fun finallyBody =>
            .ite (.throw _) (.pure fun item => ?_)
  cases finallyBody <;> simp +arith [kindItems, StmtKind.parts, Nonterminal.items]

/-! ### Cases -/

theorem reads_readCaseBody :
    Reads tokens .begun (fun body => body.flatMap Stmt.items) (readCaseBody rules) := by
  refine .of_lays fun low => (accepts_acceptSymbol .arrow).past htokens (by decide) ?_ ?_
  · refine (looks_atSymbol .leftBrace).past fun found => .ite ((hrules .block).last htokens) ?_
    exact (hrules .stmt).bind htokens fun stmt => .pure fun item => by simp [Nonterminal.items]
  · exact (consumes_expectSymbol .colon).past htokens fun _ =>
      (reads_readStmtsUntil htokens hrules endsCase).last htokens

theorem reads_readCase : Reads tokens .begun SwitchCase.items (readCase rules) := by
  have hbody {low : Nat} {pre : Stage} (labels : List Expr) (isDefault : Bool) :
      Lays tokens low pre .begun (labels.flatMap Expr.items) SwitchCase.items (do
        return ⟨labels, isDefault, ← readCaseBody rules⟩) := by
    refine (reads_readCaseBody htokens hrules).bind htokens fun body => .yield fun high =>
      laid_bare [] rfl rfl (List.forall_mem_nil _) (List.forall_mem_nil _) fun item => ?_
    change (TreeNode.itemsOf (exprParts .label labels ++ stmtParts .plain body)).count item ≤ _
    simp
  refine .of_lays fun low => (accepts_acceptKeyword .default).passes.past htokens fun isDefault =>
    .ite (hbody [] isDefault) ?_
  exact (consumes_expectKeyword .case).past htokens fun _ =>
    (((hrules .ternary).separated htokens .comma).withLambdas false true).bind htokens fun labels =>
      hbody labels isDefault

theorem reads_readSwitch : Reads tokens .begun kindItems (readSwitch rules) := by
  have hcases : Reads tokens .fresh (fun cases => cases.flatMap SwitchCase.items)
      (collect (readCase? rules)) := by
    refine .collect htokens (.of_lays fun low => (looks_atSymbol .rightBrace).past fun closing =>
      looks_atEnd.past fun ended => .ite (.pure fun _ => Nat.le_refl _) ?_)
    exact .forget <| (reads_readCase htokens hrules).bind htokens fun case => .pure fun item => by simp
  refine .of_lays fun low => passes_advance.past htokens fun _ =>
    (reads_readCondition htokens hrules).bind htokens fun selector =>
      (consumes_expectSymbol .leftBrace).past htokens fun _ => hcases.bind htokens fun cases =>
        (consumes_expectSymbol .rightBrace).past htokens fun _ => .pure fun item => ?_
  simp [kindItems, StmtKind.parts]

/-! ### Classes -/

include hprogress in
/-- A class goes around its modifiers and its body. -/
theorem lays_readClassRest (kind : ClassKind) (modifiers : Modifiers) :
    Lays tokens low .begun .begun modifiers.items ClassDecl.items
      (readClassRest rules kind modifiers low) := by
  have hbody (id : NodeId) (name : String) (typeParams : List String)
      (supertypes : Option String × List String) (implemented : List String) :
      Lays tokens low .begun .begun modifiers.items ClassDecl.items (do
        let members ← rules _ (.classBody name (kind = .enum))
        return {
          id, name, kind, modifiers, typeParams, superclass := supertypes.1,
          interfaces := supertypes.2 ++ implemented, members, span := ← spanFrom low }) := by
    refine (hrules (.classBody name (kind = .enum))).bind_behind htokens fun members hbehind =>
      lays_spanFrom fun high => laid_node (List.forall_mem_singleton.mpr rfl) hbehind
        (List.forall_mem_nil _) fun item => ?_
    rw [TreeNode.pieces_classDecl]
    exact Nat.le_refl _
  have himplemented (id : NodeId) (name : String) (typeParams : List String)
      (supertypes : Option String × List String) :
      Lays tokens low .begun .begun modifiers.items ClassDecl.items (do
        let implemented ← if ← acceptKeyword .implements then readTypeList rules else pure []
        let members ← rules _ (.classBody name (kind = .enum))
        return {
          id, name, kind, modifiers, typeParams, superclass := supertypes.1,
          interfaces := supertypes.2 ++ implemented, members, span := ← spanFrom low }) := by
    refine (accepts_acceptKeyword .implements).passes.past htokens fun found => .ite ?_ ?_
    · exact (consumes_readTypeList hprogress).past htokens fun implemented =>
        hbody id name typeParams supertypes _
    · exact hbody id name typeParams supertypes []
  refine lays_freshId fun id => consumes_expectName.past htokens fun name =>
    (passes_readTypeParams hprogress).past htokens fun typeParams =>
      (accepts_acceptKeyword .extends).passes.past htokens fun found => .ite (.ite ?_ ?_) ?_
  · exact (consumes_readTypeList hprogress).past htokens fun extended =>
      himplemented id name typeParams (none, extended)
  · exact (hprogress .type).past htokens fun superclass =>
      himplemented id name typeParams (some superclass, [])
  · exact himplemented id name typeParams (none, [])

include hprogress in
theorem lays_readClass (modifiers : Modifiers) :
    Lays tokens low .fresh .begun modifiers.items ClassDecl.items (readClass rules modifiers low) := by
  have hrest (kind : ClassKind) : Lays tokens low .ready .begun modifiers.items ClassDecl.items (do
      advance
      readClassRest rules kind modifiers low) :=
    .advance htokens (lays_readClassRest htokens hprogress hrules kind modifiers)
  refine lays_kind fun kind _ => ?_
  split
  · exact hrest .class
  · exact hrest .interface
  · exact hrest .enum
  · refine (looks_peek 1).past fun next => .ite ?_ (looks_get.past fun _ => .throw _)
    exact .advance htokens <| passes_advance.past htokens fun _ =>
      lays_readClassRest htokens hprogress hrules .interface modifiers
  · exact looks_get.past fun _ => .throw _

include hprogress in
theorem lays_readModified :
    Lays tokens low .fresh .begun [] kindItems (readModified rules low) := by
  refine (reads_readModifiers htokens hrules).bind htokens fun modifiers =>
    looks_currentKind.past fun kind => .ite ?_ ?_
  · exact (lays_readClass htokens hprogress hrules modifiers).consume fun decl => .pure fun item => by
      simp [kindItems, StmtKind.parts, nestedPart]
  · exact .dropping <| (reads_readLocalVars htokens hprogress hrules).last htokens

/-! ### Statements of all kinds -/

include hprogress in
theorem reads_readPlain : Reads tokens .begun kindItems (readPlain rules) := by
  refine .of_lays fun low => looks_currentKind.past fun kind => (looks_peek 1).past fun next => .ite ?_ ?_
  · refine consumes_expectName.past htokens fun label => passes_advance.past htokens fun _ =>
      (hrules .stmt).bind htokens fun body => .pure fun item => ?_
    simp [kindItems, StmtKind.parts, Nonterminal.items]
  · refine (looks_ahead looksLikeLocalDecl).past fun found =>
      .ite ((reads_readLocalVars htokens hprogress hrules).last htokens) ?_
    refine (hrules .expr).bind htokens fun expr => consumes_endStatement.past htokens fun _ =>
      .pure fun item => ?_
    simp [kindItems, StmtKind.parts, Nonterminal.items]

omit hrules in
theorem reads_readJump {kind : Option String → StmtKind} (hkind : ∀ label, (kind label).parts = []) :
    Reads tokens .begun kindItems (readJump kind) := by
  refine .of_lays fun low => passes_advance.past htokens fun _ => looks_currentKind.past fun next =>
    (consumes_expectName.readWhen next.isIdent).past htokens fun label =>
      consumes_endStatement.past htokens fun _ => .pure fun item => ?_
  simp [kindItems, hkind]

theorem reads_readReturn : Reads tokens .begun kindItems (readReturn rules) := by
  refine .of_lays fun low => passes_advance.past htokens fun _ => (looks_atSymbol .semicolon).past
    fun empty => ((hrules .expr).readWhen (!empty)).bind htokens fun value =>
      consumes_endStatement.past htokens fun _ => .pure fun item => ?_
  simp [kindItems, StmtKind.parts, Nonterminal.items]

theorem reads_readThrow : Reads tokens .begun kindItems (readThrow rules) := by
  refine .of_lays fun low => passes_advance.past htokens fun _ => (hrules .expr).bind htokens
    fun value => consumes_endStatement.past htokens fun _ => .pure fun item => ?_
  simp [kindItems, StmtKind.parts, Nonterminal.items]

theorem reads_readAssert : Reads tokens .begun kindItems (readAssert rules) := by
  refine .of_lays fun low => passes_advance.past htokens fun _ => (hrules .expr).bind htokens
    fun cond => (accepts_acceptSymbol .colon).passes.past htokens fun found =>
      ((hrules .expr).readWhen found).bind htokens fun message =>
        consumes_endStatement.past htokens fun _ => .pure fun item => ?_
  simp [kindItems, StmtKind.parts, Nonterminal.items]

theorem reads_readSynchronized : Reads tokens .begun kindItems (readSynchronized rules) := by
  refine .of_lays fun low => passes_advance.past htokens fun _ =>
    (reads_readCondition htokens hrules).bind htokens fun lock => (hrules .block).bind htokens
      fun body => .pure fun item => ?_
  simp [kindItems, StmtKind.parts, Nonterminal.items]

include hprogress in
/-- A statement of any kind consumes a token from its first byte on. -/
theorem lays_readStmtKind :
    Lays tokens low .fresh .begun [] kindItems (readStmtKind rules low) := by
  have hplain := reads_readPlain htokens hprogress hrules
  refine lays_kind fun kind _ => ?_
  split
  · exact (hrules .block).bind htokens fun body => .pure fun item => by
      simp [kindItems, StmtKind.parts, Nonterminal.items]
  · exact .advance htokens <| .pure fun item => by simp [kindItems, StmtKind.parts]
  · exact (lays_readModified htokens hprogress hrules).atStage
  · exact (reads_readIf htokens hrules).last htokens
  · exact (reads_readWhile htokens hrules).last htokens
  · exact (reads_readDo htokens hrules).last htokens
  · exact (reads_readFor htokens hprogress hrules).last htokens
  · exact (reads_readReturn htokens hrules).last htokens
  · exact (reads_readThrow htokens hrules).last htokens
  · exact (reads_readJump htokens fun _ => rfl).last htokens
  · exact (reads_readJump htokens fun _ => rfl).last htokens
  · exact (reads_readTry htokens hprogress hrules).last htokens
  · exact (reads_readSwitch htokens hrules).last htokens
  · exact (looks_peek 1).past fun next =>
      .ite ((reads_readSynchronized htokens hrules).last htokens) (hplain.last htokens)
  · exact (reads_readAssert htokens hrules).last htokens
  · exact (lays_readModified htokens hprogress hrules).atStage
  · exact (lays_readModified htokens hprogress hrules).atStage
  · exact (lays_readModified htokens hprogress hrules).atStage
  · exact (lays_readModified htokens hprogress hrules).atStage
  · exact (lays_readModified htokens hprogress hrules).atStage
  · exact (lays_readModified htokens hprogress hrules).atStage
  · exact (lays_readModified htokens hprogress hrules).atStage
  · exact hplain.last htokens

include hprogress in
theorem reads_readStmt : Reads tokens .begun Stmt.items (readStmt rules) :=
  .of_start fun _ => (lays_readStmtKind htokens hprogress hrules).consume fun _ =>
    lays_mkStmt fun _ => Nat.le_refl _

end Readers
end Grammar
end LockDiscipline
