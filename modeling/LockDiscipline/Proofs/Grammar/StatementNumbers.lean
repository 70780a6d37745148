import LockDiscipline.Proofs.Grammar.ExpressionNumbers
/-!
# The numbers in statements

The readers of statements hand out numbers. The numbers of a statement that could not be read stay
used, so reading on behind it hands out others.
-/

namespace LockDiscipline

/-- The numbers in a declared variable. -/
abbrev Declarator.numbers (declarator : Declarator) : List NodeId :=
  (TreeNode.declarator declarator).numbers

/-- The numbers in a resource. -/
abbrev Resource.numbers (resource : Resource) : List NodeId :=
  (TreeNode.resource resource).numbers

/-- The numbers in a handler. -/
abbrev CatchClause.numbers (clause : CatchClause) : List NodeId :=
  (TreeNode.catchClause clause).numbers

/-- The numbers in a case. -/
abbrev SwitchCase.numbers (case : SwitchCase) : List NodeId :=
  (TreeNode.switchCase case).numbers

namespace Grammar

/-- A new statement bears a new number beside those of its parts, and what else is held stays
held. -/
theorem numbers_mkStmt_beside (others : List NodeId) {held : List NodeId} {kind : StmtKind}
    (start : Nat)
    (hparts : ∀ id, (others ++ TreeNode.numbersOf kind.parts).count id ≤ held.count id) :
    Numbers held (fun stmt => others ++ stmt.numbers) (mkStmt kind start) := by
  refine numbers_freshId.bind fun id => (quiet_spanFrom start).skip fun span => .pure ?_
  refine subperm_of_count fun number => ?_
  have hnumber := hparts number
  rw [List.count_append] at hnumber
  rw [Stmt.numbers, TreeNode.numbers_eq, List.count_append, List.count_append, List.count_append,
    Nat.add_comm (List.count number _) (List.count number _), ← Nat.add_assoc]
  exact Nat.add_le_add_right hnumber _

/-- A new statement bears a new number beside those of its parts. -/
theorem numbers_mkStmt {held : List NodeId} {kind : StmtKind} (start : Nat)
    (hparts : ∀ id, (TreeNode.numbersOf kind.parts).count id ≤ held.count id) :
    Numbers held Stmt.numbers (mkStmt kind start) :=
  numbers_mkStmt_beside [] start hparts

/-- The numbers of the parts of a statement of a kind. -/
def kindIds (kind : StmtKind) : List NodeId :=
  TreeNode.numbersOf kind.parts

section Recovery

theorem quiet_skipToStatement : Quiet skipToStatement := by
  refine Numbers.skip (quiet_iterate fun depth => ?_) fun _ => .pure (.refl _)
  refine quiet_currentKind.skip fun kind => ?_
  split
  · exact .pure (.refl _)
  · exact .ite (.pure (.refl _)) (quiet_advance.skip fun _ => .pure (.refl _))
  · exact quiet_advance.skip fun _ => .pure (.refl _)
  · exact quiet_advance.skip fun _ => .ite (.pure (.refl _)) (.pure (.refl _))
  · exact .ite (.pure (.refl _)) (quiet_advance.skip fun _ => .pure (.refl _))
  · exact quiet_advance.skip fun _ => .pure (.refl _)

theorem quiet_recoverInBlock (before : Nat) : Quiet (recoverInBlock before) := by
  refine quiet_get.skip fun cursor => (quiet_atSymbol .rightBrace).skip fun closing => ?_
  exact .ite (quiet_advance.skip fun _ => quiet_skipToStatement) quiet_skipToStatement

theorem quiet_skipToClosingBrace : Quiet skipToClosingBrace := by
  refine Numbers.skip (quiet_iterate fun depth => ?_) fun _ => .pure (.refl _)
  refine quiet_currentKind.skip fun kind => ?_
  split
  · exact .pure (.refl _)
  · exact .ite (.pure (.refl _)) (quiet_advance.skip fun _ => .pure (.refl _))
  · exact quiet_advance.skip fun _ => .pure (.refl _)
  · exact quiet_advance.skip fun _ => .pure (.refl _)

theorem quiet_endStatement : Quiet endStatement :=
  (quiet_expectSymbol .semicolon).skip fun _ => .pure (.refl _)

end Recovery

section Readers

variable {rules : Rules} (hrules : rules.Numbered)
include hrules

theorem numbers_readStmtsUntil (isEnd : TokenKind → Bool) :
    Numbers [] (fun body => body.flatMap Stmt.numbers) (readStmtsUntil rules isEnd) := by
  refine Numbers.bind (numbers_iterate (fun scan : StmtScan => scan.stmts.flatMap Stmt.numbers)
    (.refl _) fun scan => ?_) fun scan =>
      .pure (scan.stmts.reverse_perm.flatMap_right _).subperm
  refine quiet_currentKind.skip fun kind => .ite (.pure (.refl _)) (quiet_get.skip fun cursor => ?_)
  refine (numbers_attempt (hrules .stmt)).bind fun outcome => ?_
  cases outcome with
  | ok stmt =>
      exact .pure (subperm_of_count fun id => by
        simp +arith [stepIds, outcomeIds, Nonterminal.ids])
  | error error =>
      have hkept : (scan.stmts.flatMap Stmt.numbers).Subperm
          (scan.stmts.flatMap Stmt.numbers ++ []) := by
        rw [List.append_nil]
      refine (quiet_recordError error).skip fun more => .ite ?_ ?_
      · exact (quiet_recoverInBlock _).skip fun _ => .pure hkept
      · exact quiet_skipToClosingBrace.skip fun _ => .pure hkept

theorem numbers_readBlock : Numbers [] (fun body => body.flatMap Stmt.numbers) (readBlock rules) :=
  (quiet_expectSymbol .leftBrace).skip fun _ => (numbers_readStmtsUntil hrules _).bind fun _ =>
    (quiet_expectSymbol .rightBrace).skip fun _ => .pure (.refl _)

theorem numbers_readDeclaratorRest (name : String) (start : Nat) :
    Numbers [] Declarator.numbers (readDeclaratorRest rules name start) := by
  refine quiet_readDims.skip fun _ => (quiet_acceptSymbol .assign).skip fun found => ?_
  refine (numbers_readWhen found (hrules .varInit)).bind fun init => numbers_freshId.bind fun id =>
    (quiet_spanFrom start).skip fun span => .pure (subperm_of_count fun number => ?_)
  rw [Declarator.numbers, TreeNode.numbers_eq, List.count_append, List.count_append, Nat.add_comm]
  cases init <;> simp [TreeNode.ownIds, TreeNode.parts, Nonterminal.ids]

theorem numbers_readDeclarator : Numbers [] Declarator.numbers (readDeclarator rules) :=
  quiet_currentStart.skip fun start => quiet_expectName.skip fun name =>
    numbers_readDeclaratorRest hrules name start

theorem numbers_readDeclarators (first : String) (start : Nat) :
    Numbers [] (fun declarators => declarators.flatMap Declarator.numbers)
      (readDeclarators rules first start) := by
  refine (numbers_readDeclaratorRest hrules first start).bind fun head =>
    (numbers_collect Declarator.numbers ?_).bind fun others => .pure (.refl _)
  refine (quiet_acceptSymbol .comma).skip fun found => .ite ?_ (.pure (.refl _))
  exact (numbers_readDeclarator hrules).bind fun declarator =>
    .pure (subperm_of_count fun id => by simp)

theorem numbers_readCondition : Numbers [] Expr.numbers (readCondition rules) :=
  (quiet_expectSymbol .leftParen).skip fun _ => (hrules .expr).bind fun _ =>
    (quiet_expectSymbol .rightParen).skip fun _ => .pure (.refl _)

theorem numbers_readLocalVars : Numbers [] kindIds (readLocalVars rules) := by
  refine (quiet_type hrules).skip fun type =>
    (numbers_separated .comma (numbers_readDeclarator hrules)).bind fun declarators =>
      quiet_endStatement.skip fun _ => .pure (subperm_of_count fun id => ?_)
  simp [kindIds, StmtKind.parts]

theorem numbers_readIf : Numbers [] kindIds (readIf rules) := by
  refine quiet_advance.skip fun _ => (numbers_readCondition hrules).bind fun cond =>
    (hrules .stmt).bind fun whenTrue => (quiet_acceptKeyword .else).skip fun found =>
      (numbers_readWhen found (hrules .stmt)).bind fun whenFalse => .pure ?_
  exact subperm_of_count fun id => by simp +arith [kindIds, StmtKind.parts, Nonterminal.ids]

theorem numbers_readWhile : Numbers [] kindIds (readWhile rules) := by
  refine quiet_advance.skip fun _ => (numbers_readCondition hrules).bind fun cond =>
    (hrules .stmt).bind fun body => .pure (subperm_of_count fun id => ?_)
  simp [kindIds, StmtKind.parts, Nonterminal.ids]

theorem numbers_readDo : Numbers [] kindIds (readDo rules) := by
  refine quiet_advance.skip fun _ => (hrules .stmt).bind fun body =>
    (quiet_expectKeyword .while).skip fun _ => (numbers_readCondition hrules).bind fun cond =>
      quiet_endStatement.skip fun _ => .pure (subperm_of_count fun id => ?_)
  simp +arith [kindIds, StmtKind.parts, Nonterminal.ids]

omit hrules in
theorem quiet_declarationAhead : Quiet declarationAhead :=
  (quiet_atKeyword .final).skip fun _ => (quiet_atSymbol .at).skip fun _ =>
    .ite (.pure (.refl _)) (quiet_ahead _)

/-- The numbers in the head of a `for` statement. -/
def ForHead.ids : ForHead → List NodeId
  | .over _ _ iterated => iterated.numbers
  | .starts init => init.flatMap Stmt.numbers

theorem numbers_readForDeclaration (start : Nat) :
    Numbers [] ForHead.ids (readForDeclaration rules start) := by
  refine (numbers_readModifiers hrules).quiet.skip fun _ => (quiet_type hrules).skip fun type =>
    quiet_currentStart.skip fun nameStart => quiet_expectName.skip fun name =>
      (quiet_acceptSymbol .colon).skip fun found => .ite ?_ ?_
  · exact (hrules .expr).bind fun iterated => (quiet_expectSymbol .rightParen).skip fun _ =>
      .pure (.refl _)
  · refine (numbers_readDeclarators hrules name nameStart).bind fun declarators => ?_
    exact (numbers_mkStmt start fun id => by simp [StmtKind.parts]).consume fun stmt =>
      .pure (subperm_of_count fun id => by simp [ForHead.ids])

omit hrules in
theorem numbers_mkExprStmts (exprs : List Expr) (others : List NodeId) :
    Numbers (others ++ exprs.flatMap Expr.numbers)
      (fun stmts => others ++ stmts.flatMap Stmt.numbers) (mkExprStmts exprs) := by
  induction exprs generalizing others with
  | nil => exact .pure (.refl _)
  | cons expr rest ih =>
      -- The statement made first is held while the others are made, and so are their expressions.
      refine (numbers_mkStmt_beside (others ++ rest.flatMap Expr.numbers) _ fun id => by
        simp +arith [StmtKind.parts]).consume fun stmt => ?_
      refine Numbers.consume ((ih (others ++ stmt.numbers)).weaken
        (subperm_of_count fun id => by simp +arith) fun _ => .refl _) fun stmts => .pure ?_
      exact subperm_of_count fun id => by simp

theorem numbers_readForHead : Numbers [] ForHead.ids (readForHead rules) := by
  refine quiet_currentStart.skip fun start => quiet_declarationAhead.skip fun found =>
    .ite (numbers_readForDeclaration hrules start) ?_
  refine (quiet_atSymbol .semicolon).skip fun empty => .ite (.pure (.refl _)) ?_
  exact (numbers_separated .comma (hrules .expr)).bind fun exprs =>
    (numbers_mkExprStmts exprs []).consume fun stmts => .pure (.refl _)

theorem numbers_readFor : Numbers [] kindIds (readFor rules) := by
  refine quiet_advance.skip fun _ => (quiet_expectSymbol .leftParen).skip fun _ =>
    (numbers_readForHead hrules).bind fun head => ?_
  cases head with
  | «over» type name iterated =>
      refine (hrules .stmt).bind fun body => .pure (subperm_of_count fun id => ?_)
      simp [kindIds, StmtKind.parts, Nonterminal.ids, ForHead.ids]
  | starts init =>
      refine (quiet_expectSymbol .semicolon).skip fun _ => (quiet_atSymbol .semicolon).skip
        fun endless => (numbers_readWhen (!endless) (hrules .expr)).bind fun cond =>
          (quiet_expectSymbol .semicolon).skip fun _ => (quiet_atSymbol .rightParen).skip
            fun closing => ?_
      refine .choose (.pure (.refl _)) (numbers_separated .comma (hrules .expr)) fun update =>
        (quiet_expectSymbol .rightParen).skip fun _ => (hrules .stmt).bind fun body => .pure ?_
      exact subperm_of_count fun id => by
        simp +arith [kindIds, StmtKind.parts, Nonterminal.ids, ForHead.ids]

theorem numbers_readResource : Numbers [] Resource.numbers (readResource rules) := by
  have hresource (id : NodeId) (type name : Option String) (init : Expr) :
      (Resource.numbers ⟨id, type, name, init⟩).Subperm ([id] ++ init.numbers) := by
    rw [Resource.numbers, TreeNode.numbers_eq]
    exact subperm_of_count fun number => by simp [TreeNode.ownIds, TreeNode.parts]
  refine numbers_freshId.bind fun id => quiet_declarationAhead.skip fun found => .ite ?_ ?_
  · exact (numbers_readModifiers hrules).quiet.skip fun _ => (quiet_type hrules).skip fun type =>
      quiet_expectName.skip fun name => (quiet_expectSymbol .assign).skip fun _ =>
        (hrules .expr).bind fun init => .pure (hresource id _ _ init)
  · exact (hrules .expr).bind fun init => .pure (hresource id _ _ init)

theorem numbers_readResources :
    Numbers [] (fun resources => resources.flatMap Resource.numbers) (readResources rules) := by
  refine (quiet_acceptSymbol .leftParen).skip fun found => .ite ?_ (.pure (.refl _))
  exact (numbers_enumerated .rightParen .semicolon (numbers_readResource hrules)).bind fun _ =>
    (quiet_expectSymbol .rightParen).skip fun _ => .pure (.refl _)

theorem numbers_readCatch : Numbers [] CatchClause.numbers (readCatch rules) := by
  refine (quiet_expectKeyword .catch).skip fun _ => (quiet_expectSymbol .leftParen).skip fun _ =>
    (numbers_readModifiers hrules).quiet.skip fun _ =>
      (quiet_separated .pipe (quiet_type hrules)).skip fun types => quiet_expectName.skip fun name =>
        (quiet_expectSymbol .rightParen).skip fun _ => (hrules .block).bind fun body =>
          numbers_freshId.bind fun id => (quiet_spanFrom _).skip fun span => .pure ?_
  refine subperm_of_count fun number => ?_
  rw [CatchClause.numbers, TreeNode.numbers_eq, List.count_append, List.count_append, Nat.add_comm]
  simp [TreeNode.ownIds, TreeNode.parts, Nonterminal.ids]

theorem numbers_readTry : Numbers [] kindIds (readTry rules) := by
  refine (quiet_expectKeyword .try).skip fun _ => (numbers_readResources hrules).bind fun resources =>
    (hrules .block).bind fun body =>
      (numbers_collect CatchClause.numbers ?_).bind fun catches =>
        (quiet_acceptKeyword .finally).skip fun found =>
          (numbers_readWhen found (hrules .block)).bind fun finallyBody => ?_
  · refine (quiet_atKeyword .catch).skip fun found => .ite ?_ (.pure (.refl _))
    exact (numbers_readCatch hrules).bind fun clause => .pure (subperm_of_count fun id => by simp)
  · refine .ite (numbers_throw _) (.pure (subperm_of_count fun id => ?_))
    cases finallyBody <;>
      simp +arith [kindIds, StmtKind.parts, Nonterminal.ids]

theorem numbers_readCaseBody :
    Numbers [] (fun body => body.flatMap Stmt.numbers) (readCaseBody rules) := by
  refine (quiet_acceptSymbol .arrow).skip fun arrow => .ite ?_ ?_
  · refine (quiet_atSymbol .leftBrace).skip fun found => .ite (hrules .block) ?_
    exact (hrules .stmt).bind fun stmt => .pure (subperm_of_count fun id => by
      simp [Nonterminal.ids])
  · exact (quiet_expectSymbol .colon).skip fun _ => numbers_readStmtsUntil hrules endsCase

theorem numbers_readCase : Numbers [] SwitchCase.numbers (readCase rules) := by
  have hbody (labels : List Expr) (isDefault : Bool) :
      Numbers (labels.flatMap Expr.numbers) SwitchCase.numbers (do
        return ⟨labels, isDefault, ← readCaseBody rules⟩) := by
    refine (numbers_readCaseBody hrules).bind fun body => .pure ?_
    rw [SwitchCase.numbers, TreeNode.numbers_eq]
    exact subperm_of_count fun id => by simp [TreeNode.ownIds, TreeNode.parts]
  refine (quiet_acceptKeyword .default).skip fun isDefault => .ite ?_ ?_
  · exact hbody [] isDefault
  · exact (quiet_expectKeyword .case).skip fun _ =>
      (numbers_withLambdas false true (numbers_separated .comma (hrules .ternary))).bind
        fun labels => hbody labels isDefault

theorem numbers_readSwitch : Numbers [] kindIds (readSwitch rules) := by
  refine quiet_advance.skip fun _ => (numbers_readCondition hrules).bind fun selector =>
    (quiet_expectSymbol .leftBrace).skip fun _ =>
      (numbers_collect SwitchCase.numbers ?_).bind fun cases =>
        (quiet_expectSymbol .rightBrace).skip fun _ => .pure (subperm_of_count fun id => ?_)
  · refine (quiet_atSymbol .rightBrace).skip fun closing => quiet_atEnd.skip fun ended =>
      .ite (.pure (.refl _)) ?_
    exact (numbers_readCase hrules).bind fun case => .pure (subperm_of_count fun id => by simp)
  · simp [kindIds, StmtKind.parts]

theorem numbers_readClassRest (kind : ClassKind) (modifiers : Modifiers) (start : Nat) :
    Numbers modifiers.numbers ClassDecl.numbers (readClassRest rules kind modifiers start) := by
  have hbody (id : NodeId) (name : String) (typeParams : List String)
      (supertypes : Option String × List String) (implemented : List String) :
      Numbers (modifiers.numbers ++ [id]) ClassDecl.numbers (do
        let members ← rules _ (.classBody name (kind = .enum))
        return {
          id, name, kind, modifiers, typeParams, superclass := supertypes.1,
          interfaces := supertypes.2 ++ implemented, members, span := ← spanFrom start }) := by
    refine (hrules (.classBody name (kind = .enum))).bind fun members =>
      (quiet_spanFrom start).skip fun span => .pure (subperm_of_count fun number => ?_)
    rw [ClassDecl.numbers, TreeNode.numbers_eq]
    simp +arith [TreeNode.ownIds, TreeNode.parts, Nonterminal.ids, List.count_cons]
  have himplemented (id : NodeId) (name : String) (typeParams : List String)
      (supertypes : Option String × List String) :
      Numbers (modifiers.numbers ++ [id]) ClassDecl.numbers (do
        let implemented ← if ← acceptKeyword .implements then readTypeList rules else pure []
        let members ← rules _ (.classBody name (kind = .enum))
        return {
          id, name, kind, modifiers, typeParams, superclass := supertypes.1,
          interfaces := supertypes.2 ++ implemented, members, span := ← spanFrom start }) := by
    refine (quiet_acceptKeyword .implements).skip fun found => .ite ?_ ?_
    · exact (quiet_readTypeList hrules).skip fun implemented => hbody id name typeParams supertypes _
    · exact hbody id name typeParams supertypes []
  refine numbers_freshId.bind fun id => quiet_expectName.skip fun name =>
    (quiet_readTypeParams hrules).skip fun typeParams =>
      (quiet_acceptKeyword .extends).skip fun found => .ite (.ite ?_ ?_) ?_
  · exact (quiet_readTypeList hrules).skip fun extended =>
      himplemented id name typeParams (none, extended)
  · exact (quiet_type hrules).skip fun superclass =>
      himplemented id name typeParams (some superclass, [])
  · exact himplemented id name typeParams (none, [])

theorem numbers_readClass (modifiers : Modifiers) (start : Nat) :
    Numbers modifiers.numbers ClassDecl.numbers (readClass rules modifiers start) := by
  have hrest (kind : ClassKind) : Numbers modifiers.numbers ClassDecl.numbers (do
      advance
      readClassRest rules kind modifiers start) :=
    quiet_advance.skip fun _ => numbers_readClassRest hrules kind modifiers start
  refine quiet_currentKind.skip fun kind => ?_
  split
  · exact hrest .class
  · exact hrest .interface
  · exact hrest .enum
  · exact (quiet_peek 1).skip fun next =>
      .ite (quiet_advance.skip fun _ => hrest .interface) (numbers_failExpected _)
  · exact numbers_failExpected _

theorem numbers_readModified (start : Nat) : Numbers [] kindIds (readModified rules start) := by
  refine (numbers_readModifiers hrules).bind fun modifiers => quiet_currentKind.skip fun kind =>
    .ite ?_ ?_
  · refine (numbers_readClass hrules modifiers start).consume fun decl => .pure ?_
    exact subperm_of_count fun id => by
      simp [kindIds, StmtKind.parts, nestedPart, TreeNode.numbersOf_singleton]
  · exact (numbers_readLocalVars hrules).weaken List.nil_subperm fun _ => .refl _

theorem numbers_readPlain : Numbers [] kindIds (readPlain rules) := by
  refine quiet_currentKind.skip fun kind => (quiet_peek 1).skip fun next => .ite ?_ ?_
  · exact quiet_expectName.skip fun label => quiet_advance.skip fun _ =>
      (hrules .stmt).bind fun body => .pure (subperm_of_count fun id => by
        simp [kindIds, StmtKind.parts, Nonterminal.ids])
  · refine (quiet_ahead looksLikeLocalDecl).skip fun found =>
      .ite (numbers_readLocalVars hrules) ?_
    exact (hrules .expr).bind fun expr => quiet_endStatement.skip fun _ =>
      .pure (subperm_of_count fun id => by simp [kindIds, StmtKind.parts, Nonterminal.ids])

omit hrules in
theorem numbers_readJump {kind : Option String → StmtKind}
    (hkind : ∀ label, kindIds (kind label) = []) :
    Numbers [] kindIds (readJump kind) :=
  quiet_advance.skip fun _ => quiet_currentKind.skip fun current =>
    (quiet_readWhen _ quiet_expectName).skip fun label => quiet_endStatement.skip fun _ =>
      .pure (subperm_of_count fun id => by simp [hkind])

theorem numbers_readReturn : Numbers [] kindIds (readReturn rules) := by
  refine quiet_advance.skip fun _ => (quiet_atSymbol .semicolon).skip fun empty =>
    (numbers_readWhen (!empty) (hrules .expr)).bind fun value => quiet_endStatement.skip fun _ =>
      .pure (subperm_of_count fun id => ?_)
  simp [kindIds, StmtKind.parts, Nonterminal.ids]

theorem numbers_readThrow : Numbers [] kindIds (readThrow rules) := by
  refine quiet_advance.skip fun _ => (hrules .expr).bind fun value => quiet_endStatement.skip
    fun _ => .pure (subperm_of_count fun id => ?_)
  simp [kindIds, StmtKind.parts, Nonterminal.ids]

theorem numbers_readAssert : Numbers [] kindIds (readAssert rules) := by
  refine quiet_advance.skip fun _ => (hrules .expr).bind fun cond =>
    (quiet_acceptSymbol .colon).skip fun found =>
      (numbers_readWhen found (hrules .expr)).bind fun message => quiet_endStatement.skip fun _ =>
        .pure (subperm_of_count fun id => ?_)
  simp [kindIds, StmtKind.parts, Nonterminal.ids]

theorem numbers_readSynchronized : Numbers [] kindIds (readSynchronized rules) := by
  refine quiet_advance.skip fun _ => (numbers_readCondition hrules).bind fun lock =>
    (hrules .block).bind fun body => .pure (subperm_of_count fun id => ?_)
  simp [kindIds, StmtKind.parts, Nonterminal.ids]

theorem numbers_readStmtKind (start : Nat) : Numbers [] kindIds (readStmtKind rules start) := by
  refine quiet_currentKind.skip fun kind => ?_
  split
  · exact (hrules .block).bind fun body => .pure (subperm_of_count fun id => by
      simp [kindIds, StmtKind.parts, Nonterminal.ids])
  · exact quiet_advance.skip fun _ => .pure (.refl _)
  · exact numbers_readModified hrules start
  · exact numbers_readIf hrules
  · exact numbers_readWhile hrules
  · exact numbers_readDo hrules
  · exact numbers_readFor hrules
  · exact numbers_readReturn hrules
  · exact numbers_readThrow hrules
  · exact numbers_readJump fun _ => rfl
  · exact numbers_readJump fun _ => rfl
  · exact numbers_readTry hrules
  · exact numbers_readSwitch hrules
  · exact (quiet_peek 1).skip fun next =>
      .ite (numbers_readSynchronized hrules) (numbers_readPlain hrules)
  · exact numbers_readAssert hrules
  all_goals first
    | exact numbers_readModified hrules start
    | exact numbers_readPlain hrules

theorem numbers_readStmt : Numbers [] Stmt.numbers (readStmt rules) := by
  refine quiet_currentStart.skip fun start => (numbers_readStmtKind hrules start).bind fun kind => ?_
  exact numbers_mkStmt start fun id => Nat.le_refl _

end Readers

end Grammar
end LockDiscipline
