import LockDiscipline.Proofs.Grammar.ExpressionRelocation
/-!
# Statements that stand elsewhere

The readers of statements go along with a relocation of the tokens as well. Recovery from an error compares
numbers of tokens and kinds only, so it goes on at the same token.
-/

namespace LockDiscipline.Grammar

/-- The head of a `for` statement, relocated. -/
def ForHead.relocate (move : Relocation) : ForHead → ForHead
  | .over type name iterated => .over type name (iterated.retouch (.relocate move))
  | .starts init => .starts (init.map (·.retouch (.relocate move)))

/-- What is known of a list of statements, relocated. -/
def StmtScan.relocate (move : Relocation) (scan : StmtScan) : StmtScan :=
  { scan with stmts := scan.stmts.map (·.retouch (.relocate move)) }

variable {tokens : List Token} {move : Relocation}

theorem relocates_mkStmt {kind kind' : StmtKind} (hkind : kind' = kind.retouch (.relocate move))
    (start : Nat) :
    Relocates tokens move (Stmt.retouch (.relocate move)) (mkStmt kind start)
      (mkStmt kind' (move.start start)) := by
  apply steady_freshId.skip
  intro id
  apply (relocates_spanFrom start).bind
  intro span
  exact .pure (by rw [hkind, Stmt.retouch_mk]; rfl)

/-! ### Recovery -/

theorem steady_skipToStatement : Steady tokens move skipToStatement := by
  apply (steady_iterate _).skip
  · intro depth
    exact .pure rfl
  · intro depth
    apply steady_currentKind.skip
    intro kind
    split
    · exact .pure rfl
    · exact .ite (.pure rfl) (steady_advance.skip fun _ => .pure rfl)
    · exact steady_advance.skip fun _ => .pure rfl
    · exact steady_advance.skip fun _ => .ite (.pure rfl) (.pure rfl)
    · exact .ite (.pure rfl) (steady_advance.skip fun _ => .pure rfl)
    · exact steady_advance.skip fun _ => .pure rfl

theorem length_rest_relocate (cursor : Cursor) : (cursor.relocate move).rest.length = cursor.rest.length :=
  List.length_map ..

theorem steady_recoverInBlock (before : Nat) : Steady tokens move (recoverInBlock before) := by
  apply relocates_get
  intro cursor _
  rw [length_rest_relocate]
  apply (steady_atSymbol .rightBrace).skip
  intro closing
  exact .ite (steady_advance.skip fun _ => steady_skipToStatement) steady_skipToStatement

theorem steady_skipToClosingBrace : Steady tokens move skipToClosingBrace := by
  apply (steady_iterate _).skip
  · intro depth
    exact .pure rfl
  · intro depth
    apply steady_currentKind.skip
    intro kind
    split
    · exact .pure rfl
    · exact .ite (.pure rfl) (steady_advance.skip fun _ => .pure rfl)
    · exact steady_advance.skip fun _ => .pure rfl
    · exact steady_advance.skip fun _ => .pure rfl

theorem steady_endStatement : Steady tokens move endStatement :=
  (relocates_expectSymbol .semicolon).bind fun _ => .pure rfl

section Readers

variable {rules : Rules} (hrules : rules.Relocating tokens move)
include hrules

theorem relocates_readStmtsUntil (isEnd : TokenKind → Bool) :
    Relocates tokens move (List.map (Stmt.retouch (.relocate move))) (readStmtsUntil rules isEnd)
      (readStmtsUntil rules isEnd) := by
  apply (relocates_iterate (StmtScan.relocate move) rfl _).bind
  · intro scan
    exact .pure (List.map_reverse ..).symm
  · intro scan
    apply steady_currentKind.skip
    intro kind
    apply Relocates.ite (.pure rfl)
    apply relocates_get
    intro cursor _
    rw [length_rest_relocate]
    apply (hrules .stmt).attempt
    · intro stmt
      exact .pure rfl
    · intro error hplaced
      apply (relocates_recordError rfl hplaced).bind
      intro more
      apply Relocates.ite
      · exact (steady_recoverInBlock _).skip fun _ => .pure rfl
      · exact steady_skipToClosingBrace.skip fun _ => .pure rfl

theorem relocates_readBlock :
    Relocates tokens move (List.map (Stmt.retouch (.relocate move))) (readBlock rules)
      (readBlock rules) := by
  apply (relocates_expectSymbol .leftBrace).bind
  intro _
  apply (relocates_readStmtsUntil hrules _).bind
  intro stmts
  exact (relocates_expectSymbol .rightBrace).bind fun _ => .pure rfl

/-! ### Variables -/

theorem relocates_readDeclaratorRest (name : String) (start : Nat) :
    Relocates tokens move (Declarator.retouch (.relocate move)) (readDeclaratorRest rules name start)
      (readDeclaratorRest rules name (move.start start)) := by
  apply steady_readDims.skip
  intro _
  apply (steady_acceptSymbol .assign).skip
  intro found
  apply ((hrules .varInit).readWhen found).bind
  intro init
  apply steady_freshId.skip
  intro id
  apply (relocates_spanFrom start).bind
  intro span
  exact .pure (by simp [Declarator.retouch, Nonterminal.change])

theorem relocates_readDeclarator :
    Relocates tokens move (Declarator.retouch (.relocate move)) (readDeclarator rules)
      (readDeclarator rules) := by
  apply relocates_currentStart.bind
  intro start
  apply steady_expectName.skip
  intro name
  exact relocates_readDeclaratorRest hrules name start

theorem relocates_readDeclarators (first : String) (start : Nat) :
    Relocates tokens move (List.map (Declarator.retouch (.relocate move)))
      (readDeclarators rules first start) (readDeclarators rules first (move.start start)) := by
  apply (relocates_readDeclaratorRest hrules first start).bind
  intro head
  apply (relocates_collect _).bind
  · intro others
    exact .pure rfl
  · apply (steady_acceptSymbol .comma).skip
    intro found
    apply Relocates.ite
    · exact (relocates_readDeclarator hrules).bind fun _ => .pure rfl
    · exact .pure rfl

theorem relocates_readLocalVars :
    Relocates tokens move (StmtKind.retouch (.relocate move)) (readLocalVars rules)
      (readLocalVars rules) := by
  apply (steady_type hrules).skip
  intro type
  apply (relocates_separated .comma (relocates_readDeclarator hrules)).bind
  intro declarators
  exact steady_endStatement.skip fun _ => .pure (by simp [StmtKind.retouch])

/-! ### Branches and loops -/

theorem relocates_readCondition :
    Relocates tokens move (Expr.retouch (.relocate move)) (readCondition rules) (readCondition rules) := by
  apply (relocates_expectSymbol .leftParen).bind
  intro _
  apply (hrules .expr).bind
  intro expr
  exact (relocates_expectSymbol .rightParen).bind fun _ => .pure rfl

theorem relocates_readIf :
    Relocates tokens move (StmtKind.retouch (.relocate move)) (readIf rules) (readIf rules) := by
  apply steady_advance.skip
  intro _
  apply (relocates_readCondition hrules).bind
  intro cond
  apply (hrules .stmt).bind
  intro whenTrue
  apply (steady_acceptKeyword .else).skip
  intro found
  apply ((hrules .stmt).readWhen found).bind
  intro whenFalse
  exact .pure (by simp [StmtKind.retouch, Nonterminal.change])

theorem relocates_readWhile :
    Relocates tokens move (StmtKind.retouch (.relocate move)) (readWhile rules) (readWhile rules) := by
  apply steady_advance.skip
  intro _
  apply (relocates_readCondition hrules).bind
  intro cond
  exact (hrules .stmt).bind fun body => .pure rfl

theorem relocates_readDo :
    Relocates tokens move (StmtKind.retouch (.relocate move)) (readDo rules) (readDo rules) := by
  apply steady_advance.skip
  intro _
  apply (hrules .stmt).bind
  intro body
  apply (relocates_expectKeyword .while).bind
  intro _
  apply (relocates_readCondition hrules).bind
  intro cond
  exact steady_endStatement.skip fun _ => .pure rfl

omit hrules in
theorem steady_declarationAhead : Steady tokens move declarationAhead := by
  apply (steady_atKeyword .final).skip
  intro final
  apply (steady_atSymbol .at).skip
  intro sign
  exact .ite (.pure rfl) (steady_ahead looksLikeLocalDecl_relocate)

theorem relocates_readForDeclaration (start : Nat) :
    Relocates tokens move (ForHead.relocate move) (readForDeclaration rules start)
      (readForDeclaration rules (move.start start)) := by
  apply (relocates_readModifiers hrules).bind
  intro _
  apply (steady_type hrules).skip
  intro type
  apply relocates_currentStart.bind
  intro nameStart
  apply steady_expectName.skip
  intro name
  apply (steady_acceptSymbol .colon).skip
  intro found
  apply Relocates.ite
  · apply (hrules .expr).bind
    intro iterated
    exact (relocates_expectSymbol .rightParen).bind fun _ => .pure rfl
  · apply (relocates_readDeclarators hrules name nameStart).bind
    intro declarators
    exact (relocates_mkStmt (by simp [StmtKind.retouch]) start).bind fun _ => .pure rfl

omit hrules in
theorem relocates_mkExprStmts (exprs : List Expr) :
    Relocates tokens move (List.map (Stmt.retouch (.relocate move))) (mkExprStmts exprs)
      (mkExprStmts (exprs.map (·.retouch (.relocate move)))) := by
  induction exprs with
  | nil => exact .pure rfl
  | cons expr rest ih =>
      rw [List.map_cons, mkExprStmts, mkExprStmts, Expr.span_retouch]
      apply (relocates_mkStmt rfl expr.span.start).bind
      intro stmt
      exact ih.bind fun _ => .pure rfl

theorem relocates_readForHead :
    Relocates tokens move (ForHead.relocate move) (readForHead rules) (readForHead rules) := by
  apply relocates_currentStart.bind
  intro start
  apply steady_declarationAhead.skip
  intro found
  apply Relocates.ite (relocates_readForDeclaration hrules start)
  apply (steady_atSymbol .semicolon).skip
  intro empty
  apply Relocates.ite (.pure rfl)
  apply (relocates_separated .comma (hrules .expr)).bind
  intro exprs
  exact (relocates_mkExprStmts exprs).bind fun _ => .pure rfl

theorem relocates_readFor :
    Relocates tokens move (StmtKind.retouch (.relocate move)) (readFor rules) (readFor rules) := by
  apply steady_advance.skip
  intro _
  apply (relocates_expectSymbol .leftParen).bind
  intro _
  apply (relocates_readForHead hrules).bind
  intro head
  cases head with
  | «over» type name iterated => exact (hrules .stmt).bind fun body => .pure rfl
  | starts init =>
      apply (relocates_expectSymbol .semicolon).bind
      intro _
      apply (steady_atSymbol .semicolon).skip
      intro endless
      apply ((hrules .expr).readWhen (!endless)).bind
      intro cond
      apply (relocates_expectSymbol .semicolon).bind
      intro _
      apply (steady_atSymbol .rightParen).skip
      intro closing
      apply Relocates.choose (.pure rfl) (relocates_separated .comma (hrules .expr))
      intro update
      apply (relocates_expectSymbol .rightParen).bind
      intro _
      exact (hrules .stmt).bind fun body => .pure (by simp [StmtKind.retouch, Nonterminal.change])

/-! ### `try` and `switch` -/

theorem relocates_readResource :
    Relocates tokens move (Resource.retouch (.relocate move)) (readResource rules)
      (readResource rules) := by
  apply steady_freshId.skip
  intro id
  apply steady_declarationAhead.skip
  intro found
  apply Relocates.ite
  · apply (relocates_readModifiers hrules).bind
    intro _
    apply (steady_type hrules).skip
    intro type
    apply steady_expectName.skip
    intro name
    apply (relocates_expectSymbol .assign).bind
    intro _
    exact (hrules .expr).bind fun init => .pure rfl
  · exact (hrules .expr).bind fun init => .pure rfl

theorem relocates_readResources :
    Relocates tokens move (List.map (Resource.retouch (.relocate move))) (readResources rules)
      (readResources rules) := by
  apply (steady_acceptSymbol .leftParen).skip
  intro found
  apply Relocates.ite
  · apply (relocates_enumerated .rightParen .semicolon (relocates_readResource hrules)).bind
    intro resources
    exact (relocates_expectSymbol .rightParen).bind fun _ => .pure rfl
  · exact .pure rfl

theorem relocates_readCatch :
    Relocates tokens move (CatchClause.retouch (.relocate move)) (readCatch rules) (readCatch rules) := by
  apply (relocates_expectKeyword .catch).bind
  intro word
  apply (relocates_expectSymbol .leftParen).bind
  intro _
  apply (relocates_readModifiers hrules).bind
  intro _
  apply (steady_separated .pipe (steady_type hrules)).skip
  intro types
  apply steady_expectName.skip
  intro name
  apply (relocates_expectSymbol .rightParen).bind
  intro _
  apply (hrules .block).bind
  intro body
  apply steady_freshId.skip
  intro id
  apply (relocates_spanFrom word.start).bind
  intro span
  exact .pure (by simp [CatchClause.retouch, Nonterminal.change])

omit hrules in
/-- A keyword that is read is at a token. -/
theorem grants_expectKeyword (word : Keyword) :
    Grants tokens move (fun span => span.Placed tokens) (expectKeyword word) := by
  intro cursor span after hcursor hrun
  rw [span_of_expectKeyword cursor span after hrun]
  exact hcursor.placed_current

theorem relocates_readTry :
    Relocates tokens move (StmtKind.retouch (.relocate move)) (readTry rules) (readTry rules) := by
  apply (relocates_expectKeyword .try).bind_of (grants_expectKeyword .try)
  intro word hplaced
  apply (relocates_readResources hrules).bind
  intro resources
  apply (hrules .block).bind
  intro body
  have hcatch : Relocates tokens move (Option.map (CatchClause.retouch (.relocate move)))
      (do if ← atKeyword .catch then return some (← readCatch rules) else return none)
      (do if ← atKeyword .catch then return some (← readCatch rules) else return none) := by
    apply (steady_atKeyword .catch).skip
    intro found
    apply Relocates.ite
    · exact (relocates_readCatch hrules).bind fun _ => .pure rfl
    · exact .pure rfl
  apply (relocates_collect hcatch).bind
  intro catches
  apply (steady_acceptKeyword .finally).skip
  intro found
  apply ((hrules .block).readWhen found).bind
  intro finallyBody
  simp only [List.isEmpty_map, Option.isNone_map]
  exact .ite (.throw rfl hplaced) (.pure (by simp [StmtKind.retouch, Nonterminal.change]))

theorem relocates_readCaseBody :
    Relocates tokens move (List.map (Stmt.retouch (.relocate move))) (readCaseBody rules)
      (readCaseBody rules) := by
  apply (steady_acceptSymbol .arrow).skip
  intro arrow
  apply Relocates.ite
  · apply (steady_atSymbol .leftBrace).skip
    intro found
    exact .ite (hrules .block) ((hrules .stmt).bind fun _ => .pure rfl)
  · apply (relocates_expectSymbol .colon).bind
    intro _
    exact relocates_readStmtsUntil hrules endsCase

theorem relocates_readCase :
    Relocates tokens move (SwitchCase.retouch (.relocate move)) (readCase rules) (readCase rules) := by
  have hbody (labels : List Expr) (isDefault : Bool) :
      Relocates tokens move (SwitchCase.retouch (.relocate move))
        (do return ⟨labels, isDefault, ← readCaseBody rules⟩)
        (do return ⟨labels.map (·.retouch (.relocate move)), isDefault, ← readCaseBody rules⟩) :=
    (relocates_readCaseBody hrules).bind fun _ => .pure (by simp [SwitchCase.retouch])
  apply (steady_acceptKeyword .default).skip
  intro isDefault
  apply Relocates.ite
  · exact hbody [] isDefault
  · apply (relocates_expectKeyword .case).bind
    intro _
    apply ((relocates_separated .comma (hrules .ternary)).withLambdas false true).bind
    intro labels
    exact hbody labels isDefault

theorem relocates_readSwitch :
    Relocates tokens move (StmtKind.retouch (.relocate move)) (readSwitch rules) (readSwitch rules) := by
  have hcase : Relocates tokens move (Option.map (SwitchCase.retouch (.relocate move))) (readCase? rules)
      (readCase? rules) := by
    apply (steady_atSymbol .rightBrace).skip
    intro closing
    apply steady_atEnd.skip
    intro ended
    exact .ite (.pure rfl) ((relocates_readCase hrules).bind fun _ => .pure rfl)
  apply steady_advance.skip
  intro _
  apply (relocates_readCondition hrules).bind
  intro selector
  apply (relocates_expectSymbol .leftBrace).bind
  intro _
  apply (relocates_collect hcase).bind
  intro cases
  apply (relocates_expectSymbol .rightBrace).bind
  intro _
  exact .pure (by simp [StmtKind.retouch])

/-! ### Classes -/

theorem relocates_readClassRest (kind : ClassKind) (modifiers : Modifiers) (start : Nat) :
    Relocates tokens move (ClassDecl.retouch (.relocate move)) (readClassRest rules kind modifiers start)
      (readClassRest rules kind (modifiers.retouch (.relocate move)) (move.start start)) := by
  have hbody (id : NodeId) (name : String) (typeParams : List String)
      (supertypes : Option String × List String) (implemented : List String) :
      Relocates tokens move (ClassDecl.retouch (.relocate move))
        (do
          let members ← rules _ (.classBody name (kind = .enum))
          return {
            id, name, kind, modifiers, typeParams, superclass := supertypes.1,
            interfaces := supertypes.2 ++ implemented, members, span := ← spanFrom start })
        (do
          let members ← rules _ (.classBody name (kind = .enum))
          return {
            id, name, kind, modifiers := modifiers.retouch (.relocate move), typeParams
            superclass := supertypes.1, interfaces := supertypes.2 ++ implemented, members
            span := ← spanFrom (move.start start) }) := by
    apply (hrules (.classBody name (kind = .enum))).bind
    intro members
    apply (relocates_spanFrom start).bind
    intro span
    exact .pure (by simp [ClassDecl.retouch, Nonterminal.change])
  apply steady_freshId.skip
  intro id
  apply steady_expectName.skip
  intro name
  apply (steady_readTypeParams hrules).skip
  intro typeParams
  apply (steady_acceptKeyword .extends).skip
  intro found
  have himplemented (supertypes : Option String × List String) :
      Relocates tokens move (ClassDecl.retouch (.relocate move))
        (do
          let implemented ← if ← acceptKeyword .implements then readTypeList rules else pure []
          let members ← rules _ (.classBody name (kind = .enum))
          return {
            id, name, kind, modifiers, typeParams, superclass := supertypes.1,
            interfaces := supertypes.2 ++ implemented, members, span := ← spanFrom start })
        (do
          let implemented ← if ← acceptKeyword .implements then readTypeList rules else pure []
          let members ← rules _ (.classBody name (kind = .enum))
          return {
            id, name, kind, modifiers := modifiers.retouch (.relocate move), typeParams
            superclass := supertypes.1, interfaces := supertypes.2 ++ implemented, members
            span := ← spanFrom (move.start start) }) := by
    apply (steady_acceptKeyword .implements).skip
    intro found
    exact .choose (steady_readTypeList hrules) (.pure rfl) (hbody id name typeParams supertypes)
  apply Relocates.ite
  · apply Relocates.ite
    · exact (steady_readTypeList hrules).skip fun extended => himplemented (none, extended)
    · exact (steady_type hrules).skip fun superclass => himplemented (some superclass, [])
  · exact himplemented (none, [])

theorem relocates_readClass (modifiers : Modifiers) (start : Nat) :
    Relocates tokens move (ClassDecl.retouch (.relocate move)) (readClass rules modifiers start)
      (readClass rules (modifiers.retouch (.relocate move)) (move.start start)) := by
  have hrest (kind : ClassKind) : Relocates tokens move (ClassDecl.retouch (.relocate move))
      (do
        advance
        readClassRest rules kind modifiers start)
      (do
        advance
        readClassRest rules kind (modifiers.retouch (.relocate move)) (move.start start)) :=
    steady_advance.skip fun _ => relocates_readClassRest hrules kind modifiers start
  apply steady_currentKind.skip
  intro kind
  split
  · exact hrest .class
  · exact hrest .interface
  · exact hrest .enum
  · apply (steady_peek 1).skip
    intro next
    exact .ite (steady_advance.skip fun _ => hrest .interface) (relocates_failExpected _)
  · exact relocates_failExpected _

/-! ### Statements -/

theorem relocates_readModified (start : Nat) :
    Relocates tokens move (StmtKind.retouch (.relocate move)) (readModified rules start)
      (readModified rules (move.start start)) := by
  apply (relocates_readModifiers hrules).bind
  intro modifiers
  apply steady_currentKind.skip
  intro kind
  apply Relocates.ite
  · exact (relocates_readClass hrules modifiers start).bind fun _ => .pure rfl
  · exact relocates_readLocalVars hrules

theorem relocates_readPlain :
    Relocates tokens move (StmtKind.retouch (.relocate move)) (readPlain rules) (readPlain rules) := by
  apply steady_currentKind.skip
  intro kind
  apply (steady_peek 1).skip
  intro next
  apply Relocates.ite
  · apply steady_expectName.skip
    intro label
    apply steady_advance.skip
    intro _
    exact (hrules .stmt).bind fun body => .pure rfl
  · apply (steady_ahead looksLikeLocalDecl_relocate).skip
    intro found
    apply Relocates.ite (relocates_readLocalVars hrules)
    apply (hrules .expr).bind
    intro expr
    exact steady_endStatement.skip fun _ => .pure rfl

omit hrules in
theorem relocates_readJump {kind : Option String → StmtKind}
    (hkind : ∀ label, kind label = (kind label).retouch (.relocate move)) :
    Relocates tokens move (StmtKind.retouch (.relocate move)) (readJump kind) (readJump kind) := by
  apply steady_advance.skip
  intro _
  apply steady_currentKind.skip
  intro current
  have hlabel : Steady tokens move (readWhen current.isIdent expectName) := by
    have hname := (steady_expectName : Steady tokens move expectName).readWhen current.isIdent
    rwa [Option.map_id_fun'] at hname
  apply Relocates.skip hlabel
  intro label
  exact steady_endStatement.skip fun _ => .pure (hkind label)

theorem relocates_readReturn :
    Relocates tokens move (StmtKind.retouch (.relocate move)) (readReturn rules) (readReturn rules) := by
  apply steady_advance.skip
  intro _
  apply (steady_atSymbol .semicolon).skip
  intro empty
  apply ((hrules .expr).readWhen (!empty)).bind
  intro value
  exact steady_endStatement.skip fun _ => .pure (by simp [StmtKind.retouch, Nonterminal.change])

theorem relocates_readThrow :
    Relocates tokens move (StmtKind.retouch (.relocate move)) (readThrow rules) (readThrow rules) := by
  apply steady_advance.skip
  intro _
  apply (hrules .expr).bind
  intro value
  exact steady_endStatement.skip fun _ => .pure rfl

theorem relocates_readAssert :
    Relocates tokens move (StmtKind.retouch (.relocate move)) (readAssert rules) (readAssert rules) := by
  apply steady_advance.skip
  intro _
  apply (hrules .expr).bind
  intro cond
  apply (steady_acceptSymbol .colon).skip
  intro found
  apply ((hrules .expr).readWhen found).bind
  intro message
  exact steady_endStatement.skip fun _ => .pure (by simp [StmtKind.retouch, Nonterminal.change])

theorem relocates_readSynchronized :
    Relocates tokens move (StmtKind.retouch (.relocate move)) (readSynchronized rules)
      (readSynchronized rules) := by
  apply steady_advance.skip
  intro _
  apply (relocates_readCondition hrules).bind
  intro lock
  exact (hrules .block).bind fun body => .pure (by simp [StmtKind.retouch, Nonterminal.change])

theorem relocates_readStmtKind (start : Nat) :
    Relocates tokens move (StmtKind.retouch (.relocate move)) (readStmtKind rules start)
      (readStmtKind rules (move.start start)) := by
  apply steady_currentKind.skip
  intro kind
  split
  · exact (hrules .block).bind fun body => .pure (by simp [StmtKind.retouch, Nonterminal.change])
  · exact steady_advance.skip fun _ => .pure rfl
  · exact relocates_readModified hrules start
  · exact relocates_readIf hrules
  · exact relocates_readWhile hrules
  · exact relocates_readDo hrules
  · exact relocates_readFor hrules
  · exact relocates_readReturn hrules
  · exact relocates_readThrow hrules
  · exact relocates_readJump fun _ => rfl
  · exact relocates_readJump fun _ => rfl
  · exact relocates_readTry hrules
  · exact relocates_readSwitch hrules
  · apply (steady_peek 1).skip
    intro next
    exact .ite (relocates_readSynchronized hrules) (relocates_readPlain hrules)
  · exact relocates_readAssert hrules
  all_goals first
    | exact relocates_readModified hrules start
    | exact relocates_readPlain hrules

theorem relocates_readStmt :
    Relocates tokens move (Stmt.retouch (.relocate move)) (readStmt rules) (readStmt rules) := by
  apply relocates_currentStart.bind
  intro start
  apply (relocates_readStmtKind hrules start).bind
  intro kind
  exact relocates_mkStmt rfl start

end Readers

end LockDiscipline.Grammar
