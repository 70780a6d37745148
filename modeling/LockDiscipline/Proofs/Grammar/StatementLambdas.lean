import LockDiscipline.Proofs.Grammar.ExpressionLambdas
import LockDiscipline.Proofs.Grammar.Lookahead
/-!
# The switch for lambdas in statements, members and classes

The readers of statements, members and classes leave the switch for lambdas as it was, unless they consume the
keyword of a case, and so do the rules tied together to every depth. Only a case of a `switch` statement turns
the switch off, for its labels, and then on.
-/

namespace LockDiscipline.Grammar

/-! ### Recovery -/

section Recovery

theorem restores_skipToStatement : Restores skipToStatement := by
  refine (restores_iterate fun depth => restores_currentKind.bind fun kind => ?_).bind fun _ => .pure
  split
  · exact .pure
  · exact .ite .pure (restores_advance.bind fun _ => .pure)
  · exact restores_advance.bind fun _ => .pure
  · exact restores_advance.bind fun _ => .ite .pure .pure
  · exact .ite .pure (restores_advance.bind fun _ => .pure)
  · exact restores_advance.bind fun _ => .pure

theorem restores_recoverInBlock (before : Nat) : Restores (recoverInBlock before) := by
  refine restores_get.bind fun cursor => (restores_atSymbol .rightBrace).bind fun closing => ?_
  exact .ite (restores_advance.bind fun _ => restores_skipToStatement) restores_skipToStatement

theorem restores_skipToClosingBrace : Restores skipToClosingBrace := by
  refine (restores_iterate fun depth => restores_currentKind.bind fun kind => ?_).bind fun _ => .pure
  split
  · exact .pure
  · exact .ite .pure (restores_advance.bind fun _ => .pure)
  · exact restores_advance.bind fun _ => .pure
  · exact restores_advance.bind fun _ => .pure

theorem restores_skipToMember : Restores skipToMember := by
  refine (restores_iterate fun depth => restores_currentKind.bind fun kind => ?_).bind fun _ => .pure
  split
  · exact .pure
  · exact restores_advance.bind fun _ => .ite .pure .pure
  · exact restores_advance.bind fun _ => .pure
  · exact .ite .pure (restores_advance.bind fun _ => .ite .pure .pure)
  · exact restores_advance.bind fun _ => .pure

theorem restores_endStatement : Restores endStatement :=
  (restores_expectSymbol .semicolon).bind fun _ => .pure

end Recovery

section Readers

variable {rules : Rules} (hrules : rules.Restoring)
include hrules

/-! ### Statements -/

theorem restores_readStmtsStep (isEnd : TokenKind → Bool) (scan : StmtScan) :
    Restores (readStmtsStep rules isEnd scan) := by
  refine restores_currentKind.bind fun kind => .ite .pure (restores_get.bind fun cursor => ?_)
  refine (hrules .stmt).attempt.bind fun outcome => ?_
  cases outcome with
  | ok stmt => exact .pure
  | error error =>
      refine (restores_recordError error).bind fun more => .ite ?_ ?_
      · exact (restores_recoverInBlock _).bind fun _ => .pure
      · exact restores_skipToClosingBrace.bind fun _ => .pure

theorem restores_readStmtsUntil (isEnd : TokenKind → Bool) : Restores (readStmtsUntil rules isEnd) :=
  (restores_iterate (restores_readStmtsStep hrules isEnd)).bind fun _ => .pure

theorem restores_readBlock : Restores (readBlock rules) :=
  (restores_expectSymbol .leftBrace).bind fun _ => (restores_readStmtsUntil hrules _).bind fun _ =>
    (restores_expectSymbol .rightBrace).bind fun _ => .pure

theorem restores_readDeclaratorRest (name : String) (start : Nat) :
    Restores (readDeclaratorRest rules name start) :=
  restores_readDims.bind fun _ => (restores_acceptSymbol .assign).bind fun found =>
    ((hrules .varInit).readWhen found).bind fun _ => restores_freshId.bind fun _ =>
      (restores_spanFrom start).bind fun _ => .pure

theorem restores_readDeclarator : Restores (readDeclarator rules) :=
  restores_currentStart.bind fun start => restores_expectName.bind fun name =>
    restores_readDeclaratorRest hrules name start

theorem restores_readDeclarators (first : String) (start : Nat) :
    Restores (readDeclarators rules first start) := by
  refine (restores_readDeclaratorRest hrules first start).bind fun head =>
    (restores_collect ?_).bind fun others => .pure
  exact (restores_acceptSymbol .comma).bind fun _ =>
    .ite ((restores_readDeclarator hrules).bind fun _ => .pure) .pure

theorem restores_readCondition : Restores (readCondition rules) :=
  (restores_expectSymbol .leftParen).bind fun _ => (hrules .expr).bind fun _ =>
    (restores_expectSymbol .rightParen).bind fun _ => .pure

theorem restores_readLocalVars : Restores (readLocalVars rules) :=
  (hrules .type).bind fun _ => (restores_separated .comma (restores_readDeclarator hrules)).bind fun _ =>
    restores_endStatement.bind fun _ => .pure

theorem restores_readIf : Restores (readIf rules) :=
  restores_advance.bind fun _ => (restores_readCondition hrules).bind fun _ =>
    (hrules .stmt).bind fun _ => (restores_acceptKeyword .else).bind fun found =>
      ((hrules .stmt).readWhen found).bind fun _ => .pure

theorem restores_readWhile : Restores (readWhile rules) :=
  restores_advance.bind fun _ => (restores_readCondition hrules).bind fun _ =>
    (hrules .stmt).bind fun _ => .pure

theorem restores_readDo : Restores (readDo rules) :=
  restores_advance.bind fun _ => (hrules .stmt).bind fun _ => (restores_expectKeyword .while).bind fun _ =>
    (restores_readCondition hrules).bind fun _ => restores_endStatement.bind fun _ => .pure

omit hrules in
theorem restores_declarationAhead : Restores declarationAhead :=
  (restores_atKeyword .final).bind fun _ => (restores_atSymbol .at).bind fun _ =>
    .ite .pure (restores_ahead _)

theorem restores_readForDeclaration (start : Nat) : Restores (readForDeclaration rules start) := by
  refine (restores_readModifiers hrules).bind fun _ => (hrules .type).bind fun type =>
    restores_currentStart.bind fun nameStart => restores_expectName.bind fun name =>
      (restores_acceptSymbol .colon).bind fun found => .ite ?_ ?_
  · exact (hrules .expr).bind fun _ => (restores_expectSymbol .rightParen).bind fun _ => .pure
  · exact (restores_readDeclarators hrules name nameStart).bind fun _ =>
      (restores_mkStmt _ _).bind fun _ => .pure

omit hrules in
theorem restores_mkExprStmts (exprs : List Expr) : Restores (mkExprStmts exprs) := by
  induction exprs with
  | nil => exact .pure
  | cons expr rest ih => exact (restores_mkStmt _ _).bind fun _ => ih.bind fun _ => .pure

theorem restores_readForHead : Restores (readForHead rules) := by
  refine restores_currentStart.bind fun start => restores_declarationAhead.bind fun found =>
    .ite (restores_readForDeclaration hrules start) ?_
  refine (restores_atSymbol .semicolon).bind fun empty => .ite .pure ?_
  exact (restores_separated .comma (hrules .expr)).bind fun exprs =>
    (restores_mkExprStmts exprs).bind fun _ => .pure

theorem restores_readFor : Restores (readFor rules) := by
  refine restores_advance.bind fun _ => (restores_expectSymbol .leftParen).bind fun _ =>
    (restores_readForHead hrules).bind fun head => ?_
  cases head with
  | «over» type name iterated => exact (hrules .stmt).bind fun _ => .pure
  | starts init =>
      refine (restores_expectSymbol .semicolon).bind fun _ => (restores_atSymbol .semicolon).bind
        fun endless => ((hrules .expr).readWhen (!endless)).bind fun cond =>
          (restores_expectSymbol .semicolon).bind fun _ => (restores_atSymbol .rightParen).bind
            fun closing => ?_
      exact .choose .pure (restores_separated .comma (hrules .expr)) fun update =>
        (restores_expectSymbol .rightParen).bind fun _ => (hrules .stmt).bind fun _ => .pure

theorem restores_readResource : Restores (readResource rules) := by
  refine restores_freshId.bind fun id => restores_declarationAhead.bind fun found => .ite ?_ ?_
  · exact (restores_readModifiers hrules).bind fun _ => (hrules .type).bind fun _ =>
      restores_expectName.bind fun _ => (restores_expectSymbol .assign).bind fun _ =>
        (hrules .expr).bind fun _ => .pure
  · exact (hrules .expr).bind fun _ => .pure

theorem restores_readResources : Restores (readResources rules) := by
  refine (restores_acceptSymbol .leftParen).bind fun found => .ite ?_ .pure
  exact (restores_enumerated .rightParen .semicolon (restores_readResource hrules)).bind fun _ =>
    (restores_expectSymbol .rightParen).bind fun _ => .pure

theorem restores_readCatch : Restores (readCatch rules) :=
  (restores_expectKeyword .catch).bind fun _ => (restores_expectSymbol .leftParen).bind fun _ =>
    (restores_readModifiers hrules).bind fun _ => (restores_separated .pipe (hrules .type)).bind fun _ =>
      restores_expectName.bind fun _ => (restores_expectSymbol .rightParen).bind fun _ =>
        (hrules .block).bind fun _ => restores_freshId.bind fun _ => (restores_spanFrom _).bind fun _ => .pure

theorem restores_readTry : Restores (readTry rules) := by
  refine (restores_expectKeyword .try).bind fun span => (restores_readResources hrules).bind fun resources =>
    (hrules .block).bind fun body => (restores_collect ?_).bind fun catches =>
      (restores_acceptKeyword .finally).bind fun found =>
        ((hrules .block).readWhen found).bind fun finallyBody => .ite (.throw _) .pure
  exact (restores_atKeyword .catch).bind fun _ =>
    .ite ((restores_readCatch hrules).bind fun _ => .pure) .pure

/-! ### Cases -/

theorem restores_readCaseBody : Restores (readCaseBody rules) := by
  refine (restores_acceptSymbol .arrow).bind fun arrow => .ite ?_ ?_
  · exact (restores_atSymbol .leftBrace).bind fun _ =>
      .ite (hrules .block) ((hrules .stmt).bind fun _ => .pure)
  · exact (restores_expectSymbol .colon).bind fun _ => restores_readStmtsUntil hrules endsCase

/-- The labels of a case are read with the switch off, and behind them it is on, whether they can be read or
not. -/
theorem turnsOn_labels {cursor : Cursor} (hcase : headKind cursor.rest = .keyword .case) :
    TurnsOn (do
      let _ ← expectKeyword .case
      withLambdas false true (separated .comma (rules _ .ternary))) cursor := by
  obtain ⟨span, hrun⟩ := (expects_expectKeyword .case cursor).1 hcase
  obtain ⟨token, htoken, hrest⟩ := takes_advance hcase nofun
  obtain ⟨read, hread, -⟩ :=
    restores_separated .comma (hrules .ternary) { cursor.advance with lambdas := false }
  rw [TurnsOn, cursorAfter_bind, hrun]
  dsimp only
  rw [cursorAfter_withLambdas]
  -- The switch is not put back here but set, which leaves it as it was only if it was on.
  refine ⟨⟨token :: read, ?_, fun hcondition => ?_⟩, rfl⟩
  · rw [hrest, List.cons_append]
    exact congrArg (token :: ·) hread
  · rcases hcondition with hset | hnone
    · exact hset.symm
    · exact absurd htoken (hnone token List.mem_cons_self)

theorem restores_labels : Restores (do
    let _ ← expectKeyword .case
    withLambdas false true (separated .comma (rules _ .ternary))) := by
  intro cursor
  by_cases hcase : headKind cursor.rest = .keyword .case
  · exact (turnsOn_labels hrules hcase).1
  · obtain ⟨error, -, hrun⟩ := (expects_expectKeyword .case cursor).2 hcase
    rw [cursorAfter_bind, hrun]
    exact .refl cursor

/-- What follows the labels of a case is its body. -/
theorem restores_caseBehind (labels : List Expr) (isDefault : Bool) :
    Restores (do return (⟨labels, isDefault, ← readCaseBody rules⟩ : SwitchCase)) :=
  (restores_readCaseBody hrules).bind fun _ => .pure

theorem restores_readCase : Restores (readCase rules) := by
  refine (restores_acceptKeyword .default).bind fun isDefault =>
    .ite (restores_caseBehind hrules [] isDefault) ?_
  have hlabelled := (restores_labels hrules).bind fun labels => restores_caseBehind hrules labels isDefault
  rwa [bind_assoc] at hlabelled

/-- A case with labels leaves the switch on, however it goes on behind its keyword. -/
theorem turnsOn_readCase {cursor : Cursor} (hcase : headKind cursor.rest = .keyword .case) :
    TurnsOn (readCase rules) cursor := by
  have hdefault : (acceptKeyword .default).run cursor = .ok false cursor := by
    rw [accepts_acceptKeyword .default cursor, if_neg (by rw [hcase]; nofun)]
  have hlabelled := (turnsOn_labels hrules hcase).bind fun labels => restores_caseBehind hrules labels false
  rw [bind_assoc] at hlabelled
  exact .behind hdefault hlabelled

theorem restores_readCase? : Restores (readCase? rules) :=
  (restores_atSymbol .rightBrace).bind fun _ => restores_atEnd.bind fun _ =>
    .ite .pure ((restores_readCase hrules).bind fun _ => .pure)

theorem restores_readSwitch : Restores (readSwitch rules) :=
  restores_advance.bind fun _ => (restores_readCondition hrules).bind fun _ =>
    (restores_expectSymbol .leftBrace).bind fun _ => (restores_collect (restores_readCase? hrules)).bind
      fun _ => (restores_expectSymbol .rightBrace).bind fun _ => .pure

/-! ### Classes and the choice of a statement -/

theorem restores_readClassRest (kind : ClassKind) (modifiers : Modifiers) (start : Nat) :
    Restores (readClassRest rules kind modifiers start) := by
  have himplemented (id : NodeId) (name : String) (typeParams : List String)
      (supertypes : Option String × List String) : Restores (do
        let implemented ← if ← acceptKeyword .implements then readTypeList rules else pure []
        let members ← rules _ (.classBody name (kind = .enum))
        return {
          id, name, kind, modifiers, typeParams, superclass := supertypes.1,
          interfaces := supertypes.2 ++ implemented, members, span := ← spanFrom start : ClassDecl }) :=
    (restores_acceptKeyword .implements).bind fun found =>
      .choose (restores_readTypeList hrules) .pure fun _ => (hrules (.classBody _ _)).bind fun _ =>
        (restores_spanFrom start).bind fun _ => .pure
  refine restores_freshId.bind fun id => restores_expectName.bind fun name =>
    (restores_readTypeParams hrules).bind fun typeParams =>
      (restores_acceptKeyword .extends).bind fun found => .ite (.ite ?_ ?_) ?_
  · exact (restores_readTypeList hrules).bind fun extended =>
      himplemented id name typeParams (none, extended)
  · exact (hrules .type).bind fun superclass => himplemented id name typeParams (some superclass, [])
  · exact himplemented id name typeParams (none, [])

theorem restores_readClass (modifiers : Modifiers) (start : Nat) :
    Restores (readClass rules modifiers start) := by
  have hrest (kind : ClassKind) : Restores (do
      advance
      readClassRest rules kind modifiers start) :=
    restores_advance.bind fun _ => restores_readClassRest hrules kind modifiers start
  refine restores_currentKind.bind fun kind => ?_
  split
  · exact hrest .class
  · exact hrest .interface
  · exact hrest .enum
  · exact (restores_peek 1).bind fun _ =>
      .ite (restores_advance.bind fun _ => hrest .interface) (restores_failExpected _)
  · exact restores_failExpected _

theorem restores_readModified (start : Nat) : Restores (readModified rules start) :=
  (restores_readModifiers hrules).bind fun modifiers => restores_currentKind.bind fun _ =>
    .ite ((restores_readClass hrules modifiers start).bind fun _ => .pure) (restores_readLocalVars hrules)

theorem restores_readPlain : Restores (readPlain rules) := by
  refine restores_currentKind.bind fun kind => (restores_peek 1).bind fun next => .ite ?_ ?_
  · exact restores_expectName.bind fun _ => restores_advance.bind fun _ => (hrules .stmt).bind fun _ => .pure
  · refine (restores_ahead looksLikeLocalDecl).bind fun found => .ite (restores_readLocalVars hrules) ?_
    exact (hrules .expr).bind fun _ => restores_endStatement.bind fun _ => .pure

omit hrules in
theorem restores_readJump (kind : Option String → StmtKind) : Restores (readJump kind) :=
  restores_advance.bind fun _ => restores_currentKind.bind fun _ =>
    (restores_expectName.readWhen _).bind fun _ => restores_endStatement.bind fun _ => .pure

theorem restores_readReturn : Restores (readReturn rules) :=
  restores_advance.bind fun _ => (restores_atSymbol .semicolon).bind fun empty =>
    ((hrules .expr).readWhen (!empty)).bind fun _ => restores_endStatement.bind fun _ => .pure

theorem restores_readThrow : Restores (readThrow rules) :=
  restores_advance.bind fun _ => (hrules .expr).bind fun _ => restores_endStatement.bind fun _ => .pure

theorem restores_readAssert : Restores (readAssert rules) :=
  restores_advance.bind fun _ => (hrules .expr).bind fun _ => (restores_acceptSymbol .colon).bind fun found =>
    ((hrules .expr).readWhen found).bind fun _ => restores_endStatement.bind fun _ => .pure

theorem restores_readSynchronized : Restores (readSynchronized rules) :=
  restores_advance.bind fun _ => (restores_readCondition hrules).bind fun _ =>
    (hrules .block).bind fun _ => .pure

theorem restores_readStmtKind (start : Nat) : Restores (readStmtKind rules start) := by
  refine restores_currentKind.bind fun kind => ?_
  split
  · exact (hrules .block).bind fun _ => .pure
  · exact restores_advance.bind fun _ => .pure
  · exact restores_readModified hrules start
  · exact restores_readIf hrules
  · exact restores_readWhile hrules
  · exact restores_readDo hrules
  · exact restores_readFor hrules
  · exact restores_readReturn hrules
  · exact restores_readThrow hrules
  · exact restores_readJump _
  · exact restores_readJump _
  · exact restores_readTry hrules
  · exact restores_readSwitch hrules
  · exact (restores_peek 1).bind fun _ =>
      .ite (restores_readSynchronized hrules) (restores_readPlain hrules)
  · exact restores_readAssert hrules
  all_goals first
    | exact restores_readModified hrules start
    | exact restores_readPlain hrules

theorem restores_readStmt : Restores (readStmt rules) :=
  restores_currentStart.bind fun start => (restores_readStmtKind hrules start).bind fun _ =>
    restores_mkStmt _ _

/-! ### Members and class bodies -/

theorem restores_readEnumConstant? (enumName : String) : Restores (readEnumConstant? rules enumName) := by
  refine restores_currentStart.bind fun start => (restores_skipAnnotations hrules).bind fun _ =>
    restores_currentKind.bind fun kind => ?_
  split
  · refine restores_advance.bind fun _ => (restores_atSymbol .leftParen).bind fun found => ?_
    exact .choose (restores_readArgs hrules) .pure fun args =>
      (restores_atSymbol .leftBrace).bind fun found =>
        ((restores_readAnonymousBody hrules enumName start).readWhen found).bind fun _ =>
          (restores_mkMember _ _).bind fun _ => .pure
  · exact .pure

theorem restores_readEnumConstantsStep (enumName : String) (scan : List Member × Bool) :
    Restores (readEnumConstantsStep rules enumName scan) := by
  refine .ite .pure ((restores_readEnumConstant? hrules enumName).bind fun constant => ?_)
  cases constant with
  | none => exact .pure
  | some constant => exact (restores_acceptSymbol .comma).bind fun _ => .pure

theorem restores_readEnumConstants (enumName : String) : Restores (readEnumConstants rules enumName) := by
  refine (restores_iterate (restores_readEnumConstantsStep hrules enumName)).bind fun scan =>
    (restores_atSymbol .rightBrace).bind fun closing => ?_
  exact .ite (restores_endStatement.bind fun _ => .pure) .pure

theorem restores_readParam? : Restores (readParam? rules) := by
  refine restores_currentStart.bind fun start => (restores_readModifiers hrules).bind fun modifiers =>
    (hrules .type).bind fun type => (restores_acceptSymbol .ellipsis).bind fun isVarargs =>
      (restores_acceptKeyword .this).bind fun receiver => .ite .pure ?_
  exact restores_expectName.bind fun _ => restores_readDims.bind fun _ => restores_freshId.bind fun _ =>
    (restores_spanFrom start).bind fun _ => .pure

theorem restores_readParams : Restores (readParams rules) :=
  (restores_expectSymbol .leftParen).bind fun _ =>
    (restores_enumerated .rightParen .comma (restores_readParam? hrules)).bind fun _ =>
      (restores_expectSymbol .rightParen).bind fun _ => .pure

theorem restores_readMethodRest (name : String) (modifiers : Modifiers) (typeParams : List String)
    (returnType : Option String) (start : Nat) :
    Restores (readMethodRest rules name modifiers typeParams returnType start) := by
  have hbody (id : NodeId) (params : List Param) (throws : List String) : Restores (do
      let body ← readWhen (!(← acceptSymbol .semicolon)) (rules _ .block)
      return (⟨id, name, modifiers, typeParams, returnType, params, throws, body,
        ← spanFrom start⟩ : MethodDecl)) :=
    (restores_acceptSymbol .semicolon).bind fun missing => ((hrules .block).readWhen (!missing)).bind fun _ =>
      (restores_spanFrom start).bind fun _ => .pure
  refine restores_freshId.bind fun id => (restores_readParams hrules).bind fun params =>
    restores_readDims.bind fun _ => (restores_acceptKeyword .throws).bind fun found => ?_
  refine .choose (restores_readTypeList hrules) .pure fun throws => ?_
  exact (restores_acceptKeyword .default).bind fun _ =>
    .ite ((hrules .elementValue).bind fun _ => hbody id params throws) (hbody id params throws)

theorem restores_readInitializer (isStatic : Bool) (start : Nat) :
    Restores (readInitializer rules isStatic start) :=
  (hrules .block).bind fun _ => restores_mkMember _ _

theorem restores_readTypedMember (modifiers : Modifiers) (typeParams : List String) (start : Nat) :
    Restores (readTypedMember rules modifiers typeParams start) := by
  refine (restores_acceptKeyword .void).bind fun found => ?_
  refine .choose .pure (hrules .type) fun type => restores_currentStart.bind fun nameStart =>
    restores_expectName.bind fun name => (restores_atSymbol .leftParen).bind fun found => .ite ?_ ?_
  · exact (restores_readMethodRest hrules name modifiers typeParams (some type) start).bind fun _ =>
      restores_mkMember _ _
  · exact (restores_readDeclarators hrules name nameStart).bind fun _ =>
      restores_endStatement.bind fun _ => restores_mkMember _ _

theorem restores_readDeclaredMember (className : String) (start : Nat) :
    Restores (readDeclaredMember rules className start) := by
  refine (restores_readModifiers hrules).bind fun modifiers => restores_currentKind.bind fun kind =>
    (restores_peek 1).bind fun next => .ite ?_ ?_
  · exact (restores_readClass hrules modifiers start).bind fun _ => restores_mkMember _ _
  · refine (restores_readTypeParams hrules).bind fun typeParams => restores_currentKind.bind fun kind =>
      (restores_peek 1).bind fun next => .ite (restores_advance.bind fun _ => ?_) ?_
    · exact (restores_readMethodRest hrules className modifiers typeParams none start).bind fun _ =>
        restores_mkMember _ _
    · exact restores_readTypedMember hrules modifiers typeParams start

theorem restores_readMember? (className : String) : Restores (readMember? rules className) := by
  refine restores_currentStart.bind fun start => (restores_acceptSymbol .semicolon).bind fun stray =>
    .ite .pure ((restores_atSymbol .leftBrace).bind fun found => .ite ?_ ?_)
  · exact (restores_readInitializer hrules false start).bind fun _ => .pure
  · refine (restores_atKeyword .static).bind fun isStatic => (restores_peek 1).bind fun next =>
      .ite (restores_advance.bind fun _ => ?_) ?_
    · exact (restores_readInitializer hrules true start).bind fun _ => .pure
    · exact (restores_readDeclaredMember hrules className start).bind fun _ => .pure

theorem restores_readMembersStep (className : String) (scan : MemberScan) :
    Restores (readMembersStep rules className scan) := by
  refine (restores_atSymbol .rightBrace).bind fun closing => restores_atEnd.bind fun ended =>
    .ite .pure ((restores_readMember? hrules className).attempt.bind fun outcome => ?_)
  split
  · exact .pure
  · exact .pure
  · refine (restores_recordError _).bind fun more => .ite ?_ ?_
    · exact restores_skipToMember.bind fun _ => .pure
    · exact restores_skipToClosingBrace.bind fun _ => .pure

theorem restores_readMembers (className : String) : Restores (readMembers rules className) :=
  (restores_iterate (restores_readMembersStep hrules className)).bind fun _ => .pure

theorem restores_readClassBody (className : String) (isEnum : Bool) :
    Restores (readClassBody rules className isEnum) := by
  refine (restores_expectSymbol .leftBrace).bind fun _ => ?_
  exact .choose (restores_readEnumConstants hrules className) .pure fun constants =>
    (restores_readMembers hrules className).bind fun _ =>
      (restores_expectSymbol .rightBrace).bind fun _ => .pure

theorem restores_readTypeDecl : Restores (readTypeDecl rules) :=
  restores_currentStart.bind fun start => (restores_readModifiers hrules).bind fun modifiers =>
    restores_readClass hrules modifiers start

/-! ### All rules -/

/-- A rule leaves the switch as it was, apart from cases, if those that it refers to do. -/
theorem restores_readNonterminal {α : Type} (nonterminal : Nonterminal α) :
    Restores (readNonterminal rules nonterminal) := by
  cases nonterminal with
  | expr => exact restores_readExpr hrules
  | ternary => exact restores_readTernary hrules
  | binary least => exact restores_readBinary hrules least
  | unary => exact restores_readUnary hrules
  | type => exact restores_readType hrules
  | annotationUse => exact restores_readAnnotationUse hrules
  | elementValue => exact restores_readElementValue hrules
  | varInit => exact restores_readVarInit hrules
  | stmt => exact restores_readStmt hrules
  | block => exact restores_readBlock hrules
  | classBody className isEnum => exact restores_readClassBody hrules className isEnum

end Readers

/-- The rules tied together to any depth leave the switch as it was, apart from cases. -/
theorem restoring_rules (depth : Nat) : (rules depth).Restoring := by
  intro α nonterminal
  induction depth generalizing α with
  | zero => exact restores_failTooDeep
  | succ depth ih => exact restores_readNonterminal ih nonterminal

end LockDiscipline.Grammar
