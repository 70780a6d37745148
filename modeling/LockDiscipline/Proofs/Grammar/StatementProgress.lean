import LockDiscipline.Proofs.Grammar.ExpressionProgress
/-!
# Progress in statements

A list of statements goes on behind a statement that failed, even if that consumed nothing: recovery then
moves over a token that neither ends the list nor the file. So a closing brace has to end every list of
statements. The token in front of a list pays for the error that the list may keep beyond the limit.
-/

namespace LockDiscipline.Grammar

variable {depth : Option Nat}

/-! ### Recovery in a block -/

theorem advances_skipToStatementStep : Advances depth 0 skipToStatementStep := by
  intro braces held _
  refine looks_currentKind.learn fun kind => ?_
  split
  · exact .pure (.refl _)
  · refine .ite (fun _ => .pure (.refl _)) fun _ => ?_
    exact (moves_advance.at_kind (by nofun)).bind fun _ => .pure (.refl _)
  · exact (moves_advance.at_kind (by nofun)).bind fun _ => .pure (.refl _)
  · refine (moves_advance.at_kind (by nofun)).bind fun _ => ?_
    exact .ite (fun _ => .pure (Allowance.within_gain _)) fun _ => .pure (.refl _)
  · refine .ite (fun _ => .pure (.refl _)) fun _ => ?_
    exact (moves_advance.at_kind (by nofun)).bind fun _ => .pure (.refl _)
  · next hend _ _ _ _ => exact (moves_advance.at_kind hend).bind fun _ => .pure (.refl _)

theorem passes_skipToStatement : Passes depth 0 skipToStatement :=
  fun _ _ hheld => (advances_skipToStatementStep.loop 0).first hheld fun _ => .done

theorem passes_recoverInBlock (before : Nat) : Passes depth 0 (recoverInBlock before) := by
  intro known held hheld
  refine looks_get.skip fun cursor => (looks_atSymbol .rightBrace).skip fun brace =>
    .ite (fun _ => ?_) fun _ => passes_skipToStatement hheld
  exact passes_advance.first hheld fun _ => passes_skipToStatement hheld

/-- Where a statement failed that consumed nothing, recovery consumes the token in front, as long as that
does not end the block. -/
theorem affords_recoverInBlock {kind : TokenKind} (hbrace : kind ≠ .symbol .rightBrace)
    (hend : kind ≠ .eof) (cursor : Cursor) {held : Allowance} :
    Affords depth (fun rest => headKind rest = kind ∧ cursor.rest = rest) held (fun _ => held.gain)
      (recoverInBlock cursor.rest.length) := by
  refine looks_get.note fun again => (looks_atSymbol .rightBrace).note fun brace =>
    .ite (fun _ => ?_) fun hnot => .absurd ?_
  · refine Affords.bind (moves_advance.given ?_) fun _ => passes_skipToStatement.last
    rintro rest ⟨⟨⟨hkind, -⟩, -⟩, -⟩
    exact hkind ▸ hend
  · rintro rest ⟨⟨⟨hkind, hcursor⟩, hagain⟩, rfl⟩
    rw [hkind, beq_false_of_ne hbrace, hagain, ← hcursor] at hnot
    exact hnot (by simp)

theorem advances_skipToClosingBraceStep : Advances depth 0 skipToClosingBraceStep := by
  intro braces held _
  refine looks_currentKind.learn fun kind => ?_
  split
  · exact .pure (.refl _)
  · refine .ite (fun _ => .pure (.refl _)) fun _ => ?_
    exact (moves_advance.at_kind (by nofun)).bind fun _ => .pure (.refl _)
  · exact (moves_advance.at_kind (by nofun)).bind fun _ => .pure (.refl _)
  · next hend _ _ => exact (moves_advance.at_kind hend).bind fun _ => .pure (.refl _)

theorem passes_skipToClosingBrace : Passes depth 0 skipToClosingBrace :=
  fun _ _ hheld => (advances_skipToClosingBraceStep.loop 1).first hheld fun _ => .done

section Readers

variable {rules : Rules} (hrules : rules.Consuming depth)

/-! ### Blocks -/

include hrules

/-- A list of statements that a closing brace ends goes on with fewer tokens. -/
theorem recovers_readStmtsStep {isEnd : TokenKind → Bool} (hisEnd : isEnd (.symbol .rightBrace)) :
    Recovers depth 5 StmtScan.more (readStmtsStep rules isEnd) where
  goes scan held hheld := by
    refine looks_currentKind.learn fun kind => .ite (fun _ => .pure (.refl _)) fun hgo =>
      looks_get.note fun cursor => ?_
    simp only [Bool.or_eq_true, not_or, beq_iff_eq, Bool.not_eq_true] at hgo
    obtain ⟨⟨hmore, hkind⟩, hend⟩ := hgo
    have hbrace : kind ≠ .symbol .rightBrace := by
      rintro rfl
      exact absurd hisEnd (Bool.eq_false_iff.mp hkind)
    have hgoes : scan.more := by simpa using hmore
    exact affords_item (hrules .stmt) hheld (fun _ => rfl) hgoes
      (fun stmt => .pure (Allowance.within_recovered hgoes)) (passes_recoverInBlock _)
      (affords_recoverInBlock hbrace hend cursor)
      fun hhand => passes_skipToClosingBrace.first (Nat.zero_le _) fun _ => .pure hhand
  ends scan cursor h := by
    obtain ⟨kind, hrun, hkind⟩ := looks_currentKind cursor
    have hstop : (!scan.more || isEnd kind || kind == .eof) = true := by
      obtain hmore | heof := h
      · rw [hmore]
        rfl
      · rw [← hkind, heof, beq_self_eq_true, Bool.or_true]
    rw [readStmtsStep, EStateM.run_bind, hrun]
    dsimp only
    rw [if_pos hstop]
    rfl

/-- A list of statements uses the error that it has to spare. -/
theorem affords_readStmtsUntil {isEnd : TokenKind → Bool} (hisEnd : isEnd (.symbol .rightBrace))
    {known : List Token → Prop} {held : Allowance} (hheld : 5 ≤ held.levels) :
    Affords depth known held.spare (fun _ => held) (readStmtsUntil rules isEnd) :=
  ((recovers_readStmtsStep hrules hisEnd).loop rfl hheld).bind fun _ =>
    .pure (Allowance.within_spareIf _ _)

theorem consumes_readBlock : Consumes depth 0 (readBlock rules) := by
  intro known held _
  refine ((expects_expectSymbol .leftBrace).opened rfl).bind fun _ => ?_
  refine (affords_readStmtsUntil hrules rfl (held.le_levels_gain (by decide))).bind fun stmts => ?_
  exact (consumes_expectSymbol .rightBrace).behind (by decide) fun _ => .done

/-! ### Declarations of variables -/

theorem passes_readDeclaratorRest (name : String) (start : Nat) :
    Passes depth 5 (readDeclaratorRest rules name start) := by
  intro known held hheld
  refine passes_readDims.first (Nat.zero_le _) fun _ => ?_
  refine (accepts_acceptSymbol .assign).passes.first (Nat.zero_le _) fun found => ?_
  refine ((hrules .varInit).readWhen found).first hheld fun init => ?_
  exact passes_freshId.first (Nat.zero_le _) fun id => (looks_spanFrom start).skip fun span => .done

theorem consumes_readDeclarator : Consumes depth 0 (readDeclarator rules) := by
  intro known held hheld
  refine looks_currentStart.skip fun start => consumes_expectName.first hheld fun name => ?_
  exact passes_readDeclaratorRest hrules name start (held.le_levels_gain (by decide))

theorem passes_readDeclarators (first : String) (start : Nat) :
    Passes depth 5 (readDeclarators rules first start) := by
  intro known held hheld
  refine (passes_readDeclaratorRest hrules first start).first hheld fun head => ?_
  refine Passes.first (passes_collect ?_) (Nat.zero_le _) fun others => .done
  intro held _
  refine (accepts_acceptSymbol .comma).branch nofun ?_ (.pure (.refl _))
  exact (consumes_readDeclarator hrules).behind (by decide) fun _ => .pure (.refl _)

omit hrules in
theorem consumes_endStatement : Consumes depth 0 endStatement :=
  fun _ _ hheld => (consumes_expectSymbol .semicolon).first hheld fun _ => .done

theorem consumes_readLocalVars : Consumes depth 2 (readLocalVars rules) := by
  intro known held hheld
  refine (hrules .type).first hheld fun type => ?_
  refine (consumes_separated .comma (by decide) (consumes_readDeclarator hrules)).behind (by decide)
    fun declarators => ?_
  exact consumes_endStatement.behind (by decide) fun _ => .done

/-! ### Loops and branches -/

theorem consumes_readCondition : Consumes depth 0 (readCondition rules) := by
  intro known held hheld
  refine (consumes_expectSymbol .leftParen).first hheld fun _ => ?_
  refine (hrules .expr).behind (by decide) fun expr => ?_
  exact (consumes_expectSymbol .rightParen).behind (by decide) fun _ => .done

theorem moves_readIf : Moves depth (readIf rules) := by
  refine Moves.advance_first fun held => (consumes_readCondition hrules).behind (by decide) fun cond => ?_
  refine (hrules .stmt).behind (by decide) fun whenTrue => ?_
  refine (accepts_acceptKeyword .else).passes.behind (by decide) fun found => ?_
  exact ((hrules .stmt).readWhen found).behind (by decide) fun whenFalse => .done

theorem moves_readWhile : Moves depth (readWhile rules) := by
  refine Moves.advance_first fun held => (consumes_readCondition hrules).behind (by decide) fun cond => ?_
  exact (hrules .stmt).behind (by decide) fun body => .done

theorem moves_readDo : Moves depth (readDo rules) := by
  refine Moves.advance_first fun held => (hrules .stmt).behind (by decide) fun body => ?_
  refine (consumes_expectKeyword .while).behind (by decide) fun _ => ?_
  refine (consumes_readCondition hrules).behind (by decide) fun cond => ?_
  exact consumes_endStatement.behind (by decide) fun _ => .done

omit hrules in
theorem looks_declarationAhead : Looks (fun _ _ => True) declarationAhead := by
  intro cursor
  obtain ⟨final, hfinal, -⟩ := looks_atKeyword .final cursor
  obtain ⟨sign, hsign, -⟩ := looks_atSymbol .at cursor
  rw [declarationAhead, EStateM.run_bind, hfinal]
  dsimp only
  rw [EStateM.run_bind, hsign]
  dsimp only
  split
  · exact ⟨true, rfl, trivial⟩
  · exact ⟨looksLikeLocalDecl cursor.rest, rfl, trivial⟩

theorem consumes_readForDeclaration (start : Nat) :
    Consumes depth 2 (readForDeclaration rules start) := by
  intro known held hheld
  refine (passes_readModifiers hrules).first (Nat.le_trans (by decide) hheld) fun _ => ?_
  refine (hrules .type).first hheld fun type => looks_currentStart.skip fun nameStart => ?_
  refine consumes_expectName.behind (by decide) fun name => ?_
  refine (accepts_acceptSymbol .colon).behind nofun ?_ ?_
  · refine (hrules .expr).behind (by decide) fun iterated => ?_
    exact (consumes_expectSymbol .rightParen).behind (by decide) fun _ => .done
  · refine (passes_readDeclarators hrules name nameStart).behind (by decide) fun declarators => ?_
    exact (passes_mkStmt _ start).behind (by decide) fun stmt => .done

omit hrules in
theorem passes_mkExprStmts (exprs : List Expr) : Passes depth 0 (mkExprStmts exprs) := by
  induction exprs with
  | nil => exact fun _ _ _ => .done
  | cons expr rest ih =>
      intro known held hheld
      refine (passes_mkStmt _ _).first hheld fun stmt => ?_
      exact ih.first hheld fun _ => .done

theorem passes_readForHead : Passes depth 4 (readForHead rules) := by
  intro known held hheld
  refine looks_currentStart.skip fun start => looks_declarationAhead.skip fun declares =>
    .ite (fun _ => ?_) fun _ => (looks_atSymbol .semicolon).skip fun empty =>
      .ite (fun _ => .done) fun _ => ?_
  · exact (consumes_readForDeclaration hrules start).passes (Nat.le_trans (by decide) hheld)
  · refine (consumes_separated .comma (by decide) (hrules .expr)).passes.first hheld fun exprs => ?_
    exact (passes_mkExprStmts exprs).first (Nat.zero_le _) fun _ => .done

theorem moves_readFor : Moves depth (readFor rules) := by
  refine Moves.advance_first fun held => (consumes_expectSymbol .leftParen).behind (by decide) fun _ => ?_
  refine (passes_readForHead hrules).behind (by decide) fun head => ?_
  cases head with
  | «over» type name iterated => exact (hrules .stmt).behind (by decide) fun body => .done
  | starts init =>
      refine (consumes_expectSymbol .semicolon).behind (by decide) fun _ => ?_
      refine (looks_atSymbol .semicolon).skip fun empty => ?_
      refine Passes.behind ((hrules .expr).readWhen (!empty)) (by decide) fun cond => ?_
      refine (consumes_expectSymbol .semicolon).behind (by decide) fun _ => ?_
      have hrest (update : List Expr) : Affords depth Anywhere held.gain (fun _ => held.gain) (do
          let _ ← expectSymbol .rightParen
          return StmtKind.forLoop init cond update (← rules _ .stmt)) := by
        refine (consumes_expectSymbol .rightParen).behind (by decide) fun _ => ?_
        exact (hrules .stmt).behind (by decide) fun body => .done
      refine (looks_atSymbol .rightParen).skip fun none => .ite (fun _ => hrest []) fun _ => ?_
      exact (consumes_separated .comma (by decide) (hrules .expr)).behind (by decide) hrest

/-! ### Handlers, cases and local classes -/

theorem consumes_readResource : Consumes depth 4 (readResource rules) := by
  intro known held hheld
  refine passes_freshId.first (Nat.zero_le _) fun id => looks_declarationAhead.skip fun declares =>
    .ite (fun _ => ?_) fun _ => (hrules .expr).first hheld fun init => .done
  refine (passes_readModifiers hrules).first (Nat.le_trans (by decide) hheld) fun _ => ?_
  refine (hrules .type).first (Nat.le_trans (by decide) hheld) fun type => ?_
  refine consumes_expectName.behind (by decide) fun name => ?_
  refine (consumes_expectSymbol .assign).behind (by decide) fun _ => ?_
  exact (hrules .expr).behind (by decide) fun init => .done

theorem passes_readResources : Passes depth 4 (readResources rules) := by
  intro known held hheld
  refine (accepts_acceptSymbol .leftParen).passes.first (Nat.zero_le _) fun found =>
    .ite (fun _ => ?_) fun _ => .done
  refine (passes_enumerated .rightParen .semicolon (consumes_readResource hrules)).first hheld
    fun resources => ?_
  exact (consumes_expectSymbol .rightParen).passes.first (Nat.zero_le _) fun _ => .done

theorem consumes_readCatch : Consumes depth 0 (readCatch rules) := by
  intro known held hheld
  refine (consumes_expectKeyword .catch).first hheld fun span => ?_
  refine (consumes_expectSymbol .leftParen).behind (by decide) fun _ => ?_
  refine (passes_readModifiers hrules).behind (by decide) fun _ => ?_
  refine (consumes_separated .pipe (by decide) (hrules .type)).behind (by decide) fun types => ?_
  refine consumes_expectName.behind (by decide) fun name => ?_
  refine (consumes_expectSymbol .rightParen).behind (by decide) fun _ => ?_
  refine (hrules .block).behind (by decide) fun body => ?_
  exact passes_freshId.behind (by decide) fun id => (looks_spanFrom _).skip fun _ => .done

theorem consumes_readTry : Consumes depth 0 (readTry rules) := by
  intro known held hheld
  refine (consumes_expectKeyword .try).first hheld fun trySpan => ?_
  refine (passes_readResources hrules).behind (by decide) fun resources => ?_
  refine (hrules .block).behind (by decide) fun body => ?_
  refine Passes.behind (passes_collect ?_) (Nat.zero_le 8) fun catches => ?_
  · intro held _
    refine (looks_atKeyword .catch).skip fun found => .ite (fun _ => ?_) fun _ => .pure (.refl _)
    exact (consumes_readCatch hrules).first (Nat.zero_le _) fun clause => .pure (.refl _)
  · refine (accepts_acceptKeyword .finally).passes.behind (by decide) fun found => ?_
    refine ((hrules .block).readWhen found).behind (by decide) fun finallyBody => ?_
    exact .ite (fun _ => (Affords.throw (by nofun)).bind fun _ => .done) fun _ => .done

/-- The statements of a case use the error that the label paid for. -/
theorem affords_readCaseBody {known : List Token → Prop} {held : Allowance} :
    Affords depth known held.gain.spare (fun _ => held.gain) (readCaseBody rules) := by
  refine (accepts_acceptSymbol .arrow).passes.first (Nat.zero_le _) fun found => .ite (fun _ => ?_)
    fun _ => ?_
  · refine (looks_atSymbol .leftBrace).skip fun brace => .ite (fun _ => ?_) fun _ => ?_
    · exact ((hrules .block).passes (Nat.le_add_left _ _)).weaken (fun _ => id) fun _ =>
        Allowance.within_spare _
    · exact (hrules .stmt).passes.first (Nat.le_trans (by decide) (Nat.le_add_left 8 _)) fun stmt =>
        .pure (Allowance.within_spare _)
  · refine (consumes_expectSymbol .colon).passes.first (Nat.zero_le _) fun _ => ?_
    exact affords_readStmtsUntil hrules rfl (held.le_levels_gain (by decide))

theorem consumes_readCase : Consumes depth 0 (readCase rules) := by
  intro known held _
  refine (accepts_acceptKeyword .default).branch_opened rfl ?_ ?_
  · exact (affords_readCaseBody hrules).bind fun body => .done
  · refine ((expects_expectKeyword .case).opened rfl).bind fun _ => ?_
    refine Passes.first (Consumes.withLambdas false true
      (consumes_separated .comma (by decide) (hrules .ternary))).passes
      (Nat.le_trans (by decide) (Nat.le_add_left 8 _)) fun labels => ?_
    exact (affords_readCaseBody hrules).bind fun body => .done

theorem affords_readCase? {held : Allowance} :
    Affords depth Anywhere held held.gainFor (readCase? rules) := by
  refine (looks_atSymbol .rightBrace).skip fun brace => looks_atEnd.skip fun ended =>
    .ite (fun _ => .pure (.refl _)) fun _ => ?_
  exact (consumes_readCase hrules).first (Nat.zero_le _) fun clause => .pure (.refl _)

theorem advances_readCases : Advances depth 0 (collectStep (readCase? rules)) :=
  advances_collectStep fun _ => affords_readCase? hrules

theorem moves_readSwitch : Moves depth (readSwitch rules) := by
  refine Moves.advance_first fun held => (consumes_readCondition hrules).behind (by decide)
    fun selector => ?_
  refine (consumes_expectSymbol .leftBrace).behind (by decide) fun _ => ?_
  refine Passes.behind (passes_collect fun _ => affords_readCase? hrules) (Nat.zero_le 8) fun cases => ?_
  exact (consumes_expectSymbol .rightBrace).behind (by decide) fun _ => .done

theorem consumes_readClassRest (kind : ClassKind) (modifiers : Modifiers) (start : Nat) :
    Consumes depth 0 (readClassRest rules kind modifiers start) := by
  intro known held hheld
  refine passes_freshId.first hheld fun id => consumes_expectName.first hheld fun name => ?_
  refine (passes_readTypeParams hrules).behind (by decide) fun typeParams => ?_
  have hrest (supertypes : Option String × List String) :
      Affords depth Anywhere held.gain (fun _ => held.gain) (do
        let implemented ← if ← acceptKeyword .implements then readTypeList rules else pure []
        let members ← rules _ (.classBody name (kind = .enum))
        return ({
          id, name, kind, modifiers, typeParams, superclass := supertypes.1,
          interfaces := supertypes.2 ++ implemented, members, span := ← spanFrom start } :
          ClassDecl)) := by
    have hbody (implemented : List String) : Affords depth Anywhere held.gain (fun _ => held.gain) (do
        let members ← rules _ (.classBody name (kind = .enum))
        return ({
          id, name, kind, modifiers, typeParams, superclass := supertypes.1,
          interfaces := supertypes.2 ++ implemented, members, span := ← spanFrom start } :
          ClassDecl)) :=
      (hrules (.classBody name (kind = .enum))).behind (show 1 ≤ 8 by decide) fun members =>
        (looks_spanFrom start).skip fun span => .done
    refine (accepts_acceptKeyword .implements).behind nofun ?_ (hbody [])
    exact (consumes_readTypeList hrules).behind (by decide) hbody
  refine (accepts_acceptKeyword .extends).behind nofun ?_ (hrest (none, []))
  refine .ite (fun _ => .ite (fun _ => ?_) fun _ => ?_) fun hnot => absurd rfl hnot
  · exact (consumes_readTypeList hrules).behind (by decide) fun extended => hrest (none, extended)
  · exact (hrules .type).behind (by decide) fun superclass => hrest (some superclass, [])

theorem consumes_readClass (modifiers : Modifiers) (start : Nat) :
    Consumes depth 0 (readClass rules modifiers start) := by
  intro known held hheld
  have hclass (kind : ClassKind) : Affords depth Anywhere held.gain (fun _ => held.gain)
      (readClassRest rules kind modifiers start) :=
    (consumes_readClassRest hrules kind modifiers start).passes (Nat.zero_le _)
  refine looks_currentKind.learn fun kind => ?_
  split
  · exact (moves_advance.at_kind (by nofun)).bind fun _ => hclass .class
  · exact (moves_advance.at_kind (by nofun)).bind fun _ => hclass .interface
  · exact (moves_advance.at_kind (by nofun)).bind fun _ => hclass .enum
  · refine (looks_peek 1).skip fun next => .ite (fun _ => ?_) fun _ => affords_failExpected _
    refine (moves_advance.at_kind (by nofun)).bind fun _ => ?_
    exact passes_advance.behind (by decide) fun _ => hclass .interface
  · exact affords_failExpected _

theorem consumes_readModified (start : Nat) : Consumes depth 2 (readModified rules start) := by
  intro known held hheld
  refine (passes_readModifiers hrules).first (Nat.le_trans (by decide) hheld) fun modifiers =>
    looks_currentKind.skip fun kind => .ite (fun _ => ?_) fun _ => consumes_readLocalVars hrules hheld
  exact (consumes_readClass hrules modifiers start).first (Nat.zero_le _) fun decl => .done

/-! ### Statements -/

theorem consumes_readPlain : Consumes depth 4 (readPlain rules) := by
  intro known held hheld
  refine looks_currentKind.skip fun kind => (looks_peek 1).skip fun next => .ite (fun _ => ?_)
    fun _ => (looks_ahead looksLikeLocalDecl).skip fun declares => .ite (fun _ => ?_) fun _ => ?_
  · refine consumes_expectName.first (Nat.zero_le _) fun label => ?_
    refine passes_advance.behind (by decide) fun _ => ?_
    exact (hrules .stmt).behind (by decide) fun body => .done
  · exact consumes_readLocalVars hrules (Nat.le_trans (by decide) hheld)
  · refine (hrules .expr).first hheld fun expr => ?_
    exact consumes_endStatement.behind (by decide) fun _ => .done

omit hrules in
theorem moves_readJump (kind : Option String → StmtKind) : Moves depth (readJump kind) := by
  refine Moves.advance_first fun held => looks_currentKind.skip fun next => ?_
  refine Passes.behind (consumes_expectName.readWhen next.isIdent) (by decide) fun label => ?_
  exact consumes_endStatement.behind (by decide) fun _ => .done

theorem moves_readReturn : Moves depth (readReturn rules) := by
  refine Moves.advance_first fun held => (looks_atSymbol .semicolon).skip fun empty => ?_
  refine Passes.behind ((hrules .expr).readWhen (!empty)) (by decide) fun value => ?_
  exact consumes_endStatement.behind (by decide) fun _ => .done

theorem moves_readThrow : Moves depth (readThrow rules) := by
  refine Moves.advance_first fun held => (hrules .expr).behind (by decide) fun value => ?_
  exact consumes_endStatement.behind (by decide) fun _ => .done

theorem moves_readAssert : Moves depth (readAssert rules) := by
  refine Moves.advance_first fun held => (hrules .expr).behind (by decide) fun cond => ?_
  refine (accepts_acceptSymbol .colon).passes.behind (by decide) fun found => ?_
  refine ((hrules .expr).readWhen found).behind (by decide) fun message => ?_
  exact consumes_endStatement.behind (by decide) fun _ => .done

theorem moves_readSynchronized : Moves depth (readSynchronized rules) := by
  refine Moves.advance_first fun held => (consumes_readCondition hrules).behind (by decide) fun lock => ?_
  exact (hrules .block).behind (by decide) fun body => .done

/-- A statement begins with a keyword or a sign of its own, with modifiers, or like a plain one. -/
theorem consumes_readStmtKind (start : Nat) : Consumes depth 4 (readStmtKind rules start) := by
  intro known held hheld
  have hmodified {known : List Token → Prop} :
      Affords depth known held (fun _ => held.gain) (readModified rules start) :=
    consumes_readModified hrules start (Nat.le_trans (by decide) hheld)
  refine looks_currentKind.learn fun kind => ?_
  split
  · exact (hrules .block).first (Nat.le_trans (by decide) hheld) fun stmts => .done
  · exact (moves_advance.at_kind (by nofun)).bind fun _ => .done
  · exact hmodified
  · exact (moves_readIf hrules).at_kind (by nofun)
  · exact (moves_readWhile hrules).at_kind (by nofun)
  · exact (moves_readDo hrules).at_kind (by nofun)
  · exact (moves_readFor hrules).at_kind (by nofun)
  · exact (moves_readReturn hrules).at_kind (by nofun)
  · exact (moves_readThrow hrules).at_kind (by nofun)
  · exact (moves_readJump _).at_kind (by nofun)
  · exact (moves_readJump _).at_kind (by nofun)
  · exact consumes_readTry hrules (Nat.zero_le _)
  · exact (moves_readSwitch hrules).at_kind (by nofun)
  · refine (looks_peek 1).skip fun next => .ite (fun _ => ?_) fun _ => consumes_readPlain hrules hheld
    exact (moves_readSynchronized hrules).at_kind (by nofun)
  · exact (moves_readAssert hrules).at_kind (by nofun)
  all_goals first | exact hmodified | exact consumes_readPlain hrules hheld

theorem consumes_readStmt : Consumes depth 4 (readStmt rules) := by
  intro known held hheld
  refine looks_currentStart.skip fun start => ?_
  exact (consumes_readStmtKind hrules start).first hheld fun kind => (passes_mkStmt kind start).last

end Readers
end LockDiscipline.Grammar
