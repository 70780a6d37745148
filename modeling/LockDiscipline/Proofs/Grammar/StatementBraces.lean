import LockDiscipline.Proofs.Grammar.ExpressionBraces
/-!
# Braces in statements

Recovery in a block ends inside of as many braces as it began, and once no more errors are kept it ends
before the brace that closes the block. It counts braces from where a statement failed, and there as many
are open as in front of the statement. So a block is read from its brace up to the one that closes it, and
the readers of statements leave as many braces open as they find. A `switch` statement is not among them,
since its cases fail behind its brace.
-/

namespace LockDiscipline.Grammar

variable {α : Type} {outside : List Token} {depth : Nat} {failed : List Token → Prop} {rules : Rules}

/-! ### Skipping tokens -/

theorem ensures_advance_pass {kind : TokenKind} (hkind : isBrace kind = false) :
    Ensures (fun rest => Inside outside depth rest ∧ headKind rest = kind) (fun _ => Inside outside depth)
      failed advance :=
  .advance (fun _ hrest => hrest.1.kind_ne.1) fun _ _ hrest => hrest.1.pass (clear_of_kind hkind hrest.2)

theorem ensures_advance_enter :
    Ensures (Opening outside depth) (fun _ => Inside outside (depth + 1)) failed advance :=
  .advance (fun _ hrest => hrest.1.kind_ne.1) fun _ _ hrest => hrest.1.enter hrest.2

theorem ensures_advance_close :
    Ensures (Closing outside (depth + 1)) (fun _ => Inside outside depth) failed advance :=
  .advance (fun _ hrest => hrest.1.kind_ne.1) fun _ _ hrest => hrest.1.close hrest.2

/-- One token on the way to a statement is skipped inside of the braces that were opened on the way. -/
theorem ensures_skipToStatementStep (braces : Nat) :
    Ensures (Inside outside (depth + braces))
      (afterStep (fun braces => Inside outside (depth + braces)) (fun _ => Inside outside depth) braces)
      failed (skipToStatementStep braces) := by
  refine looks_currentKind.ensures fun kind => ?_
  split
  · exact .pure fun rest hrest => absurd hrest.2 hrest.1.kind_ne.1
  · refine .ite (fun hzero => .pure fun rest hrest => hzero ▸ hrest.1) fun hmany => ?_
    obtain ⟨fewer, rfl⟩ := Nat.exists_eq_succ_of_ne_zero hmany
    exact ensures_advance_close.bind fun _ => .pure fun _ => id
  · exact ensures_advance_enter.bind fun _ => .pure fun _ => id
  · exact (ensures_advance_pass rfl).bind fun _ =>
      .ite (fun hzero => .pure fun rest hrest => hzero ▸ hrest) fun _ => .pure fun _ => id
  · refine .ite (fun hstop => .pure fun rest hrest => ?_) fun _ =>
      (ensures_advance_pass rfl).bind fun _ => .pure fun _ => id
    rw [Bool.and_eq_true, decide_eq_true_eq] at hstop
    exact hstop.1 ▸ hrest.1
  · next hright hleft _ _ =>
    exact (ensures_advance_pass (isBrace_eq_false hleft hright)).bind fun _ => .pure fun _ => id

theorem ensures_skipToStatement :
    Ensures (Inside outside depth) (fun _ => Inside outside depth) failed skipToStatement :=
  Ensures.bind (.iterate ensures_skipToStatementStep 0) fun _ => .pure fun _ => id

/-- Recovery skips a token where a statement failed at once, so it has to be known that this is no brace
which opens. -/
theorem ensures_recoverInBlock (before : Nat) :
    Ensures (fun rest => Inside outside depth rest ∧
        (rest.length = before → headKind rest ≠ .symbol .leftBrace))
      (fun _ => Inside outside depth) failed (recoverInBlock before) := by
  refine looks_get.ensures fun cursor => (looks_atSymbol .rightBrace).ensures fun closing =>
    .ite (fun hstuck => ?_) fun _ => ensures_skipToStatement.weaken (fun _ hrest => hrest.1.1.1) fun _ _ => id
  rw [Bool.and_eq_true, decide_eq_true_eq, Bool.not_eq_true'] at hstuck
  obtain ⟨hlength, rfl⟩ := hstuck
  refine Ensures.bind (.advance (fun _ hrest => hrest.1.1.1.kind_ne.1) fun token later hrest => ?_)
    fun _ => ensures_skipToStatement
  obtain ⟨⟨⟨hinside, hleft⟩, hcursor⟩, hright⟩ := hrest
  exact hinside.pass (isBrace_eq_false (hleft (hcursor ▸ hlength)) (ne_of_beq_false hright))

/-- One token on the way to the brace that closes a block is skipped inside of the braces that were opened on
the way, the one of the block being the first. -/
theorem ensures_skipToClosingBraceStep (braces : Nat) :
    Ensures (fun rest => ∃ more, braces = more + 1 ∧ Inside outside (depth + more) rest)
      (afterStep (fun braces rest => ∃ more, braces = more + 1 ∧ Inside outside (depth + more) rest)
        (fun _ => Closing outside depth) braces)
      failed (skipToClosingBraceStep braces) := by
  have hend (kind : TokenKind) (rest : List Token)
      (hrest : (∃ more, braces = more + 1 ∧ Inside outside (depth + more) rest) ∧ headKind rest = kind) :
      headKind rest ≠ .eof := by
    obtain ⟨⟨more, -, hinside⟩, -⟩ := hrest
    exact hinside.kind_ne.1
  refine looks_currentKind.ensures fun kind => ?_
  split
  · exact .pure fun rest hrest => absurd hrest.2 (hend _ rest hrest)
  · refine .ite (fun hlast => .pure ?_) fun hmany => Ensures.bind (.advance (hend _) ?_) fun _ =>
      .pure fun _ => id
    · rintro rest ⟨⟨more, rfl, hinside⟩, hkind⟩
      obtain rfl : more = 0 := by omega
      exact ⟨hinside, hkind⟩
    · rintro token later ⟨⟨more, rfl, hinside⟩, hkind⟩
      obtain ⟨fewer, rfl⟩ : ∃ fewer, more = fewer + 1 := ⟨more - 1, by omega⟩
      exact ⟨fewer, rfl, hinside.close hkind⟩
  · refine Ensures.bind (.advance (hend _) ?_) fun _ => .pure fun _ => id
    rintro token later ⟨⟨more, rfl, hinside⟩, hkind⟩
    exact ⟨more + 1, rfl, hinside.enter hkind⟩
  · next hright hleft =>
    refine Ensures.bind (.advance (hend _) ?_) fun _ => .pure fun _ => id
    rintro token later ⟨⟨more, rfl, hinside⟩, hkind⟩
    exact ⟨more, rfl, hinside.pass (clear_of_kind (isBrace_eq_false hleft hright) hkind)⟩

theorem ensures_skipToClosingBrace :
    Ensures (Inside outside depth) (fun _ => Closing outside depth) failed skipToClosingBrace :=
  Ensures.bind (Ensures.weaken (.iterate ensures_skipToClosingBraceStep 1) (fun _ hrest => ⟨0, rfl, hrest⟩)
    fun _ _ => id) fun _ => .pure fun _ => id

/-- What is known while the parts of a block or of the body of a class are read: behind the last error that
may be kept, the brace that closes it lies ahead. -/
abbrev Scanned (outside : List Token) (depth : Nat) (more : Bool) (rest : List Token) : Prop :=
  Inside outside depth rest ∧ (more = false → headKind rest = .symbol .rightBrace)

/-- What expects a brace fails before it has read anything else, or it stands at the brace. -/
theorem level_of_braced {next : Span → Reader α}
    (h : Ensures (Opening outside depth) (fun _ => Inside outside depth) (Inside outside depth)
      (expectSymbol .leftBrace >>= next)) :
    Level outside depth (expectSymbol .leftBrace >>= next) := by
  intro cursor hcursor
  by_cases hhead : headKind cursor.rest = .symbol .leftBrace
  · exact h.weaken (fun _ => id) (fun _ _ hrest => ⟨hrest, trivial⟩) cursor
      (hcursor.imp_right fun hrest => ⟨hrest.1, hhead⟩)
  · obtain ⟨error, -, hrun⟩ := (expects_expectSymbol .leftBrace cursor).2 hhead
    rw [EStateM.run_bind, hrun]
    exact .inr (hcursor.imp_right And.left)

section Readers

variable (hprogress : rules.Consuming none) (hrules : rules.Keeping outside)

/-! ### Blocks -/

include hprogress hrules

/-- A statement that failed at once is no block. -/
theorem ensures_stmt (before : Nat) :
    Ensures (fun rest => Inside outside depth rest ∧ rest.length = before) (fun _ => Inside outside depth)
      (fun rest => Inside outside depth rest ∧ (rest.length = before → headKind rest ≠ .symbol .leftBrace))
      (rules _ .stmt) := by
  intro cursor hcursor
  by_cases hhead : headKind cursor.rest = .symbol .leftBrace
  · exact hrules.stmt depth cursor (hcursor.imp_right fun hrest => ⟨hrest.1, hhead⟩)
  · have houtcome := hrules.keeps .stmt depth cursor (hcursor.imp_right fun hrest => ⟨hrest.1, trivial⟩)
    have hmoved := @hprogress _ .stmt Anywhere ⟨5, 0⟩ (Nat.le_refl _) cursor trivial (suffices_none _)
    cases hrun : (rules _ .stmt).run cursor with
    | ok stmt after =>
        rw [hrun] at houtcome
        exact Or.imp_right And.left houtcome
    | error error after =>
        rw [hrun] at houtcome hmoved
        obtain ⟨-, hmoved⟩ := hmoved
        refine Or.imp_right (fun hafter => ?_) houtcome
        rcases hafter with hspoiled | hinside
        · exact .inl hspoiled
        rcases hcursor with hspoiled | ⟨-, hlength⟩
        · exact .inl (hspoiled.of_prefix hmoved.forward.errors)
        · refine .inr ⟨hinside, fun hafter => ?_⟩
          rwa [hmoved.forward.rest_eq (Nat.le_of_eq (hlength.trans hafter.symm))]

theorem ensures_readStmtsStep (scan : StmtScan) :
    Ensures (Scanned outside depth scan.more)
      (afterStep (Scanned outside depth ·.more) (fun _ => Closing outside depth) scan) failed
      (readStmtsStep rules (· == .symbol .rightBrace) scan) := by
  refine looks_currentKind.ensures fun kind => .ite (fun hstop => .pure fun rest hrest => ?_) fun hgo => ?_
  · obtain ⟨⟨hinside, hlast⟩, hkind⟩ := hrest
    simp only [Bool.or_eq_true, Bool.not_eq_true', beq_iff_eq] at hstop
    rcases hstop with (hmore | rfl) | rfl
    · exact ⟨hinside, hlast hmore⟩
    · exact ⟨hinside, hkind⟩
    · exact absurd hkind hinside.kind_ne.1
  · have hmore : scan.more ≠ false := fun hmore => hgo (by rw [hmore]; rfl)
    refine looks_get.ensures fun cursor => Ensures.recover (Ensures.weaken
      (ensures_stmt hprogress hrules cursor.rest.length) (fun _ hrest => ⟨hrest.1.1.1, hrest.2 ▸ rfl⟩)
        fun _ _ => id) (fun stmt => .pure fun _ hrest => ⟨hrest, fun hstop => absurd hstop hmore⟩)
          (fun _ => rfl) fun error more => .ite (fun _ => ?_) fun _ => ?_
    · exact (ensures_recoverInBlock _).bind fun _ =>
        .pure fun _ hrest => ⟨hrest, fun hstop => absurd hstop hmore⟩
    · exact Ensures.bind (ensures_skipToClosingBrace.weaken (fun _ => And.left) fun _ _ => id) fun _ =>
        .pure fun _ hrest => ⟨hrest.1, fun _ => hrest.2⟩

theorem ensures_readStmtsUntil :
    Ensures (Inside outside depth) (fun _ => Closing outside depth) failed
      (readStmtsUntil rules (· == .symbol .rightBrace)) :=
  Ensures.bind (Ensures.weaken (.iterate (ensures_readStmtsStep hprogress hrules) ⟨[], true⟩)
    (fun _ hrest => ⟨hrest, by simp⟩) fun _ _ => id) fun _ => .pure fun _ => id

/-- A block inside of braces is read from its brace up to the one that closes it. -/
theorem ensures_readBlock :
    Ensures (Opening outside depth) (fun _ => Inside outside depth) failed (readBlock rules) := by
  refine Ensures.bind ((expects_expectSymbol .leftBrace).ensures (by decide) (fun _ => And.right)
    fun _ _ hrest => hrest.1.enter hrest.2) fun _ => ?_
  refine (ensures_readStmtsUntil hprogress hrules).bind fun stmts => ?_
  exact Ensures.bind ((expects_expectSymbol .rightBrace).ensures (by decide) (fun _ => And.right)
    fun _ _ hrest => hrest.1.close hrest.2) fun _ => .pure fun _ => id

theorem level_readBlock : Level outside depth (readBlock rules) :=
  level_of_braced (ensures_readBlock hprogress hrules)

/-! ### Declarations of variables -/

omit hprogress

theorem level_readDeclaratorRest (name : String) (start : Nat) :
    Level outside depth (readDeclaratorRest rules name start) := by
  have hrest (init : Option Expr) : Level outside depth (do
      return (⟨← freshId, name, init, ← spanFrom start⟩ : Declarator)) :=
    level_freshId.first fun id => (looks_spanFrom start).passing fun span => .done
  refine level_readDims.first fun _ => (accepts_acceptSymbol .assign).branching rfl ?_
    (Keeps.bind .done fun init => hrest init)
  refine Keeps.bind (Keeps.map ?_) hrest
  exact (hrules.keeps .varInit depth).knowing fun rest _ hrest => hrest rfl

theorem level_readDeclarator : Level outside depth (readDeclarator rules) :=
  looks_currentStart.passing fun start => level_expectName.first fun name =>
    level_readDeclaratorRest hrules name start

theorem level_readDeclarators (first : String) (start : Nat) :
    Level outside depth (readDeclarators rules first start) := by
  refine (level_readDeclaratorRest hrules first start).first fun head => Level.first (.collect ?_)
    fun others => .done
  exact (level_acceptSymbol .comma rfl).first fun found =>
    .ite (fun _ => (level_readDeclarator hrules).first fun _ => .done) fun _ => .done

theorem level_readCondition : Level outside depth (readCondition rules) :=
  (level_expectSymbol .leftParen rfl).first fun _ => (hrules.level .expr rfl).first fun _ =>
    (level_expectSymbol .rightParen rfl).first fun _ => .done

omit hrules in
theorem level_endStatement : Level outside depth endStatement :=
  (level_expectSymbol .semicolon rfl).first fun _ => .done

theorem level_readLocalVars : Level outside depth (readLocalVars rules) :=
  (hrules.level .type rfl).first fun _ => (Level.separated .comma rfl (level_readDeclarator hrules)).first
    fun _ => level_endStatement.first fun _ => .done

/-! ### Loops and branches -/

/-- A statement that begins with a keyword is read behind it. -/
theorem keeps_readIf : Keeps outside depth Clear (fun _ => Anywhere) (readIf rules) :=
  .pass (fun _ => id) ((level_readCondition hrules).first fun _ => (hrules.level .stmt rfl).first
    fun _ => (level_acceptKeyword .else).first fun found =>
      ((hrules.level .stmt rfl).readWhen found).first fun _ => .done)

theorem keeps_readWhile : Keeps outside depth Clear (fun _ => Anywhere) (readWhile rules) :=
  .pass (fun _ => id) ((level_readCondition hrules).first fun _ =>
    (hrules.level .stmt rfl).first fun _ => .done)

theorem keeps_readDo : Keeps outside depth Clear (fun _ => Anywhere) (readDo rules) :=
  .pass (fun _ => id) ((hrules.level .stmt rfl).first fun _ => (level_expectKeyword .while).first
    fun _ => (level_readCondition hrules).first fun _ => level_endStatement.first fun _ => .done)

theorem level_readForDeclaration (start : Nat) : Level outside depth (readForDeclaration rules start) := by
  refine (level_readModifiers hrules).first fun _ => (hrules.level .type rfl).first fun type =>
    looks_currentStart.passing fun nameStart => level_expectName.first fun name =>
      (level_acceptSymbol .colon rfl).first fun found => .ite (fun _ => ?_) fun _ => ?_
  · exact (hrules.level .expr rfl).first fun iterated =>
      (level_expectSymbol .rightParen rfl).first fun _ => .done
  · exact (level_readDeclarators hrules name nameStart).first fun declarators =>
      (level_mkStmt _ start).first fun stmt => .done

omit hrules in
theorem level_mkExprStmts (exprs : List Expr) : Level outside depth (mkExprStmts exprs) := by
  induction exprs with
  | nil => exact .done
  | cons expr rest ih => exact (level_mkStmt _ _).first fun stmt => Level.first ih fun stmts => .done

theorem level_readForHead : Level outside depth (readForHead rules) := by
  refine looks_currentStart.passing fun start => looks_declarationAhead.passing fun declares =>
    .ite (fun _ => level_readForDeclaration hrules start) fun _ =>
      (looks_atSymbol .semicolon).passing fun empty => .ite (fun _ => .done) fun _ => ?_
  exact (Level.separated .comma rfl (hrules.level .expr rfl)).first fun exprs =>
    (level_mkExprStmts exprs).first fun stmts => .done

theorem keeps_readFor : Keeps outside depth Clear (fun _ => Anywhere) (readFor rules) := by
  refine .pass (fun _ => id) ((level_expectSymbol .leftParen rfl).first fun _ =>
    (level_readForHead hrules).first fun head => ?_)
  cases head with
  | «over» type name iterated => exact (hrules.level .stmt rfl).first fun body => .done
  | starts init =>
      have hrest (cond : Option Expr) (update : List Expr) : Level outside depth (do
          let _ ← expectSymbol .rightParen
          return StmtKind.forLoop init cond update (← rules _ .stmt)) :=
        (level_expectSymbol .rightParen rfl).first fun _ => (hrules.level .stmt rfl).first fun body => .done
      refine (level_expectSymbol .semicolon rfl).first fun _ => (looks_atSymbol .semicolon).passing
        fun empty => ((hrules.level .expr rfl).readWhen (!empty)).first fun cond =>
          (level_expectSymbol .semicolon rfl).first fun _ => (looks_atSymbol .rightParen).passing
            fun closing => .ite (fun _ => hrest cond []) fun _ => ?_
      exact (Level.separated .comma rfl (hrules.level .expr rfl)).first (hrest cond)

/-! ### Handlers -/

theorem level_readResource : Level outside depth (readResource rules) := by
  refine level_freshId.first fun id => looks_declarationAhead.passing fun declares =>
    .ite (fun _ => ?_) fun _ => (hrules.level .expr rfl).first fun init => .done
  exact (level_readModifiers hrules).first fun _ => (hrules.level .type rfl).first fun type =>
    level_expectName.first fun name => (level_expectSymbol .assign rfl).first fun _ =>
      (hrules.level .expr rfl).first fun init => .done

theorem level_readResources : Level outside depth (readResources rules) := by
  refine (level_acceptSymbol .leftParen rfl).first fun found => .ite (fun _ => ?_) fun _ => .done
  exact (Level.enumerated .rightParen .semicolon rfl (level_readResource hrules)).first fun resources =>
    (level_expectSymbol .rightParen rfl).first fun _ => .done

theorem level_readCatch : Level outside depth (readCatch rules) :=
  (level_expectKeyword .catch).first fun _ => (level_expectSymbol .leftParen rfl).first fun _ =>
    (level_readModifiers hrules).first fun _ =>
      (Level.separated .pipe rfl (hrules.level .type rfl)).first fun _ => level_expectName.first
        fun _ => (level_expectSymbol .rightParen rfl).first fun _ => (hrules.level .block rfl).first
          fun _ => level_freshId.first fun _ => (looks_spanFrom _).passing fun _ => .done

theorem level_readTry : Level outside depth (readTry rules) := by
  refine (level_expectKeyword .try).first fun span => (level_readResources hrules).first fun resources =>
    (hrules.level .block rfl).first fun body => Level.first (.collect ?_) fun catches =>
      (level_acceptKeyword .finally).first fun found =>
        ((hrules.level .block rfl).readWhen found).first fun finallyBody => .ite (fun _ => ?_) fun _ => .done
  · exact (looks_atKeyword .catch).passing fun found =>
      .ite (fun _ => (level_readCatch hrules).first fun _ => .done) fun _ => .done
  · exact Keeps.throw _

/-! ### Local classes -/

/-- The body of a class opens its brace before members, unless the class is an enum. -/
theorem level_readClassRest {kind : ClassKind} (hkind : kind ≠ .enum) (modifiers : Modifiers) (start : Nat) :
    Level outside depth (readClassRest rules kind modifiers start) := by
  refine level_freshId.first fun id => level_expectName.first fun name =>
    (level_readTypeParams hrules).first fun typeParams => ?_
  have hrest (supertypes : Option String × List String) : Level outside depth (do
      let implemented ← if ← acceptKeyword .implements then readTypeList rules else pure []
      let members ← rules _ (.classBody name (kind = .enum))
      return ({
        id, name, kind, modifiers, typeParams, superclass := supertypes.1,
        interfaces := supertypes.2 ++ implemented, members, span := ← spanFrom start } :
        ClassDecl)) := by
    have hbody (implemented : List String) : Level outside depth (do
        let members ← rules _ (.classBody name (kind = .enum))
        return ({
          id, name, kind, modifiers, typeParams, superclass := supertypes.1,
          interfaces := supertypes.2 ++ implemented, members, span := ← spanFrom start } :
          ClassDecl)) := by
      refine Keeps.bind ((hrules.keeps (.classBody name (kind = .enum)) depth).knowing fun _ _ _ => ?_)
        fun members => (looks_spanFrom start).passing fun span => .done
      exact decide_eq_false hkind
    exact (level_acceptKeyword .implements).first fun found =>
      .ite (fun _ => (level_readTypeList hrules).first hbody) fun _ => hbody []
  refine (level_acceptKeyword .extends).first fun found => .ite (fun _ => .ite (fun _ => ?_) fun _ => ?_)
    fun _ => hrest (none, [])
  · exact (level_readTypeList hrules).first fun extended => hrest (none, extended)
  · exact (hrules.level .type rfl).first fun superclass => hrest (some superclass, [])

include hprogress in
theorem level_readClass (modifiers : Modifiers) (start : Nat) :
    Level outside depth (readClass rules modifiers start) := by
  refine looks_currentKind.finding fun kind => ?_
  split
  · exact .pass (fun _ => clear_of_kind rfl) (level_readClassRest hrules (by decide) modifiers start)
  · exact .pass (fun _ => clear_of_kind rfl) (level_readClassRest hrules (by decide) modifiers start)
  · have henum : Passes none 0 (do
        advance
        readClassRest rules .enum modifiers start) := fun _ _ hheld => passes_advance.first hheld fun _ =>
      (consumes_readClassRest hprogress .enum modifiers start).passes hheld
    exact .of_not henum fun rest hrest => hrest.kind_ne.2.2
  · refine (looks_peek 1).seeing fun next => .ite (fun hnext => ?_) fun _ => keeps_failExpected _
    refine (Keeps.advance fun _ hrest => clear_of_kind rfl hrest.1).bind fun _ =>
      .pass ?_ (level_readClassRest hrules (by decide) modifiers start)
    rintro rest ⟨token, ⟨-, hsecond⟩, -⟩
    exact clear_of_kind rfl (hsecond.trans (eq_of_beq hnext))
  · exact keeps_failExpected _

include hprogress in
theorem level_readModified (start : Nat) : Level outside depth (readModified rules start) := by
  refine (level_readModifiers hrules).first fun modifiers => looks_currentKind.passing fun kind =>
    .ite (fun _ => ?_) fun _ => level_readLocalVars hrules
  exact (level_readClass hprogress hrules modifiers start).first fun decl => .done

/-! ### Statements -/

omit hrules in
include hprogress in
theorem passes_readSwitch : Passes none 0 (readSwitch rules) := by
  intro known held hheld
  refine passes_advance.first hheld fun _ => (consumes_readCondition hprogress).first hheld fun selector => ?_
  refine (consumes_expectSymbol .leftBrace).behind (by decide) fun _ => ?_
  refine Passes.behind (passes_collect fun _ => affords_readCase? hprogress) (Nat.zero_le 8) fun cases => ?_
  exact (consumes_expectSymbol .rightBrace).behind (by decide) fun _ => .pure (Allowance.within_gain _)

theorem level_readPlain : Level outside depth (readPlain rules) := by
  refine looks_currentKind.passing fun kind => (looks_peek 1).seeing fun next =>
    .ite (fun hlabel => ?_) fun _ => ?_
  · refine keeps_expectName.bind fun label => .pass ?_ ((hrules.level .stmt rfl).first fun body => .done)
    rintro rest ⟨token, -, hsecond⟩
    exact clear_of_kind rfl (hsecond.trans (eq_of_beq (Bool.and_eq_true_iff.mp hlabel).2))
  · refine (looks_ahead looksLikeLocalDecl).passing fun declares =>
      .ite (fun _ => Keeps.anywhere (level_readLocalVars hrules)) fun _ => ?_
    exact (hrules.level .expr rfl).first fun expr => level_endStatement.first fun _ => .done

omit hrules in
theorem keeps_readJump (kind : Option String → StmtKind) :
    Keeps outside depth Clear (fun _ => Anywhere) (readJump kind) :=
  .pass (fun _ => id) (looks_currentKind.passing fun next => (level_expectName.readWhen next.isIdent).first
    fun _ => level_endStatement.first fun _ => .done)

theorem keeps_readReturn : Keeps outside depth Clear (fun _ => Anywhere) (readReturn rules) :=
  .pass (fun _ => id) ((looks_atSymbol .semicolon).passing fun empty =>
    ((hrules.level .expr rfl).readWhen (!empty)).first fun _ => level_endStatement.first fun _ => .done)

theorem keeps_readThrow : Keeps outside depth Clear (fun _ => Anywhere) (readThrow rules) :=
  .pass (fun _ => id) ((hrules.level .expr rfl).first fun _ => level_endStatement.first fun _ => .done)

theorem keeps_readAssert : Keeps outside depth Clear (fun _ => Anywhere) (readAssert rules) :=
  .pass (fun _ => id) ((hrules.level .expr rfl).first fun _ => (level_acceptSymbol .colon rfl).first
    fun found => ((hrules.level .expr rfl).readWhen found).first fun _ => level_endStatement.first
      fun _ => .done)

theorem keeps_readSynchronized : Keeps outside depth Clear (fun _ => Anywhere) (readSynchronized rules) :=
  .pass (fun _ => id) ((level_readCondition hrules).first fun _ => (hrules.level .block rfl).first
    fun _ => .done)

include hprogress

/-- A `switch` statement does not begin where braces only open blocks. -/
theorem level_readStmtKind (start : Nat) : Level outside depth (readStmtKind rules start) := by
  have hmodified {known : List Token → Prop} :
      Keeps outside depth known (fun _ => Anywhere) (readModified rules start) :=
    Keeps.anywhere (level_readModified hprogress hrules start)
  have hplain {known : List Token → Prop} : Keeps outside depth known (fun _ => Anywhere) (readPlain rules) :=
    Keeps.anywhere (level_readPlain hrules)
  refine looks_currentKind.finding fun kind => ?_
  split
  · exact (hrules.level .block rfl).first fun stmts => .done
  · exact .pass (fun _ => clear_of_kind rfl) .done
  · exact hmodified
  · exact (keeps_readIf hrules).knowing fun _ _ => clear_of_kind rfl
  · exact (keeps_readWhile hrules).knowing fun _ _ => clear_of_kind rfl
  · exact (keeps_readDo hrules).knowing fun _ _ => clear_of_kind rfl
  · exact (keeps_readFor hrules).knowing fun _ _ => clear_of_kind rfl
  · exact (keeps_readReturn hrules).knowing fun _ _ => clear_of_kind rfl
  · exact (keeps_readThrow hrules).knowing fun _ _ => clear_of_kind rfl
  · exact (keeps_readJump _).knowing fun _ _ => clear_of_kind rfl
  · exact (keeps_readJump _).knowing fun _ _ => clear_of_kind rfl
  · exact Keeps.anywhere (level_readTry hrules)
  · exact .of_not (passes_readSwitch hprogress) fun rest hrest => hrest.kind_ne.2.1
  · refine (looks_peek 1).passing fun next => .ite (fun _ => ?_) fun _ => hplain
    exact (keeps_readSynchronized hrules).knowing fun _ _ => clear_of_kind rfl
  · exact (keeps_readAssert hrules).knowing fun _ _ => clear_of_kind rfl
  all_goals first | exact hmodified | exact hplain

theorem level_readStmt : Level outside depth (readStmt rules) :=
  looks_currentStart.passing fun start => (level_readStmtKind hprogress hrules start).first fun kind =>
    level_mkStmt kind start

theorem ensures_readStmtKind (start : Nat) :
    Ensures (Opening outside depth) (fun _ => Inside outside depth) failed (readStmtKind rules start) :=
  looks_currentKind.ensures_at (fun _ _ hrest hkind => hkind.symm.trans hrest.2)
    (consumes_readStmtKind hprogress start).passes ((hrules.block depth).bind fun _ => .pure fun _ => id)

/-- A statement that is a block does not fail behind its brace. -/
theorem ensures_readStmt :
    Ensures (Opening outside depth) (fun _ => Inside outside depth) failed (readStmt rules) := by
  refine looks_currentStart.ensures fun start => Ensures.bind (Ensures.weaken
    (ensures_readStmtKind hprogress hrules start) (fun _ => And.left) fun _ _ => id) fun kind => ?_
  exact Ensures.weaken (.of_failsOnlyDeep (level_mkStmt kind start) (.of_ok fun _ => ⟨_, _, rfl⟩))
    (fun _ hrest => ⟨hrest, trivial⟩) fun _ _ => And.left

end Readers

end LockDiscipline.Grammar
