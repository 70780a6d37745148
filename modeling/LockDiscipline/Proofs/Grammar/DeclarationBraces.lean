import LockDiscipline.Proofs.Grammar.StatementBraces
/-!
# Braces in declarations, and where blocks end

The readers of members and of the bodies of classes leave as many braces open as they find, so the rules do,
to whatever depth they are tied. A block is then read up to the brace that closes it, whatever errors are
recovered from in it, as long as its braces only open blocks and bodies of classes. Where they open anything
else, what fails behind them may end the block too early.
-/

namespace LockDiscipline.Grammar

variable {outside : List Token} {depth : Nat} {failed : List Token → Prop}

/-! ### Recovery in a class -/

/-- One token on the way to a member is skipped inside of the braces that were opened on the way. -/
theorem ensures_skipToMemberStep (braces : Nat) :
    Ensures (Inside outside (depth + braces))
      (afterStep (fun braces => Inside outside (depth + braces)) (fun _ => Inside outside depth) braces)
      failed (skipToMemberStep braces) := by
  refine looks_currentKind.ensures fun kind => ?_
  split
  · exact .pure fun rest hrest => absurd hrest.2 hrest.1.kind_ne.1
  · exact (ensures_advance_pass rfl).bind fun _ =>
      .ite (fun hzero => .pure fun rest hrest => hzero ▸ hrest) fun _ => .pure fun _ => id
  · exact ensures_advance_enter.bind fun _ => .pure fun _ => id
  · refine .ite (fun hzero => .pure fun rest hrest => hzero ▸ hrest.1) fun hmany => ?_
    obtain ⟨fewer, rfl⟩ := Nat.exists_eq_succ_of_ne_zero hmany
    refine ensures_advance_close.bind fun _ =>
      .ite (fun hlast => .pure fun rest hrest => ?_) fun _ => .pure fun _ => id
    rwa [Nat.succ.inj hlast] at hrest
  · next hend hsemicolon hleft hright =>
    exact (ensures_advance_pass (isBrace_eq_false hleft hright)).bind fun _ => .pure fun _ => id

theorem ensures_skipToMember :
    Ensures (Inside outside depth) (fun _ => Inside outside depth) failed skipToMember :=
  Ensures.bind (.iterate ensures_skipToMemberStep 0) fun _ => .pure fun _ => id

section Readers

variable {rules : Rules} (hprogress : rules.Consuming none) (hrules : rules.Keeping outside)

/-! ### Members -/

include hrules

theorem level_readParam? : Level outside depth (readParam? rules) := by
  refine looks_currentStart.passing fun start => (level_readModifiers hrules).first fun modifiers =>
    (hrules.level .type rfl).first fun type => (level_acceptSymbol .ellipsis rfl).first fun isVarargs =>
      (level_acceptKeyword .this).first fun receiver => .ite (fun _ => .done) fun _ => ?_
  exact level_expectName.first fun name => level_readDims.first fun dims => level_freshId.first fun id =>
    (looks_spanFrom start).passing fun span => .done

theorem level_readParams : Level outside depth (readParams rules) := by
  refine (level_expectSymbol .leftParen rfl).first fun _ => ?_
  exact (Level.enumerated .rightParen .comma rfl (level_readParam? hrules)).first fun params =>
    (level_expectSymbol .rightParen rfl).first fun _ => .done

/-- What follows the name of a method: the default value of an element is no array. -/
theorem level_readMethodRest (name : String) (modifiers : Modifiers) (typeParams : List String)
    (returnType : Option String) (start : Nat) :
    Level outside depth (readMethodRest rules name modifiers typeParams returnType start) := by
  refine level_freshId.first fun id => (level_readParams hrules).first fun params => ?_
  have hbody (throws : List String) : Level outside depth (do
      let body ← readWhen (!(← acceptSymbol .semicolon)) (rules _ .block)
      return (⟨id, name, modifiers, typeParams, returnType, params, throws, body, ← spanFrom start⟩ :
        MethodDecl)) := by
    refine (level_acceptSymbol .semicolon rfl).first fun found => ?_
    exact ((hrules.level .block rfl).readWhen (!found)).first fun body =>
      (looks_spanFrom start).passing fun span => .done
  have hdefault (throws : List String) : Level outside depth (do
      if ← acceptKeyword .default then
        let _ ← rules _ .elementValue
      let body ← readWhen (!(← acceptSymbol .semicolon)) (rules _ .block)
      return (⟨id, name, modifiers, typeParams, returnType, params, throws, body, ← spanFrom start⟩ :
        MethodDecl)) := by
    refine (accepts_acceptKeyword .default).branching rfl ?_ (Keeps.anywhere (hbody throws))
    exact ((hrules.keeps .elementValue depth).knowing fun rest _ hrest => hrest rfl).bind fun _ =>
      hbody throws
  exact level_readDims.first fun _ => (level_acceptKeyword .throws).first fun found =>
    .ite (fun _ => (level_readTypeList hrules).first hdefault) fun _ => hdefault []

theorem level_readInitializer (isStatic : Bool) (start : Nat) :
    Level outside depth (readInitializer rules isStatic start) :=
  (hrules.level .block rfl).first fun _ => level_mkMember _ start

theorem level_readTypedMember (modifiers : Modifiers) (typeParams : List String) (start : Nat) :
    Level outside depth (readTypedMember rules modifiers typeParams start) := by
  have hrest (type : String) : Level outside depth (do
      let nameStart ← currentStart
      let name ← expectName
      if ← atSymbol .leftParen then
        let method ← readMethodRest rules name modifiers typeParams (some type) start
        mkMember (.method method) start
      else
        let declarators ← readDeclarators rules name nameStart
        endStatement
        mkMember (.field modifiers type declarators) start) := by
    refine looks_currentStart.passing fun nameStart => level_expectName.first fun name =>
      (looks_atSymbol .leftParen).passing fun isMethod => .ite (fun _ => ?_) fun _ => ?_
    · exact (level_readMethodRest hrules name modifiers typeParams (some type) start).first fun method =>
        level_mkMember _ start
    · exact (level_readDeclarators hrules name nameStart).first fun declarators =>
        level_endStatement.first fun _ => level_mkMember _ start
  exact (level_acceptKeyword .void).first fun found =>
    .ite (fun _ => hrest "void") fun _ => (hrules.level .type rfl).first hrest

include hprogress

theorem level_readDeclaredMember (className : String) (start : Nat) :
    Level outside depth (readDeclaredMember rules className start) := by
  refine (level_readModifiers hrules).first fun modifiers => looks_currentKind.passing fun kind =>
    (looks_peek 1).passing fun next => .ite (fun _ => ?_) fun _ => ?_
  · exact (level_readClass hprogress hrules modifiers start).first fun decl => level_mkMember _ start
  · refine (level_readTypeParams hrules).first fun typeParams => looks_currentKind.finding fun kind =>
      (looks_peek 1).passing fun next => .ite (fun hname => ?_) fun _ =>
        Keeps.anywhere (level_readTypedMember hrules modifiers typeParams start)
    have hkind := eq_of_beq (Bool.and_eq_true_iff.mp hname).1
    refine .pass (fun _ hrest => clear_of_kind rfl (hrest.trans hkind)) ?_
    exact (level_readMethodRest hrules className modifiers typeParams none start).first fun method =>
      level_mkMember _ start

theorem level_readMember? (className : String) : Level outside depth (readMember? rules className) := by
  refine looks_currentStart.passing fun start => (level_acceptSymbol .semicolon rfl).first fun stray =>
    .ite (fun _ => .done) fun _ => (looks_atSymbol .leftBrace).passing fun block =>
      .ite (fun _ => (level_readInitializer hrules false start).first fun _ => .done) fun _ => ?_
  refine (looks_atKeyword .static).finding fun static => (looks_peek 1).passing fun next =>
    .ite (fun hstatic => ?_) fun _ => Keeps.anywhere ?_
  · exact .pass (fun _ => clear_of_seen rfl (Bool.and_eq_true_iff.mp hstatic).1)
      ((level_readInitializer hrules true start).first fun _ => .done)
  · exact (level_readDeclaredMember hprogress hrules className start).first fun _ => .done

/-! ### Class bodies -/

theorem ensures_readMembersStep (className : String) (scan : MemberScan) :
    Ensures (Scanned outside depth scan.more)
      (afterStep (Scanned outside depth ·.more) (fun _ => Closing outside depth) scan) failed
      (readMembersStep rules className scan) := by
  refine (looks_atSymbol .rightBrace).ensures fun closing => looks_atEnd.ensures fun ended =>
    .ite (fun hstop => .pure fun rest hrest => ?_) fun hgo => ?_
  · obtain ⟨⟨⟨hinside, hlast⟩, hclosing⟩, hended⟩ := hrest
    simp only [Bool.or_eq_true, Bool.not_eq_true'] at hstop
    rcases hstop with (hmore | rfl) | rfl
    · exact ⟨hinside, hlast hmore⟩
    · exact ⟨hinside, eq_of_beq hclosing⟩
    · exact absurd (eq_of_beq hended) hinside.kind_ne.1
  · have hmore : scan.more ≠ false := fun hmore => hgo (by rw [hmore]; rfl)
    refine Ensures.recover (Ensures.weaken (level_readMember? hprogress hrules className)
      (fun _ hrest => ⟨hrest.1.1.1, trivial⟩) fun _ _ => And.left) (fun member? => ?_) (fun _ => rfl)
        fun error more => .ite (fun _ => ?_) fun _ => ?_
    · cases member? with
      | none => exact .pure fun _ hrest => ⟨hrest, fun hstop => absurd hstop hmore⟩
      | some member => exact .pure fun _ hrest => ⟨hrest, fun hstop => absurd hstop hmore⟩
    · exact ensures_skipToMember.bind fun _ => .pure fun _ hrest => ⟨hrest, fun hstop => absurd hstop hmore⟩
    · exact ensures_skipToClosingBrace.bind fun _ => .pure fun _ hrest => ⟨hrest.1, fun _ => hrest.2⟩

theorem ensures_readMembers (className : String) :
    Ensures (Inside outside depth) (fun _ => Closing outside depth) failed (readMembers rules className) :=
  Ensures.bind (Ensures.weaken (.iterate (ensures_readMembersStep hprogress hrules className) ⟨[], true⟩)
    (fun _ hrest => ⟨hrest, by simp⟩) fun _ _ => id) fun _ => .pure fun _ => id

/-- The body of a class that is no enum is read from its brace up to the one that closes it. -/
theorem keeps_readClassBody (className : String) (isEnum : Bool) :
    Keeps outside depth (fun _ => isEnum = false) (fun _ => Anywhere)
      (readClassBody rules className isEnum) := by
  cases isEnum with
  | true => exact .of_not (consumes_readClassBody hprogress className true).passes fun _ _ => by decide
  | false =>
      refine Keeps.anywhere (level_of_braced ?_)
      refine Ensures.bind ((expects_expectSymbol .leftBrace).ensures (by decide) (fun _ => And.right)
        fun _ _ hrest => hrest.1.enter hrest.2) fun _ => ?_
      refine (ensures_readMembers hprogress hrules className).bind fun members => ?_
      exact Ensures.bind ((expects_expectSymbol .rightBrace).ensures (by decide) (fun _ => And.right)
        fun _ _ hrest => hrest.1.close hrest.2) fun _ => .pure fun _ => id

/-! ### The rules tied together -/

theorem keeps_readNonterminal {α : Type} (nonterminal : Nonterminal α) :
    Keeps outside depth nonterminal.asks (fun _ => Anywhere) (readNonterminal rules nonterminal) := by
  cases nonterminal with
  | expr => exact level_readExpr hrules
  | ternary => exact level_readTernary hrules
  | binary least => exact level_readBinary hrules least
  | unary => exact level_readUnary hprogress hrules
  | type => exact level_readType hrules
  | annotationUse => exact level_readAnnotationUse hrules
  | elementValue => exact keeps_readElementValue hprogress hrules
  | varInit => exact keeps_readVarInit hprogress hrules
  | stmt => exact level_readStmt hprogress hrules
  | block => exact level_readBlock hprogress hrules
  | classBody className isEnum => exact keeps_readClassBody hprogress hrules className isEnum

end Readers

/-- To whatever depth the rules are tied, they leave as many braces open as they find. -/
theorem keeping_rules (outside : List Token) (depth : Nat) : (rules depth).Keeping outside := by
  induction depth with
  | zero => exact ⟨fun _ _ _ _ => .inl rfl, fun _ _ _ => .inl rfl, fun _ _ _ => .inl rfl⟩
  | succ depth ih =>
      have hprogress : (rules depth).Consuming none := consuming_rules_unasked depth
      exact ⟨fun nonterminal _ => keeps_readNonterminal hprogress ih nonterminal,
        fun _ => ensures_readBlock hprogress ih, fun _ => ensures_readStmt hprogress ih⟩

/-! ### Where blocks end -/

/-- Tokens of a block with others behind it: the braces of its body are balanced, and they only open blocks
and bodies of classes. -/
structure IsBlock (opening : Token) (body : List Token) (closing : Token) (tail : List Token) : Prop where
  opens : opening.kind = .symbol .leftBrace
  closes : closing.kind = .symbol .rightBrace
  balanced : openBraces? 0 body = some 0
  blocks : opensBlocks (closing :: tail) body

theorem Accounts.not_spoiled {held left : Allowance} {before after : Cursor}
    (h : Accounts (some depth) held left before after) (hbefore : ¬Spoiled before) : ¬Spoiled after := by
  rintro ⟨error, hmem, hfault⟩
  rcases h.shallow error hmem with hmem | hshallow
  · exact hbefore ⟨error, hmem, hfault⟩
  · exact hshallow rfl hfault

theorem ensures_readBlock_tail {opening closing : Token} {body tail : List Token}
    (hblock : IsBlock opening body closing tail) :
    Ensures (· = opening :: (body ++ closing :: tail)) (fun _ => (· = tail)) failed
      (readBlock (rules depth)) := by
  have hstmts : Ensures (Inside (closing :: tail) 0) (fun _ => Closing (closing :: tail) 0) failed
      (readStmtsUntil (rules depth) (· == .symbol .rightBrace)) :=
    ensures_readStmtsUntil (consuming_rules_unasked depth) (keeping_rules _ depth)
  refine Ensures.bind ((expects_expectSymbol .leftBrace).ensures (by decide) ?_ ?_) fun _ =>
    hstmts.bind fun stmts => Ensures.bind ((expects_expectSymbol .rightBrace).ensures (by decide)
      (fun _ => And.right) ?_) fun _ => .pure fun _ => id
  · rintro rest rfl
    exact hblock.opens
  · rintro token rest heq
    obtain ⟨rfl, rfl⟩ := List.cons.inj heq
    exact ⟨hblock.closes, body, rfl, hblock.balanced, hblock.blocks⟩
  · rintro token rest ⟨hinside, hclosing⟩
    exact (List.cons.inj (hinside.eq_outside hclosing)).2

/-- A block ends at the brace that closes it, whatever errors are recovered from in it. -/
theorem readBlock_ends {opening closing : Token} {body tail : List Token}
    (hblock : IsBlock opening body closing tail) {cursor : Cursor}
    (hrest : cursor.rest = opening :: (body ++ closing :: tail)) (hdepth : depthFor cursor.rest ≤ depth)
    (herrors : ¬Spoiled cursor) :
    ∃ stmts after, (readBlock (rules depth)).run cursor = .ok stmts after ∧ after.rest = tail := by
  have hends : Ensures (· = opening :: (body ++ closing :: tail)) (fun _ => (· = tail)) (fun _ => False)
      (readBlock (rules depth)) :=
    ensures_readBlock_tail hblock
  have hworth : cursor.worth ≤ depth :=
    Nat.le_trans (Nat.mul_le_mul_left 8 (Nat.le_succ _)) hdepth
  have haccounts := @consumes_readBlock _ _ (consuming_rules depth) Anywhere ⟨0, 0⟩ (Nat.le_refl _) cursor
    trivial (suffices_some.mpr hworth)
  have houtcome := hends cursor (.inr hrest)
  cases hrun : (readBlock (rules depth)).run cursor with
  | ok stmts after =>
      rw [hrun] at houtcome haccounts
      exact ⟨stmts, after, rfl, houtcome.resolve_left (Accounts.not_spoiled haccounts herrors)⟩
  | error error after =>
      rw [hrun] at houtcome haccounts
      rcases houtcome with hdeep | hspoiled | hfailed
      · exact absurd hdeep (haccounts.1 rfl)
      · exact absurd hspoiled (haccounts.2.not_spoiled herrors)
      · exact hfailed.elim

/-- A body with a class one member of which is none, and a condition that breaks off at a brace. -/
def brokenBody : List Token :=
  let localClass : List TokenKind := [.keyword .class, .ident "A", .symbol .leftBrace, .keyword .if,
    .symbol .semicolon, .symbol .rightBrace]
  let condition : List TokenKind := [.keyword .if, .symbol .leftBrace, .ident "x", .symbol .rightBrace]
  (localClass ++ condition).map (⟨·, default⟩)

theorem readBlock_ends_brokenBody :
    let opening : Token := ⟨.symbol .leftBrace, default⟩
    let closing : Token := ⟨.symbol .rightBrace, default⟩
    let cursor : Cursor := .start (opening :: (brokenBody ++ [closing, closing]))
    IsBlock opening brokenBody closing [closing] ∧ ∃ stmts after,
      (readBlock (rules (depthFor cursor.rest))).run cursor = .ok stmts after ∧ after.rest = [closing] := by
  have hblock : IsBlock ⟨.symbol .leftBrace, default⟩ brokenBody ⟨.symbol .rightBrace, default⟩
      [⟨.symbol .rightBrace, default⟩] := ⟨rfl, rfl, by decide, by decide⟩
  exact ⟨hblock, readBlock_ends hblock rfl (Nat.le_refl _) fun h => h.elim fun _ herror =>
    List.not_mem_nil herror.1⟩

/-- A class with two methods, the first of which has a body. -/
def twoMethodTokens (body : List Token) : List Token :=
  let first : List TokenKind := [.keyword .class, .ident "A", .symbol .leftBrace, .keyword .void, .ident "f",
    .symbol .leftParen, .symbol .rightParen, .symbol .leftBrace]
  let second : List TokenKind := [.symbol .rightBrace, .keyword .void, .ident "g", .symbol .leftParen,
    .symbol .rightParen, .symbol .leftBrace, .symbol .rightBrace, .symbol .rightBrace, .eof]
  first.map (⟨·, default⟩) ++ body ++ second.map (⟨·, default⟩)

/-- A `switch` statement with something that is no case in it. -/
def brokenSwitch : List Token :=
  let kinds : List TokenKind := [.keyword .switch, .symbol .leftParen, .int 1, .symbol .rightParen,
    .symbol .leftBrace, .ident "y", .symbol .rightBrace]
  kinds.map (⟨·, default⟩)

/-- Where a brace opens the cases of a `switch` statement, an error behind it ends the block around the
statement too early, and the class loses the method behind that block. -/
theorem exists_balanced_member_lost :
    openBraces? 0 brokenSwitch = some 0 ∧
      (ParsedUnit.ofTokens (twoMethodTokens brokenSwitch)).errors.length < errorLimit ∧
      (ParsedUnit.ofTokens (twoMethodTokens [])).unit.types.map (·.members.length) = [2] ∧
      (ParsedUnit.ofTokens (twoMethodTokens brokenSwitch)).unit.types.map (·.members.length) = [1] := by
  decide +kernel

end LockDiscipline.Grammar
