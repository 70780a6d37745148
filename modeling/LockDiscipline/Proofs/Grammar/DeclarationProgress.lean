import LockDiscipline.Proofs.Grammar.StatementProgress
/-!
# Progress in declarations and compilation units

With class bodies the recursion of the rules closes: tied together to any depth, the rules consume tokens as
long as these are few enough for the depth. A compilation unit is read without failing: every error of a
declaration is kept, and recovery could fail only by a bound that it does not meet. The imports and the classes
share one error beyond the limit. An error in the package declaration is the first one, so it needs none.
-/

namespace LockDiscipline.Grammar

variable {depth : Option Nat}

/-! ### Recovery in a class body -/

theorem advances_skipToMemberStep : Advances depth 0 skipToMemberStep := by
  intro braces held _
  refine looks_currentKind.learn fun kind => ?_
  split
  · exact .pure (.refl _)
  · refine (moves_advance.at_kind (by nofun)).bind fun _ => ?_
    exact .ite (fun _ => .pure (Allowance.within_gain _)) fun _ => .pure (.refl _)
  · exact (moves_advance.at_kind (by nofun)).bind fun _ => .pure (.refl _)
  · refine .ite (fun _ => .pure (.refl _)) fun _ => ?_
    refine (moves_advance.at_kind (by nofun)).bind fun _ => ?_
    exact .ite (fun _ => .pure (Allowance.within_gain _)) fun _ => .pure (.refl _)
  · next hend _ _ _ => exact (moves_advance.at_kind hend).bind fun _ => .pure (.refl _)

theorem passes_skipToMember : Passes depth 0 skipToMember :=
  fun _ _ hheld => (advances_skipToMemberStep.loop 0).first hheld fun _ => .done

/-- Where a member failed that consumed nothing, recovery consumes the token in front. -/
theorem affords_skipToMember {held : Allowance} :
    Affords depth (fun rest => headKind rest ≠ .symbol .rightBrace ∧ headKind rest ≠ .eof) held
      (fun _ => held.gain) skipToMember := by
  refine Affords.bind (advances_skipToMemberStep.loop_of_first (Nat.zero_le _) ?_) fun _ => .done
  have hadvance {kind : TokenKind} : Affords depth (fun rest => (headKind rest ≠ .symbol .rightBrace ∧
      headKind rest ≠ .eof) ∧ headKind rest = kind) held (fun _ => held.gain) advance :=
    moves_advance.given fun _ hrest => hrest.1.2
  refine looks_currentKind.note fun kind => ?_
  split
  · exact .absurd fun _ hrest => hrest.1.2 hrest.2
  · exact hadvance.bind fun _ => .ite (fun _ => .done) fun _ => .done
  · exact hadvance.bind fun _ => .done
  · exact .absurd fun _ hrest => hrest.1.1 hrest.2
  · exact hadvance.bind fun _ => .done

section Readers

variable {rules : Rules} (hrules : rules.Consuming depth)

include hrules

/-! ### Members -/

theorem affords_readEnumConstant? (enumName : String) {held : Allowance} (hheld : 1 ≤ held.levels) :
    Affords depth Anywhere held held.gainFor (readEnumConstant? rules enumName) := by
  refine looks_currentStart.skip fun start => ?_
  refine (passes_skipAnnotations hrules).first hheld fun _ => looks_currentKind.learn fun kind => ?_
  split
  · next name =>
    refine (moves_advance.at_kind (by nofun)).bind fun _ => ?_
    have hrest (args : List Expr) : Affords depth Anywhere held.gain held.gainFor (do
        let body ← readWhen (← atSymbol .leftBrace) (readAnonymousBody rules enumName start)
        return some (← mkMember (.enumConstant name args body) start)) := by
      refine (looks_atSymbol .leftBrace).skip fun brace => ?_
      refine Passes.behind ((consumes_readAnonymousBody hrules enumName start).readWhen brace)
        (by decide) fun body => ?_
      exact (passes_mkMember _ start).behind (by decide) fun constant => .pure (.refl _)
    refine (looks_atSymbol .leftParen).skip fun paren => .ite (fun _ => ?_) fun _ => hrest []
    exact (consumes_readArgs hrules).behind (by decide) hrest
  · exact .pure (.refl _)

theorem advances_readEnumConstantsStep (enumName : String) :
    Advances depth 1 (readEnumConstantsStep rules enumName) := by
  rintro ⟨constants, more⟩ held hheld
  refine .ite (fun _ => .pure (.refl _)) fun _ => ?_
  refine (affords_readEnumConstant? hrules enumName hheld).bind fun constant? => ?_
  cases constant? with
  | none => exact .pure (.refl _)
  | some constant =>
      exact (accepts_acceptSymbol .comma).passes.behind (by decide) fun found => .pure (.refl _)

theorem passes_readEnumConstants (enumName : String) :
    Passes depth 1 (readEnumConstants rules enumName) := by
  intro known held hheld
  refine ((advances_readEnumConstantsStep hrules enumName).loop _).first hheld fun scan => ?_
  refine (looks_atSymbol .rightBrace).skip fun brace => .ite (fun _ => ?_) fun _ => .done
  exact consumes_endStatement.passes.first (Nat.zero_le _) fun _ => .done

theorem consumes_readParam? : Consumes depth 2 (readParam? rules) := by
  intro known held hheld
  refine looks_currentStart.skip fun start => ?_
  refine (passes_readModifiers hrules).first (Nat.le_trans (by decide) hheld) fun modifiers => ?_
  refine (hrules .type).first hheld fun type => ?_
  refine (accepts_acceptSymbol .ellipsis).passes.behind (by decide) fun isVarargs => ?_
  refine (accepts_acceptKeyword .this).passes.behind (by decide) fun found =>
    .ite (fun _ => .done) fun _ => ?_
  refine consumes_expectName.behind (by decide) fun name => passes_readDims.behind (by decide)
    fun dims => ?_
  exact passes_freshId.behind (by decide) fun id => (looks_spanFrom start).skip fun span => .done

theorem consumes_readParams : Consumes depth 0 (readParams rules) := by
  intro known held hheld
  refine (consumes_expectSymbol .leftParen).first hheld fun _ => ?_
  refine (passes_enumerated .rightParen .comma (consumes_readParam? hrules)).behind (by decide)
    fun params => ?_
  exact (consumes_expectSymbol .rightParen).behind (by decide) fun _ => .done

theorem consumes_readMethodRest (name : String) (modifiers : Modifiers) (typeParams : List String)
    (returnType : Option String) (start : Nat) :
    Consumes depth 0 (readMethodRest rules name modifiers typeParams returnType start) := by
  intro known held hheld
  refine passes_freshId.first hheld fun id => (consumes_readParams hrules).first hheld fun params => ?_
  refine passes_readDims.behind (by decide) fun _ => ?_
  have hbody (throws : List String) : Affords depth Anywhere held.gain (fun _ => held.gain) (do
      let body ← readWhen (!(← acceptSymbol .semicolon)) (rules _ .block)
      return (⟨id, name, modifiers, typeParams, returnType, params, throws, body, ← spanFrom start⟩ :
        MethodDecl)) := by
    refine (accepts_acceptSymbol .semicolon).passes.behind (by decide) fun found => ?_
    refine Passes.behind ((hrules .block).readWhen (!found)) (by decide) fun body => ?_
    exact (looks_spanFrom start).skip fun span => .done
  have hdefault (throws : List String) : Affords depth Anywhere held.gain (fun _ => held.gain) (do
      if ← acceptKeyword .default then
        let _ ← rules _ .elementValue
      let body ← readWhen (!(← acceptSymbol .semicolon)) (rules _ .block)
      return (⟨id, name, modifiers, typeParams, returnType, params, throws, body, ← spanFrom start⟩ :
        MethodDecl)) := by
    refine (accepts_acceptKeyword .default).behind nofun ?_ (hbody throws)
    exact (hrules .elementValue).behind (by decide) fun _ => hbody throws
  refine (accepts_acceptKeyword .throws).behind nofun ?_ (hdefault [])
  exact (consumes_readTypeList hrules).behind (by decide) hdefault

theorem consumes_readInitializer (isStatic : Bool) (start : Nat) :
    Consumes depth 1 (readInitializer rules isStatic start) :=
  fun _ _ hheld => (hrules .block).first hheld fun _ => (passes_mkMember _ start).last

theorem consumes_readTypedMember (modifiers : Modifiers) (typeParams : List String) (start : Nat) :
    Consumes depth 2 (readTypedMember rules modifiers typeParams start) := by
  intro known held hheld
  have hrest (type : String) : Affords depth Anywhere held.gain (fun _ => held.gain) (do
      let nameStart ← currentStart
      let name ← expectName
      if ← atSymbol .leftParen then
        let method ← readMethodRest rules name modifiers typeParams (some type) start
        mkMember (.method method) start
      else
        let declarators ← readDeclarators rules name nameStart
        endStatement
        mkMember (.field modifiers type declarators) start) := by
    refine looks_currentStart.skip fun nameStart => consumes_expectName.behind (by decide) fun name => ?_
    refine (looks_atSymbol .leftParen).skip fun paren => .ite (fun _ => ?_) fun _ => ?_
    · exact (consumes_readMethodRest hrules name modifiers typeParams (some type) start).behind
        (by decide) fun method => (passes_mkMember _ start).last
    · refine (passes_readDeclarators hrules name nameStart).behind (by decide) fun declarators => ?_
      exact consumes_endStatement.behind (by decide) fun _ => (passes_mkMember _ start).last
  refine (accepts_acceptKeyword .void).branch nofun (hrest "void") ?_
  exact (hrules .type).first hheld hrest

theorem consumes_readDeclaredMember (className : String) (start : Nat) :
    Consumes depth 2 (readDeclaredMember rules className start) := by
  intro known held hheld
  refine (passes_readModifiers hrules).first (Nat.le_trans (by decide) hheld) fun modifiers => ?_
  refine looks_currentKind.skip fun kind => (looks_peek 1).skip fun next => .ite (fun _ => ?_) fun _ => ?_
  · exact (consumes_readClass hrules modifiers start).first (Nat.zero_le _) fun decl =>
      (passes_mkMember _ start).last
  · refine (passes_readTypeParams hrules).first (Nat.zero_le _) fun typeParams => ?_
    refine looks_currentKind.skip fun kind => (looks_peek 1).skip fun next =>
      .ite (fun _ => ?_) fun _ => consumes_readTypedMember hrules modifiers typeParams start hheld
    refine passes_advance.first (Nat.zero_le _) fun _ => ?_
    exact (consumes_readMethodRest hrules className modifiers typeParams none start).first (Nat.zero_le _)
      fun method => (passes_mkMember _ start).last

/-- A member consumes a token even where it is a stray semicolon. -/
theorem consumes_readMember? (className : String) : Consumes depth 2 (readMember? rules className) := by
  intro known held hheld
  refine looks_currentStart.skip fun start => ?_
  refine (accepts_acceptSymbol .semicolon).branch nofun .done ?_
  have hinitializer (isStatic : Bool) {known : List Token → Prop} :
      Affords depth known held (fun _ => held.gain)
        (do return some (← readInitializer rules isStatic start)) :=
    (consumes_readInitializer hrules isStatic start).first (Nat.le_trans (by decide) hheld) fun _ => .done
  refine (looks_atSymbol .leftBrace).skip fun brace => .ite (fun _ => hinitializer false) fun _ => ?_
  refine (looks_atKeyword .static).skip fun static => (looks_peek 1).skip fun next =>
    .ite (fun _ => ?_) fun _ => ?_
  · exact passes_advance.first (Nat.zero_le _) fun _ => hinitializer true
  · exact (consumes_readDeclaredMember hrules className start).first hheld fun _ => .done

/-! ### Class bodies -/

theorem recovers_readMembersStep (className : String) :
    Recovers depth 2 MemberScan.more (readMembersStep rules className) where
  goes scan held hheld := by
    refine (looks_atSymbol .rightBrace).learn fun brace => looks_atEnd.note fun ended =>
      .ite (fun _ => .pure (.refl _)) fun hgo => ?_
    simp only [Bool.or_eq_true, not_or, Bool.not_eq_true] at hgo
    obtain ⟨⟨hmore, rfl⟩, rfl⟩ := hgo
    have hgoes : scan.more := by simpa using hmore
    refine affords_item (consumes_readMember? hrules className) hheld (fun _ => rfl) hgoes
      (fun member? => ?_) passes_skipToMember (affords_skipToMember.weaken ?_ fun _ => .refl _)
      fun hhand => passes_skipToClosingBrace.first (Nat.zero_le _) fun _ => .pure hhand
    · cases member? with
      | none => exact .pure (Allowance.within_recovered hgoes)
      | some member => exact .pure (Allowance.within_recovered hgoes)
    · rintro rest ⟨hbrace, hend⟩
      exact ⟨ne_of_beq_false hbrace, ne_of_beq_false hend⟩
  ends scan cursor h := by
    obtain ⟨brace, hbrace, -⟩ := looks_atSymbol .rightBrace cursor
    obtain ⟨ended, hended, hend⟩ := looks_atEnd cursor
    have hstop : (!scan.more || brace || ended) = true := by
      obtain hmore | heof := h
      · rw [hmore]
        rfl
      · rw [← hend, heof, beq_self_eq_true, Bool.or_true]
    rw [readMembersStep, EStateM.run_bind, hbrace]
    dsimp only
    rw [EStateM.run_bind, hended]
    dsimp only
    rw [if_pos hstop]
    rfl

theorem affords_readMembers (className : String) {known : List Token → Prop} {held : Allowance}
    (hheld : 2 ≤ held.levels) :
    Affords depth known held.spare (fun _ => held) (readMembers rules className) :=
  ((recovers_readMembersStep hrules className).loop rfl hheld).bind fun _ =>
    .pure (Allowance.within_spareIf _ _)

theorem consumes_readClassBody (className : String) (isEnum : Bool) :
    Consumes depth 0 (readClassBody rules className isEnum) := by
  intro known held _
  refine ((expects_expectSymbol .leftBrace).opened rfl).bind fun _ => ?_
  have hmembers (constants : List Member) : Affords depth Anywhere held.gain.spare (fun _ => held.gain) (do
      let members ← readMembers rules className
      let _ ← expectSymbol .rightBrace
      return constants ++ members) := by
    refine (affords_readMembers hrules className (held.le_levels_gain (by decide))).bind fun members => ?_
    exact (consumes_expectSymbol .rightBrace).behind (by decide) fun _ => .done
  refine .ite (fun _ => ?_) fun _ => hmembers []
  exact (passes_readEnumConstants hrules className).first (held.le_levels_gain (by decide)) hmembers

/-! ### The rules tied together -/

theorem consumes_readNonterminal {α : Type} (nonterminal : Nonterminal α) :
    Consumes depth nonterminal.level (readNonterminal rules nonterminal) := by
  cases nonterminal with
  | expr => exact consumes_readExpr hrules
  | ternary => exact consumes_readTernary hrules
  | binary least => exact consumes_readBinary hrules least
  | unary => exact consumes_readUnary hrules
  | type => exact consumes_readType hrules
  | annotationUse => exact consumes_readAnnotationUse hrules
  | elementValue => exact consumes_readElementValue hrules
  | varInit => exact consumes_readVarInit hrules
  | stmt => exact consumes_readStmt hrules
  | block => exact consumes_readBlock hrules
  | classBody className isEnum => exact consumes_readClassBody hrules className isEnum

end Readers

/-- A level of the rules takes one level of the allowance. -/
theorem Consumes.deepen {α : Type} {depth level : Nat} {reader : Reader α}
    (h : Consumes (some depth) level reader) : Consumes (some (depth + 1)) (level + 1) reader := by
  rintro known ⟨_ | levels, errors⟩ hheld cursor hknown hdepth
  · exact absurd hheld (Nat.not_succ_le_zero level)
  · have hlimit : cursor.worth + levels ≤ depth := Nat.le_of_succ_le_succ (suffices_some.mp hdepth)
    have houtcome := @h known ⟨levels, errors⟩ (Nat.le_of_succ_le_succ hheld) cursor hknown
      (suffices_some.mpr hlimit)
    have hframe {left : Nat} {before after : Cursor} {rest : Nat}
        (haccounts : Accounts (some depth) ⟨levels, errors⟩ ⟨left, rest⟩ before after) :
        Accounts (some (depth + 1)) ⟨levels + 1, errors⟩ ⟨left + 1, rest⟩ before after :=
      { haccounts with levels := Nat.succ_le_succ haccounts.levels }
    cases hrun : reader.run cursor with
    | ok value after =>
        rw [hrun] at houtcome
        exact (hframe houtcome).weaken ⟨Nat.le_of_eq (Nat.add_right_comm _ _ _), Nat.le_refl _⟩
    | error error after =>
        rw [hrun] at houtcome
        exact ⟨houtcome.1, (hframe houtcome.2).weaken ⟨Nat.zero_le _, Nat.le_refl _⟩⟩

/-- To whatever depth the rules are tied, every nonterminal consumes a token, and where few enough tokens
are ahead for the depth it meets no bound. -/
theorem consuming_rules (depth : Nat) : (rules depth).Consuming (some depth) := by
  induction depth with
  | zero =>
      intro α nonterminal known held hheld cursor _ hdepth
      have := suffices_some.mp hdepth
      omega
  | succ depth ih => exact fun nonterminal => (consumes_readNonterminal ih nonterminal).deepen

/-- Where few tokens enough are not asked for, a nonterminal still consumes one if it yields anything. -/
theorem consuming_rules_unasked (depth : Nat) : (rules depth).Consuming none := by
  induction depth with
  | zero =>
      intro α nonterminal known held _ cursor _ _
      exact ⟨nofun, (Accounts.refl held cursor).weaken ⟨Nat.zero_le _, Nat.zero_le _⟩⟩
  | succ depth ih =>
      intro α nonterminal known held hheld
      exact consumes_readNonterminal ih nonterminal (Nat.le_of_succ_le hheld)

/-! ### Packages and imports -/

theorem consumes_readPackage : Consumes depth 0 readPackage := by
  intro known held hheld
  refine (consumes_expectKeyword .package).first hheld fun _ => ?_
  refine consumes_readQualifiedName.behind (by decide) fun name => ?_
  exact (consumes_expectSymbol .semicolon).behind (by decide) fun _ => .done

theorem consumes_readImport : Consumes depth 0 readImport := by
  intro known held hheld
  refine (consumes_expectKeyword .import).first hheld fun span => ?_
  refine (accepts_acceptKeyword .static).passes.behind (by decide) fun isStatic => ?_
  refine consumes_expectName.behind (by decide) fun first => ?_
  refine Passes.behind (Advances.loop ?_ _) (Nat.zero_le 8) fun scan => ?_
  · intro scan held _
    refine .ite (fun _ => .pure (.refl _)) fun _ => ?_
    refine (accepts_acceptSymbol .dot).branch nofun ?_ (.pure (.refl _))
    refine (accepts_acceptSymbol .star).behind nofun (.pure (.refl _)) ?_
    exact consumes_expectName.behind (by decide) fun name => .pure (.refl _)
  · refine (consumes_expectSymbol .semicolon).behind (by decide) fun _ => ?_
    exact (looks_spanFrom _).skip fun _ => .done

theorem advances_skipPastSemicolonStep : Advances depth 0 fun () => skipPastSemicolonStep := by
  intro _ held _
  refine looks_atEnd.learn fun ended => .ite (fun _ => .pure (.refl _)) fun hended => ?_
  refine (accepts_acceptSymbol .semicolon).branch nofun (.pure (Allowance.within_gain _)) ?_
  refine Affords.bind (moves_advance.given ?_) fun _ => .pure (.refl _)
  rintro rest ⟨rfl, -⟩ heof
  exact hended (beq_iff_eq.mpr heof)

theorem passes_skipPastSemicolon : Passes depth 0 skipPastSemicolon :=
  fun _ _ hheld => (advances_skipPastSemicolonStep.loop ()).first hheld fun _ => .done

theorem moves_skipPastSemicolon : Moves depth skipPastSemicolon := by
  intro held
  refine Affords.bind (advances_skipPastSemicolonStep.loop_of_first (Nat.zero_le _) ?_) fun _ => .done
  refine looks_atEnd.note fun ended => .ite (fun hended => .absurd ?_) fun _ => ?_
  · rintro rest ⟨hend, rfl⟩
    exact hend (eq_of_beq hended)
  · refine (accepts_acceptSymbol .semicolon).branch nofun .done ?_
    exact (moves_advance.given fun _ hrest => hrest.1.1).bind fun _ => .done

theorem recovers_readImportsStep : Recovers depth 0 DeclScan.more readImportsStep where
  goes scan held _ := by
    refine (looks_atKeyword .import).learn fun found => .ite (fun _ => .pure (.refl _)) fun hgo => ?_
    simp only [Bool.or_eq_true, not_or, Bool.not_eq_true, Bool.not_eq_false'] at hgo
    obtain ⟨hmore, rfl⟩ := hgo
    have hgoes : scan.more := by simpa using hmore
    exact affords_item consumes_readImport (Nat.zero_le _) (fun _ => rfl) hgoes
      (fun decl => .pure (Allowance.within_recovered hgoes)) passes_skipPastSemicolon
      (moves_skipPastSemicolon.at_seen (by nofun) rfl) fun hhand => .pure hhand
  ends scan cursor h := by
    obtain ⟨found, hrun, hfound⟩ := looks_atKeyword .import cursor
    have hstop : (!scan.more || !found) = true := by
      obtain hmore | heof := h
      · rw [hmore]
        rfl
      · rw [← hfound, heof]
        exact Bool.or_true _
    rw [readImportsStep, EStateM.run_bind, hrun]
    dsimp only
    rw [if_pos hstop]
    rfl

/-- Behind the imports the error to spare is left if they allow to go on. -/
theorem affords_readImports {known : List Token → Prop} {held : Allowance} :
    Affords depth known held.spare (fun imports => held.spareIf imports.more) readImports :=
  (recovers_readImportsStep.loop rfl (Nat.zero_le _)).bind fun _ => .pure (.refl _)

/-! ### Classes and expressions -/

theorem advances_skipToTypeDeclStep : Advances depth 0 skipToTypeDeclStep := by
  intro braces held _
  refine looks_currentKind.learn fun kind => ?_
  split
  · exact .pure (.refl _)
  · exact (moves_advance.at_kind (by nofun)).bind fun _ => .pure (.refl _)
  · refine (moves_advance.at_kind (by nofun)).bind fun _ => ?_
    exact .ite (fun _ => .pure (Allowance.within_gain _)) fun _ => .pure (.refl _)
  · next hend _ _ =>
    refine .ite (fun _ => .pure (.refl _)) fun _ => ?_
    exact (moves_advance.at_kind hend).bind fun _ => .pure (.refl _)

theorem moves_skipToTypeDecl : Moves depth skipToTypeDecl :=
  Moves.advance_first fun _ =>
    (advances_skipToTypeDeclStep.loop 0).behind (Nat.zero_le 8) fun _ => .done

theorem passes_skipToTypeDecl : Passes depth 0 skipToTypeDecl := by
  intro known held hheld
  refine passes_advance.first hheld fun _ => ?_
  exact (advances_skipToTypeDeclStep.loop 0).first hheld fun _ => .done

section Readers

variable {rules : Rules} (hrules : rules.Consuming depth)

include hrules

theorem consumes_readTypeDecl : Consumes depth 1 (readTypeDecl rules) := by
  intro known held hheld
  refine looks_currentStart.skip fun start => ?_
  refine (passes_readModifiers hrules).first hheld fun modifiers => ?_
  exact consumes_readClass hrules modifiers start (Nat.zero_le _)

theorem recovers_readTypeDeclsStep : Recovers depth 1 DeclScan.more (readTypeDeclsStep rules) where
  goes scan held hheld := by
    refine looks_atEnd.learn fun ended => .ite (fun _ => .pure (.refl _)) fun hgo => ?_
    simp only [Bool.or_eq_true, not_or, Bool.not_eq_true] at hgo
    obtain ⟨hmore, rfl⟩ := hgo
    have hgoes : scan.more := by simpa using hmore
    refine (accepts_acceptSymbol .semicolon).branch nofun (.pure (Allowance.within_recovered hgoes)) ?_
    refine affords_item (consumes_readTypeDecl hrules) hheld (fun _ => rfl) hgoes
      (fun decl => .pure (Allowance.within_recovered hgoes)) passes_skipToTypeDecl
      (moves_skipToTypeDecl.given ?_) fun hhand => .pure hhand
    rintro rest ⟨hend, -⟩
    exact ne_of_beq_false hend
  ends scan cursor h := by
    obtain ⟨ended, hended, hend⟩ := looks_atEnd cursor
    have hstop : (!scan.more || ended) = true := by
      obtain hmore | heof := h
      · rw [hmore]
        rfl
      · rw [← hend, heof, beq_self_eq_true, Bool.or_true]
    rw [readTypeDeclsStep, EStateM.run_bind, hended]
    dsimp only
    rw [if_pos hstop]
    rfl

theorem affords_readTypeDecls {known : List Token → Prop} {held : Allowance} (hheld : 1 ≤ held.levels) :
    Affords depth known held.spare (fun _ => held) (readTypeDecls rules) :=
  ((recovers_readTypeDeclsStep hrules).loop rfl hheld).bind fun _ => .pure (Allowance.within_spareIf _ _)

/-- An expression by itself has to take all tokens. -/
theorem consumes_readSoleExpr : Consumes depth 4 (readSoleExpr rules) := by
  intro known held hheld
  refine (hrules .expr).first hheld fun expr => looks_atEnd.skip fun ended => ?_
  exact .ite (fun _ => .done) fun _ => affords_failExpected _

end Readers

end LockDiscipline.Grammar
