import LockDiscipline.Proofs.Grammar.BasicProgress
/-!
# Progress in types and expressions

A rule of the grammar that begins with another one needs more levels than that, up to the four that lie
between a statement or an initial value and an operand. Behind the first token of a rule every other rule can
be read again.
-/

namespace LockDiscipline.Grammar

/-- How many rules a nonterminal may come to before a token is consumed. -/
def Nonterminal.level : {α : Type} → Nonterminal α → Nat
  | _, .unary | _, .annotationUse | _, .block | _, .classBody .. => 0
  | _, .type | _, .binary _ => 1
  | _, .ternary => 2
  | _, .expr | _, .elementValue => 3
  | _, .varInit | _, .stmt => 4

/-- Rules by which every nonterminal consumes a token, as long as they are tied deeply enough. -/
def Rules.Consuming (depth : Option Nat) (rules : Rules) : Prop :=
  ∀ {α : Type} (nonterminal : Nonterminal α), Consumes depth (nonterminal.level + 1) (rules α nonterminal)

section Readers

variable {depth : Option Nat} {rules : Rules} (hrules : rules.Consuming depth)

/-! ### Types, annotations and modifiers -/

theorem consumes_readQualifiedName : Consumes depth 0 readQualifiedName := by
  intro known held hheld
  refine consumes_expectName.first hheld fun first => ?_
  refine Passes.last (Advances.loop ?_ first)
  intro name held _
  refine (looks_atSymbol .dot).skip fun dot => (looks_peek 1).skip fun kind => .ite (fun _ => ?_)
    fun _ => .pure (.refl _)
  refine passes_advance.first (Nat.zero_le _) fun _ => ?_
  exact consumes_expectName.first (Nat.zero_le _) fun _ => .pure (.refl _)

theorem passes_readDims : Passes depth 0 readDims := by
  refine Advances.loop ?_ ""
  intro text held _
  refine (looks_atSymbol .leftBracket).learn fun bracket => (looks_peek 1).skip fun kind =>
    .ite (fun hbracket => ?_) fun _ => .pure (.refl _)
  exact (moves_advance.at_seen (by nofun) (Bool.and_eq_true_iff.mp hbracket).1).bind fun _ =>
    passes_advance.first (Nat.zero_le _) fun _ => .pure (.refl _)

include hrules

theorem passes_skipAnnotations : Passes depth 1 (skipAnnotations rules) := by
  intro known held hheld
  refine Passes.first (passes_collect ?_) hheld fun _ => .done
  intro held hheld
  refine (looks_atSymbol .at).skip fun found => .ite (fun _ => ?_) fun _ => .pure (.refl _)
  exact (hrules .annotationUse).first hheld fun _ => .pure (.refl _)

theorem consumes_readTypeArg : Consumes depth 2 (readTypeArg rules) := by
  intro known held hheld
  have htype (text : String) : Affords depth Anywhere held.gain (fun _ => held.gain)
      (do return text ++ (← rules _ .type)) :=
    (hrules .type).behind (by decide) fun _ => .done
  refine (accepts_acceptSymbol .question).branch nofun ?_ (hrules .type hheld)
  refine (accepts_acceptKeyword .extends).behind nofun (htype _) ?_
  exact (accepts_acceptKeyword .super).behind nofun (htype _) .done

theorem consumes_readTypeArgs : Consumes depth 0 (readTypeArgs rules) := by
  intro known held hheld
  refine (consumes_expectSymbol .less).first hheld fun _ => ?_
  refine (accepts_acceptSymbol .greater).behind nofun .done ?_
  refine (consumes_separated .comma (by decide) (consumes_readTypeArg hrules)).behind (by decide)
    fun args => ?_
  exact (consumes_expectSymbol .greater).behind (by decide) fun _ => .done

/-- Each part of a type name begins with a name. -/
theorem consumes_readTypeName : Consumes depth 0 (readTypeName rules) := by
  have hpart (text : String) : Consumes depth 0 (do
      let name ← expectName
      let args ← if ← atSymbol .less then readTypeArgs rules else pure ""
      if (← atSymbol .dot) && (← peek 1).isIdent then
        advance
        return some (text ++ name ++ args ++ ".", true)
      else return some (text ++ name ++ args, false) : Reader (Option (String × Bool))) := by
    intro known held hheld
    refine consumes_expectName.first hheld fun name => ?_
    have hrest (args : String) : Affords depth Anywhere held.gain (fun _ => held.gain) (do
        if (← atSymbol .dot) && (← peek 1).isIdent then
          advance
          return some (text ++ name ++ args ++ ".", true)
        else return some (text ++ name ++ args, false)) :=
      (looks_atSymbol .dot).skip fun _ => (looks_peek 1).skip fun _ =>
        .ite (fun _ => passes_advance.behind (by decide) fun _ => .done) fun _ => .done
    refine (looks_atSymbol .less).skip fun found => .ite (fun _ => ?_) fun _ => hrest ""
    exact (consumes_readTypeArgs hrules).behind (by decide) hrest
  intro known held hheld
  refine Affords.bind (Advances.loop_of_first ?_ hheld (hpart "" hheld)) fun _ => .done
  rintro ⟨text, more⟩ held hheld
  refine .ite (fun _ => .pure (.refl _)) fun _ => (hpart text hheld).weaken (fun _ => id) ?_
  rintro (_ | _)
  · exact Allowance.within_gain _
  · exact .refl _

theorem consumes_readType : Consumes depth 1 (readType rules) := by
  intro known held hheld
  refine (passes_skipAnnotations hrules).first hheld fun _ => looks_currentKind.skip fun kind => ?_
  have hname : Affords depth Anywhere held (fun _ => held.gain) (do
      let name ← readTypeName rules
      return name ++ (← readDims)) :=
    (consumes_readTypeName hrules).first (Nat.zero_le _) fun name =>
      passes_readDims.behind (by decide) fun _ => .done
  exact .ite (fun _ => (affords_failExpected _).bind fun _ => hname) fun _ => hname

theorem consumes_readTypeList : Consumes depth 2 (readTypeList rules) :=
  consumes_separated .comma (by decide) (hrules .type)

theorem consumes_readTypeParam : Consumes depth 1 (readTypeParam rules) := by
  intro known held hheld
  refine (passes_skipAnnotations hrules).first hheld fun _ => ?_
  refine consumes_expectName.first (Nat.zero_le _) fun name => ?_
  refine (accepts_acceptKeyword .extends).behind nofun ?_ .done
  exact (consumes_separated .amp (by decide) (hrules .type)).behind (by decide) fun _ => .done

theorem passes_readTypeParams : Passes depth 0 (readTypeParams rules) := by
  intro known held hheld
  refine (accepts_acceptSymbol .less).branch nofun ?_ .done
  refine (consumes_separated .comma (by decide) (consumes_readTypeParam hrules)).behind (by decide)
    fun params => ?_
  exact (consumes_expectSymbol .greater).behind (by decide) fun _ =>
    .pure (Allowance.within_gain _)

omit hrules in
theorem consumes_readArrayItems {level : Nat} {item : Reader Expr} (hlevel : level ≤ 8)
    (h : Consumes depth level item) : Consumes depth 0 (readArrayItems item) := by
  intro known held hheld
  refine (consumes_expectSymbol .leftBrace).first hheld fun _ => ?_
  refine (passes_enumerated .rightBrace .comma h).behind hlevel fun items => ?_
  exact (consumes_expectSymbol .rightBrace).behind (by decide) fun _ => .done

theorem consumes_readElementValue : Consumes depth 3 (readElementValue rules) := by
  intro known held hheld
  refine looks_currentStart.skip fun start => looks_currentKind.skip fun kind => ?_
  split
  · refine (consumes_readArrayItems (by decide) (hrules .elementValue)).first (Nat.zero_le _)
      fun items => ?_
    exact (passes_mkExpr _ start).last
  · refine (hrules .annotationUse).first (Nat.le_trans (by decide) hheld) fun _ => ?_
    exact (passes_mkExpr _ start).last
  · exact hrules .ternary hheld

theorem consumes_readNamedArg : Consumes depth 0 (readNamedArg rules) := by
  intro known held hheld
  refine consumes_expectName.first hheld fun name => ?_
  refine (consumes_expectSymbol .assign).behind (by decide) fun _ => ?_
  exact (hrules .elementValue).behind (by decide) fun _ => .done

theorem passes_readAnnotationArgs : Passes depth 4 (readAnnotationArgs rules) := by
  intro known held hheld
  refine (looks_atSymbol .rightParen).skip fun empty => .ite (fun _ => .done) fun _ => ?_
  refine looks_currentKind.skip fun kind => (looks_peek 1).skip fun next =>
    .ite (fun _ => ?_) fun _ => ?_
  · exact (consumes_separated .comma (by decide) (consumes_readNamedArg hrules)).passes (Nat.zero_le _)
  · exact (hrules .elementValue).passes.first hheld fun _ => .done

theorem consumes_readAnnotationUse : Consumes depth 0 (readAnnotationUse rules) := by
  intro known held hheld
  refine (consumes_expectSymbol .at).first hheld fun span => ?_
  refine consumes_readQualifiedName.behind (by decide) fun name => ?_
  refine (accepts_acceptSymbol .leftParen).behind nofun ?_ ?_
  · refine (passes_readAnnotationArgs hrules).behind (by decide) fun args => ?_
    refine (consumes_expectSymbol .rightParen).behind (by decide) fun _ => ?_
    exact (looks_spanFrom _).skip fun _ => .done
  · exact (looks_spanFrom _).skip fun _ => .done

theorem passes_readModifiers : Passes depth 1 (readModifiers rules) := by
  intro known held hheld
  refine Passes.first (Advances.loop ?_ _) hheld fun _ => .done
  intro modifiers held hheld
  refine looks_currentKind.learn fun kind => ?_
  split
  · refine (looks_peek 1).skip fun next => .ite (fun _ => .pure (.refl _)) fun _ => ?_
    exact (hrules .annotationUse).first hheld fun use => .pure (.refl _)
  · refine .ite (fun _ => ?_) fun _ => .pure (.refl _)
    exact (moves_advance.at_kind (by nofun)).bind fun _ => .pure (.refl _)
  · exact .pure (.refl _)

/-! ### Expressions -/

theorem consumes_readExpr : Consumes depth 3 (readExpr rules) := by
  intro known held hheld
  refine looks_currentStart.skip fun start => (hrules .ternary).first hheld fun target => ?_
  refine looks_currentKind.skip fun kind => ?_
  split
  · refine passes_advance.behind (by decide) fun _ => ?_
    exact (hrules .expr).behind (by decide) fun value => (passes_mkExpr _ start).last
  · exact .done

theorem consumes_readTernary : Consumes depth 2 (readTernary rules) := by
  intro known held hheld
  refine looks_currentStart.skip fun start => (hrules (.binary 0)).first hheld fun cond => ?_
  refine (accepts_acceptSymbol .question).behind nofun ?_ .done
  refine (hrules .expr).behind (by decide) fun whenTrue => ?_
  refine (consumes_expectSymbol .colon).behind (by decide) fun _ => ?_
  exact (hrules .ternary).behind (by decide) fun whenFalse => (passes_mkExpr _ start).last

theorem moves_readInstanceOf (operand : Expr) (start : Nat) :
    Moves depth (readInstanceOf rules operand start) := by
  refine Moves.advance_first fun held => ?_
  have htype : Affords depth Anywhere held.gain (fun _ => held.gain) (do
      let type ← rules _ .type
      if (← currentKind).isIdent then advance
      mkExpr (.instanceOf operand type) start) := by
    refine (hrules .type).behind (by decide) fun type => looks_currentKind.skip fun kind =>
      .ite (fun _ => ?_) fun _ => (passes_mkExpr _ start).last
    exact passes_advance.behind (by decide) fun _ => (passes_mkExpr _ start).last
  exact (accepts_acceptKeyword .final).behind nofun htype htype

omit hrules in
theorem passes_advanceBy (count : Nat) : Passes depth 0 (advanceBy count) := by
  induction count with
  | zero => exact fun _ _ _ => .done
  | succ count ih => exact fun _ _ hheld => passes_advance.first hheld fun _ => ih hheld

omit hrules in
theorem moves_advanceBy {count : Nat} (h : 0 < count) : Moves depth (advanceBy count) := by
  cases count with
  | zero => exact absurd h (Nat.lt_irrefl 0)
  | succ count => exact Moves.advance_first fun _ => (passes_advanceBy count).last

omit hrules in
/-- An operator takes at least one token. -/
theorem binaryOperator?_spec {tokens : List Token} {op : BinaryOp} {width : Nat}
    (h : binaryOperator? tokens = some (op, width)) : headKind tokens ≠ .eof ∧ 0 < width := by
  rw [binaryOperator?] at h
  split at h
  · next hhead =>
    refine ⟨hhead ▸ nofun, ?_⟩
    split at h <;> cases h <;> decide
  · next sign _ hhead =>
    refine ⟨hhead ▸ nofun, ?_⟩
    obtain ⟨op', -, heq⟩ := Option.map_eq_some_iff.mp h
    cases heq
    decide
  · cases h

theorem consumes_readBinary (least : Nat) : Consumes depth 1 (readBinary rules least) := by
  intro known held hheld
  refine looks_currentStart.skip fun start => (hrules .unary).first hheld fun first => ?_
  refine Passes.last (Advances.loop ?_ first)
  intro left held _
  refine (looks_atKeyword .instanceof).learn fun found => .ite (fun hfound => ?_) fun _ => ?_
  · refine .ite (fun _ => .pure (.refl _)) fun _ => ?_
    exact ((moves_readInstanceOf hrules left start).at_seen (by nofun) hfound).bind fun _ =>
      .pure (.refl _)
  · refine looks_get.learn fun cursor => ?_
    split
    · exact .pure (.refl _)
    · next op width hoperator =>
      refine .ite (fun _ => .pure (.refl _)) fun _ => ?_
      obtain ⟨hkind, hwidth⟩ := binaryOperator?_spec hoperator
      have hadvance : Affords depth (fun rest => cursor.rest = rest) held (fun _ => held.gain)
          (advanceBy width) :=
        (moves_advanceBy hwidth).given fun rest hrest => hrest ▸ hkind
      refine hadvance.bind fun _ => 
        (hrules (.binary (precedence op + 1))).behind (show 2 ≤ 8 by decide) fun right => ?_
      exact (passes_mkExpr _ start).behind (by decide) fun _ => .pure (.refl _)

theorem consumes_readArgs : Consumes depth 0 (readArgs rules) := by
  intro known held hheld
  refine (consumes_expectSymbol .leftParen).first hheld fun _ => ?_
  refine (passes_enumerated .rightParen .comma (hrules .expr)).behind (by decide) fun args => ?_
  exact (consumes_expectSymbol .rightParen).behind (by decide) fun _ => .done

omit hrules in
theorem passes_requireTypeName (expr : Expr) : Passes depth 0 (requireTypeName expr) := by
  intro known held _
  rw [requireTypeName]
  split
  · exact .done
  · exact .throw nofun

theorem consumes_readAnonymousBody (superclass : String) (start : Nat) :
    Consumes depth 1 (readAnonymousBody rules superclass start) := by
  intro known held hheld
  refine passes_freshId.first (Nat.zero_le _) fun id => ?_
  exact (hrules (.classBody "" false)).first hheld fun members => (looks_spanFrom start).skip fun _ => .done

theorem passes_readArrayDims : Passes depth 0 (readArrayDims rules) := by
  intro known held hheld
  refine Passes.first (passes_collect ?_) hheld fun dims => .done
  intro held _
  refine (accepts_acceptSymbol .leftBracket).branch nofun ?_ (.pure (.refl _))
  refine (accepts_acceptSymbol .rightBracket).behind nofun (.pure (.refl _)) ?_
  refine (hrules .expr).behind (by decide) fun dim => ?_
  exact (consumes_expectSymbol .rightBracket).behind (by decide) fun _ => .pure (.refl _)

theorem consumes_readNew (start : Nat) : Consumes depth 0 (readNew rules start) := by
  intro known held hheld
  refine (consumes_expectKeyword .new).first hheld fun _ => ?_
  refine (passes_skipAnnotations hrules).behind (by decide) fun _ => ?_
  refine (consumes_readTypeName hrules).behind (by decide) fun type => ?_
  refine (looks_atSymbol .leftBracket).skip fun bracket => .ite (fun _ => ?_) fun _ => ?_
  · refine (passes_readArrayDims hrules).behind (by decide) fun dims => ?_
    refine (looks_atSymbol .leftBrace).skip fun brace => ?_
    refine Passes.behind ((consumes_readArrayItems (by decide) (hrules .varInit)).readWhen brace)
      (by decide) fun init => ?_
    exact (passes_mkExpr _ start).last
  · refine (consumes_readArgs hrules).behind (by decide) fun args => ?_
    refine (looks_atSymbol .leftBrace).skip fun brace => ?_
    refine Passes.behind ((consumes_readAnonymousBody hrules type start).readWhen brace)
      (by decide) fun body => ?_
    exact (passes_mkExpr _ start).last

omit hrules in
theorem passes_readLambdaParams : Passes depth 0 readLambdaParams := by
  intro known held hheld
  refine Passes.first (Advances.loop ?_ _) hheld fun scan => .done
  intro scan held _
  refine looks_currentKind.learn fun kind => ?_
  split
  · exact .pure (.refl _)
  · exact .pure (.refl _)
  · exact (moves_advance.at_kind (by nofun)).bind fun _ =>
      .ite (fun _ => .pure (.refl _)) fun _ => .pure (.refl _)
  · exact (moves_advance.at_kind (by nofun)).bind fun _ => .pure (.refl _)
  · exact (moves_advance.at_kind (by nofun)).bind fun _ => .pure (.refl _)
  · exact (moves_advance.at_kind (by nofun)).bind fun _ => .pure (.refl _)
  · next hend _ _ _ _ => exact (moves_advance.at_kind hend).bind fun _ => .pure (.refl _)

theorem consumes_readLambda (start : Nat) : Consumes depth 0 (readLambda rules start) := by
  intro known held _
  have hrest (params : List String) : Affords depth Anywhere held.gain (fun _ => held.gain) (do
      let _ ← expectSymbol .arrow
      let body ← if ← atSymbol .leftBrace then LambdaBody.block <$> rules _ .block
        else LambdaBody.expr <$> rules _ .expr
      mkExpr (.lambda params body) start) := by
    refine (consumes_expectSymbol .arrow).behind (by decide) fun _ => ?_
    refine (looks_atSymbol .leftBrace).skip fun brace => .ite (fun _ => ?_) fun _ => ?_
    · exact (Passes.map (hrules .block).passes).behind (by decide) fun _ => (passes_mkExpr _ start).last
    · exact (Passes.map (hrules .expr).passes).behind (by decide) fun _ => (passes_mkExpr _ start).last
  refine looks_currentKind.learn fun kind => ?_
  split
  · exact (moves_advance.at_kind (by nofun)).bind fun _ => hrest _
  · refine (consumes_expectSymbol .leftParen).first (Nat.zero_le _) fun _ => ?_
    refine passes_readLambdaParams.behind (by decide) fun names => ?_
    exact (consumes_expectSymbol .rightParen).behind (by decide) fun _ => hrest names

theorem moves_readSelf (name : String) (kind : ExprKind) (start : Nat) :
    Moves depth (readSelf rules name kind start) := by
  refine Moves.advance_first fun held => (looks_atSymbol .leftParen).skip fun paren =>
    .ite (fun _ => ?_) fun _ => (passes_mkExpr _ start).last
  exact (consumes_readArgs hrules).behind (by decide) fun args => (passes_mkExpr _ start).last

omit hrules in
theorem moves_readLiteral (kind : ExprKind) (start : Nat) : Moves depth (readLiteral kind start) :=
  Moves.advance_first fun _ => (passes_mkExpr _ start).last

theorem moves_readNameOrCall (name : String) (start : Nat) :
    Moves depth (readNameOrCall rules name start) := by
  intro held
  refine looks_get.skip fun cursor => (looks_peek 1).skip fun kind => .ite (fun _ => ?_) fun _ => ?_
  · exact consumes_readLambda hrules start (Nat.zero_le _)
  · refine Moves.advance_first (fun held => ?_) held
    refine (looks_atSymbol .leftParen).skip fun paren =>
      .ite (fun _ => ?_) fun _ => (passes_mkExpr _ start).last
    exact (consumes_readArgs hrules).behind (by decide) fun args => (passes_mkExpr _ start).last

theorem moves_readParenthesized (start : Nat) : Moves depth (readParenthesized rules start) := by
  intro held
  refine looks_get.skip fun cursor => (looks_ahead looksLikeLambda).skip fun lambda =>
    .ite (fun _ => ?_) fun _ => ?_
  · exact consumes_readLambda hrules start (Nat.zero_le _)
  · refine Moves.advance_first (fun held => ?_) held
    refine ((hrules .expr).withLambdas true cursor.lambdas).behind (by decide) fun inner => ?_
    exact (consumes_expectSymbol .rightParen).behind (by decide) fun _ => (passes_mkExpr _ start).last

omit hrules in
/-- The end of the file is no literal. -/
theorem ne_eof_of_literal {kind : TokenKind} {literal : ExprKind} (h : literal? kind = some literal) :
    kind ≠ .eof := by
  rintro rfl
  cases h

theorem consumes_readPrimary : Consumes depth 0 (readPrimary rules) := by
  intro known held _
  refine looks_currentStart.skip fun start => looks_currentKind.learn fun kind => ?_
  split
  · next literal hliteral =>
    exact (moves_readLiteral literal start).at_kind (ne_eof_of_literal hliteral)
  · split
    · exact (moves_readSelf hrules "this" .this start).at_kind nofun
    · exact (moves_readSelf hrules "super" .super start).at_kind nofun
    · exact consumes_readNew hrules start (Nat.zero_le _)
    · next name _ => exact (moves_readNameOrCall hrules name start).at_kind nofun
    · exact (moves_readParenthesized hrules start).at_kind nofun
    · refine (moves_advance.at_kind (by nofun)).bind fun _ => ?_
      refine (consumes_expectSymbol .dot).behind (by decide) fun _ => ?_
      exact (consumes_expectKeyword .class).behind (by decide) fun _ => (passes_mkExpr _ start).last
    · exact affords_failExpected _

theorem passes_readAfterDot (object : Expr) (start : Nat) :
    Passes depth 0 (readAfterDot rules object start) := by
  intro known held hheld
  refine looks_currentKind.skip fun kind => ?_
  split
  · refine passes_advance.first hheld fun _ => (looks_atSymbol .leftParen).skip fun paren =>
      .ite (fun _ => ?_) fun _ => (passes_mkExpr _ start).last
    exact (consumes_readArgs hrules).passes.first hheld fun args => (passes_mkExpr _ start).last
  · refine (consumes_readTypeArgs hrules).passes.first hheld fun _ => ?_
    refine consumes_expectName.passes.first hheld fun method => ?_
    exact (consumes_readArgs hrules).passes.first hheld fun args => (passes_mkExpr _ start).last
  · refine (passes_requireTypeName object).first hheld fun qualifier => ?_
    exact passes_advance.first hheld fun _ => (passes_mkExpr _ start).last
  · refine (passes_requireTypeName object).first hheld fun type => ?_
    exact passes_advance.first hheld fun _ => (passes_mkExpr _ start).last
  · exact passes_advance.first hheld fun _ => (passes_mkExpr _ start).last
  · exact (consumes_readNew hrules start).passes hheld
  · exact affords_failExpected _

/-- What stands behind an operand begins with a token of its own. -/
theorem affords_readSuffix? (expr : Expr) (start : Nat) {held : Allowance} :
    Affords depth Anywhere held held.gainFor (readSuffix? rules expr start) := by
  refine looks_currentKind.learn fun kind => ?_
  have hlast (kind : ExprKind) : Affords depth Anywhere held.gain held.gainFor
      (do return some (← mkExpr kind start)) :=
    (passes_mkExpr kind start).behind (by decide) fun _ => .pure (.refl _)
  split
  · refine (moves_advance.at_kind (by nofun)).bind fun _ => ?_
    exact (passes_readAfterDot hrules expr start).behind (by decide) fun _ => .pure (.refl _)
  · refine (looks_peek 1).skip fun next => .ite (fun _ => ?_) fun _ => ?_
    · refine (passes_requireTypeName expr).first (Nat.zero_le _) fun type => ?_
      refine passes_readDims.first (Nat.zero_le _) fun dims => ?_
      refine (consumes_expectSymbol .dot).first (Nat.zero_le _) fun _ => ?_
      exact (consumes_expectKeyword .class).behind (by decide) fun _ => hlast _
    · refine (moves_advance.at_kind (by nofun)).bind fun _ => ?_
      refine (hrules .expr).behind (by decide) fun index => ?_
      exact (consumes_expectSymbol .rightBracket).behind (by decide) fun _ => hlast _
  · exact (moves_advance.at_kind (by nofun)).bind fun _ => hlast _
  · exact (moves_advance.at_kind (by nofun)).bind fun _ => hlast _
  · refine (moves_advance.at_kind (by nofun)).bind fun _ => ?_
    refine (accepts_acceptKeyword .new).behind nofun (hlast _) ?_
    exact consumes_expectName.behind (by decide) fun name => hlast _
  · exact .pure (.refl _)

theorem consumes_readPostfix : Consumes depth 0 (readPostfix rules) := by
  intro known held hheld
  refine looks_currentStart.skip fun start => (consumes_readPrimary hrules).first hheld fun first => ?_
  split
  · exact .done
  · exact (Advances.loop (fun expr _ _ => affords_readSuffix? hrules expr start) first).last

theorem consumes_readUnary : Consumes depth 0 (readUnary rules) := by
  intro known held hheld
  refine looks_currentStart.skip fun start => looks_currentKind.learn fun kind => ?_
  split
  · next op hop =>
    have hkind : kind ≠ .eof := by rintro rfl; cases hop
    refine (moves_advance.at_kind hkind).bind fun _ => ?_
    exact (hrules .unary).behind (by decide) fun operand => (passes_mkExpr _ start).last
  · refine (looks_atSymbol .leftParen).learn fun paren => (looks_ahead looksLikeCast).skip fun cast =>
      .ite (fun _ => ?_) fun _ => consumes_readPostfix hrules hheld
    refine (moves_advance.at_seen (by nofun) (Bool.and_eq_true_iff.mp ‹_›).1).bind fun _ => ?_
    refine (consumes_separated .amp (by decide) (hrules .type)).behind (by decide) fun types => ?_
    refine (consumes_expectSymbol .rightParen).behind (by decide) fun _ => ?_
    exact (hrules .unary).behind (by decide) fun operand => (passes_mkExpr _ start).last

theorem consumes_readVarInit : Consumes depth 4 (readVarInit rules) := by
  intro known held hheld
  refine (looks_atSymbol .leftBrace).skip fun brace => .ite (fun _ => ?_) fun _ => hrules .expr hheld
  refine looks_currentStart.skip fun start => ?_
  refine (consumes_readArrayItems (by decide) (hrules .varInit)).first (Nat.zero_le _) fun items => ?_
  exact (passes_mkExpr _ start).last

end Readers
end LockDiscipline.Grammar
