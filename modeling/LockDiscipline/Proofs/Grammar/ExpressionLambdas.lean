import LockDiscipline.Proofs.Grammar.Lambdas
/-!
# The switch for lambdas in expressions

The readers of types and expressions leave the switch for lambdas as it was, unless they consume the keyword
of a case, as long as the rules that they refer to do. Both can hold a class with statements in it: types in
the arguments of their annotations, and expressions in the bodies of anonymous classes and lambdas.

Parentheses around an expression turn the switch on and back to what it was, whatever stands between them.
-/

namespace LockDiscipline.Grammar

/-- Rules that leave the switch as it was, unless they consume the keyword of a case. -/
def Rules.Restoring (rules : Rules) : Prop :=
  ∀ {α : Type} (nonterminal : Nonterminal α), Restores (rules α nonterminal)

section Readers

variable {rules : Rules} (hrules : rules.Restoring)

/-! ### Types, annotations and modifiers -/

theorem restores_readQualifiedName : Restores readQualifiedName := by
  refine restores_expectName.bind fun first => restores_iterate fun name => ?_
  refine (restores_atSymbol .dot).bind fun dot => (restores_peek 1).bind fun kind => .ite ?_ .pure
  exact restores_advance.bind fun _ => restores_expectName.bind fun _ => .pure

theorem restores_readDims : Restores readDims := by
  refine restores_iterate fun text => (restores_atSymbol .leftBracket).bind fun bracket =>
    (restores_peek 1).bind fun kind => .ite ?_ .pure
  exact restores_advance.bind fun _ => restores_advance.bind fun _ => .pure

include hrules

theorem restores_skipAnnotations : Restores (skipAnnotations rules) := by
  refine (restores_collect ?_).bind fun _ => .pure
  exact (restores_atSymbol .at).bind fun found =>
    .ite ((hrules .annotationUse).bind fun _ => .pure) .pure

theorem restores_readTypeArg : Restores (readTypeArg rules) := by
  have htype (text : String) : Restores (do return text ++ (← rules _ .type)) :=
    (hrules .type).bind fun _ => .pure
  refine (restores_acceptSymbol .question).bind fun wildcard => .ite ?_ (hrules .type)
  refine (restores_acceptKeyword .extends).bind fun bounded => .ite (htype _) ?_
  exact (restores_acceptKeyword .super).bind fun bounded => .ite (htype _) .pure

theorem restores_readTypeArgs : Restores (readTypeArgs rules) := by
  refine (restores_expectSymbol .less).bind fun _ => (restores_acceptSymbol .greater).bind fun empty =>
    .ite .pure ?_
  exact (restores_separated .comma (restores_readTypeArg hrules)).bind fun args =>
    (restores_expectSymbol .greater).bind fun _ => .pure

theorem restores_readTypeName : Restores (readTypeName rules) := by
  refine (restores_iterate fun scan => .ite .pure ?_).bind fun scan => .pure
  refine restores_expectName.bind fun name => (restores_atSymbol .less).bind fun found => ?_
  refine .choose (restores_readTypeArgs hrules) .pure fun args => ?_
  refine (restores_atSymbol .dot).bind fun dot => (restores_peek 1).bind fun kind => .ite ?_ .pure
  exact restores_advance.bind fun _ => .pure

theorem restores_readType : Restores (readType rules) := by
  have hname : Restores (do
      let name ← readTypeName rules
      return name ++ (← readDims)) :=
    (restores_readTypeName hrules).bind fun _ => restores_readDims.bind fun _ => .pure
  refine (restores_skipAnnotations hrules).bind fun _ => restores_currentKind.bind fun kind => ?_
  exact .ite ((restores_failExpected _).bind fun _ => hname) hname

theorem restores_readTypeList : Restores (readTypeList rules) :=
  restores_separated .comma (hrules .type)

theorem restores_readTypeParam : Restores (readTypeParam rules) := by
  refine (restores_skipAnnotations hrules).bind fun _ => restores_expectName.bind fun name =>
    (restores_acceptKeyword .extends).bind fun bounded => .ite ?_ .pure
  exact (restores_separated .amp (hrules .type)).bind fun _ => .pure

theorem restores_readTypeParams : Restores (readTypeParams rules) := by
  refine (restores_acceptSymbol .less).bind fun found => .ite .pure ?_
  exact (restores_separated .comma (restores_readTypeParam hrules)).bind fun params =>
    (restores_expectSymbol .greater).bind fun _ => .pure

omit hrules in
theorem restores_readArrayItems {item : Reader Expr} (h : Restores item) :
    Restores (readArrayItems item) :=
  (restores_expectSymbol .leftBrace).bind fun _ =>
    (restores_enumerated .rightBrace .comma h).bind fun _ =>
      (restores_expectSymbol .rightBrace).bind fun _ => .pure

theorem restores_readElementValue : Restores (readElementValue rules) := by
  refine restores_currentStart.bind fun start => restores_currentKind.bind fun kind => ?_
  split
  · exact (restores_readArrayItems (hrules .elementValue)).bind fun _ => restores_mkExpr _ _
  · exact (hrules .annotationUse).bind fun _ => restores_mkExpr _ _
  · exact hrules .ternary

theorem restores_readNamedArg : Restores (readNamedArg rules) :=
  restores_expectName.bind fun _ => (restores_expectSymbol .assign).bind fun _ =>
    (hrules .elementValue).bind fun _ => .pure

theorem restores_readAnnotationArgs : Restores (readAnnotationArgs rules) := by
  refine (restores_atSymbol .rightParen).bind fun empty => .ite .pure ?_
  refine restores_currentKind.bind fun kind => (restores_peek 1).bind fun next => .ite ?_ ?_
  · exact restores_separated .comma (restores_readNamedArg hrules)
  · exact (hrules .elementValue).bind fun _ => .pure

theorem restores_readAnnotationUse : Restores (readAnnotationUse rules) := by
  refine (restores_expectSymbol .at).bind fun span => restores_readQualifiedName.bind fun name =>
    (restores_acceptSymbol .leftParen).bind fun found => .ite ?_ ?_
  · exact (restores_readAnnotationArgs hrules).bind fun args =>
      (restores_expectSymbol .rightParen).bind fun _ => (restores_spanFrom _).bind fun _ => .pure
  · exact (restores_spanFrom _).bind fun _ => .pure

theorem restores_readModifiers : Restores (readModifiers rules) := by
  refine (restores_iterate fun modifiers => ?_).bind fun modifiers => .pure
  refine restores_currentKind.bind fun kind => ?_
  split
  · exact (restores_peek 1).bind fun next => .ite .pure ((hrules .annotationUse).bind fun _ => .pure)
  · exact .ite (restores_advance.bind fun _ => .pure) .pure
  · exact .pure

/-! ### Expressions -/

theorem restores_readExpr : Restores (readExpr rules) := by
  refine restores_currentStart.bind fun start => (hrules .ternary).bind fun target =>
    restores_currentKind.bind fun kind => ?_
  cases assignOperator? kind with
  | some op =>
      exact restores_advance.bind fun _ => (hrules .expr).bind fun value => restores_mkExpr _ _
  | none => exact .pure

theorem restores_readTernary : Restores (readTernary rules) := by
  refine restores_currentStart.bind fun start => (hrules (.binary 0)).bind fun cond =>
    (restores_acceptSymbol .question).bind fun found => .ite ?_ .pure
  exact (hrules .expr).bind fun whenTrue => (restores_expectSymbol .colon).bind fun _ =>
    (hrules .ternary).bind fun whenFalse => restores_mkExpr _ _

theorem restores_readInstanceOf (operand : Expr) (start : Nat) :
    Restores (readInstanceOf rules operand start) := by
  refine restores_advance.bind fun _ => (restores_acceptKeyword .final).bind fun _ =>
    (hrules .type).bind fun type => restores_currentKind.bind fun kind => ?_
  exact .ite (restores_advance.bind fun _ => restores_mkExpr _ _) (restores_mkExpr _ _)

omit hrules in
theorem restores_advanceBy (count : Nat) : Restores (advanceBy count) := by
  induction count with
  | zero => exact .pure
  | succ count ih => exact restores_advance.bind fun _ => ih

theorem restores_readBinary (least : Nat) : Restores (readBinary rules least) := by
  refine restores_currentStart.bind fun start => (hrules .unary).bind fun first =>
    restores_iterate fun left => ?_
  refine (restores_atKeyword .instanceof).bind fun found => .ite (.ite .pure ?_) ?_
  · exact (restores_readInstanceOf hrules left start).bind fun _ => .pure
  · refine restores_get.bind fun cursor => ?_
    cases binaryOperator? cursor.rest with
    | none => exact .pure
    | some operator =>
        refine .ite .pure ((restores_advanceBy operator.2).bind fun _ => ?_)
        exact (hrules (.binary _)).bind fun right => (restores_mkExpr _ _).bind fun _ => .pure

theorem restores_readArgs : Restores (readArgs rules) :=
  (restores_expectSymbol .leftParen).bind fun _ =>
    (restores_enumerated .rightParen .comma (hrules .expr)).bind fun _ =>
      (restores_expectSymbol .rightParen).bind fun _ => .pure

omit hrules in
theorem restores_requireTypeName (expr : Expr) : Restores (requireTypeName expr) := by
  unfold requireTypeName
  split
  · exact .pure
  · exact .throw _

theorem restores_readAnonymousBody (superclass : String) (start : Nat) :
    Restores (readAnonymousBody rules superclass start) :=
  restores_freshId.bind fun _ => (hrules (.classBody "" false)).bind fun _ =>
    (restores_spanFrom start).bind fun _ => .pure

theorem restores_readArrayDims : Restores (readArrayDims rules) := by
  refine (restores_collect ?_).bind fun dims => .pure
  refine (restores_acceptSymbol .leftBracket).bind fun found => .ite ?_ .pure
  refine (restores_acceptSymbol .rightBracket).bind fun empty => .ite .pure ?_
  exact (hrules .expr).bind fun dim => (restores_expectSymbol .rightBracket).bind fun _ => .pure

theorem restores_readNew (start : Nat) : Restores (readNew rules start) := by
  refine (restores_expectKeyword .new).bind fun _ => (restores_skipAnnotations hrules).bind fun _ =>
    (restores_readTypeName hrules).bind fun type => (restores_atSymbol .leftBracket).bind fun isArray =>
      .ite ?_ ?_
  · exact (restores_readArrayDims hrules).bind fun dims => (restores_atSymbol .leftBrace).bind fun found =>
      ((restores_readArrayItems (hrules .varInit)).readWhen found).bind fun init => restores_mkExpr _ _
  · exact (restores_readArgs hrules).bind fun args => (restores_atSymbol .leftBrace).bind fun found =>
      ((restores_readAnonymousBody hrules type start).readWhen found).bind fun body => restores_mkExpr _ _

omit hrules in
theorem restores_readLambdaParams : Restores readLambdaParams := by
  refine (restores_iterate fun scan => ?_).bind fun scan => .pure
  refine restores_currentKind.bind fun kind => ?_
  split
  · exact .pure
  · exact .pure
  · exact restores_advance.bind fun _ => .ite .pure .pure
  all_goals exact restores_advance.bind fun _ => .pure

theorem restores_readLambda (start : Nat) : Restores (readLambda rules start) := by
  have hbody (params : List String) : Restores (do
      let _ ← expectSymbol .arrow
      let body ← if ← atSymbol .leftBrace then LambdaBody.block <$> rules _ .block
        else LambdaBody.expr <$> rules _ .expr
      mkExpr (.lambda params body) start) := by
    refine (restores_expectSymbol .arrow).bind fun _ => (restores_atSymbol .leftBrace).bind fun found => ?_
    exact .choose (hrules .block).map (hrules .expr).map fun body => restores_mkExpr _ _
  refine restores_currentKind.bind fun kind => ?_
  split
  · exact restores_advance.bind fun _ => hbody _
  · exact (restores_expectSymbol .leftParen).bind fun _ => restores_readLambdaParams.bind fun names =>
      (restores_expectSymbol .rightParen).bind fun _ => hbody names

/-- The name was consumed; arguments may follow it. -/
theorem restores_readCallOr (call : List Expr → ExprKind) (plain : ExprKind) (start : Nat) :
    Restores (do
      if ← atSymbol .leftParen then
        let args ← readArgs rules
        mkExpr (call args) start
      else mkExpr plain start) :=
  (restores_atSymbol .leftParen).bind fun _ =>
    .ite ((restores_readArgs hrules).bind fun _ => restores_mkExpr _ _) (restores_mkExpr _ _)

theorem restores_readSelf (name : String) (kind : ExprKind) (start : Nat) :
    Restores (readSelf rules name kind start) :=
  restores_advance.bind fun _ => restores_readCallOr hrules (.call none name) kind start

omit hrules in
theorem restores_readLiteral (kind : ExprKind) (start : Nat) : Restores (readLiteral kind start) :=
  restores_advance.bind fun _ => restores_mkExpr _ _

theorem restores_readNameOrCall (name : String) (start : Nat) :
    Restores (readNameOrCall rules name start) := by
  refine restores_get.bind fun cursor => (restores_peek 1).bind fun next =>
    .ite (restores_readLambda hrules start) (restores_advance.bind fun _ => ?_)
  exact restores_readCallOr hrules (.call none name) (.name name) start

omit hrules in
/-- What stands in parentheses begins a lambda if the switch is on, or it is read with the switch on and then
the switch is put back. -/
theorem cursorAfter_readParenthesized (start : Nat) (cursor : Cursor) :
    cursorAfter (readParenthesized rules start) cursor =
      if cursor.lambdas && looksLikeLambda cursor.rest then cursorAfter (readLambda rules start) cursor
      else cursorAfter (do
        let inner ← withLambdas true cursor.lambdas (rules _ .expr)
        let _ ← expectSymbol .rightParen
        mkExpr (.paren inner) start) cursor.advance := by
  obtain ⟨lambda, hahead, rfl⟩ := looks_ahead looksLikeLambda cursor
  rw [readParenthesized, cursorAfter_bind, EStateM.run_get]
  dsimp only
  rw [cursorAfter_bind, hahead]
  dsimp only
  split
  · rfl
  · rfl

theorem restores_readParenthesized (start : Nat) : Restores (readParenthesized rules start) := by
  intro cursor
  rw [cursorAfter_readParenthesized]
  split
  · exact restores_readLambda hrules start cursor
  · refine (Restored.advance cursor).trans (Restored.bind ?_ fun inner => ?_)
    · exact (hrules .expr).withLambdas true (lambdas_advance cursor).symm
    · exact (restores_expectSymbol .rightParen).bind fun _ => restores_mkExpr _ _

/-- Parentheses leave the switch as it was, whatever stands between them and whether or not they are closed. -/
theorem lambdas_readParenthesized (start : Nat) (cursor : Cursor) :
    (cursorAfter (readParenthesized rules start) cursor).lambdas = cursor.lambdas := by
  rw [cursorAfter_readParenthesized]
  split
  · next hlambda =>
    have hset : cursor.lambdas = true := (Bool.and_eq_true_iff.mp hlambda).1
    rw [hset]
    exact (restores_readLambda hrules start cursor).lambdas_eq_true hset
  · refine lambdas_cursorAfter_bind (by rw [cursorAfter_withLambdas]) fun inner middle => ?_
    exact lambdas_cursorAfter_bind ((expects_expectSymbol .rightParen).lambdas_eq middle) fun _ _ => rfl

theorem restores_readPrimary : Restores (readPrimary rules) := by
  refine restores_currentStart.bind fun start => restores_currentKind.bind fun kind => ?_
  cases literal? kind with
  | some literal => exact restores_readLiteral literal start
  | none =>
      dsimp only
      split
      · exact restores_readSelf hrules _ _ start
      · exact restores_readSelf hrules _ _ start
      · exact restores_readNew hrules start
      · exact restores_readNameOrCall hrules _ start
      · exact restores_readParenthesized hrules start
      · exact restores_advance.bind fun _ => (restores_expectSymbol .dot).bind fun _ =>
          (restores_expectKeyword .class).bind fun _ => restores_mkExpr _ _
      · exact restores_failExpected _

theorem restores_readAfterDot (object : Expr) (start : Nat) :
    Restores (readAfterDot rules object start) := by
  refine restores_currentKind.bind fun kind => ?_
  split
  · exact restores_advance.bind fun _ => restores_readCallOr hrules (.call (some object) _) _ start
  · exact (restores_readTypeArgs hrules).bind fun _ => restores_expectName.bind fun _ =>
      (restores_readArgs hrules).bind fun _ => restores_mkExpr _ _
  · exact (restores_requireTypeName object).bind fun _ => restores_advance.bind fun _ => restores_mkExpr _ _
  · exact (restores_requireTypeName object).bind fun _ => restores_advance.bind fun _ => restores_mkExpr _ _
  · exact restores_advance.bind fun _ => restores_mkExpr _ _
  · exact restores_readNew hrules start
  · exact restores_failExpected _

theorem restores_readSuffix? (expr : Expr) (start : Nat) : Restores (readSuffix? rules expr start) := by
  have hmake (kind : ExprKind) : Restores (do return some (← mkExpr kind start)) :=
    (restores_mkExpr kind start).bind fun _ => .pure
  refine restores_currentKind.bind fun kind => ?_
  split
  · exact restores_advance.bind fun _ => (restores_readAfterDot hrules expr start).bind fun _ => .pure
  · refine (restores_peek 1).bind fun next => .ite ?_ (restores_advance.bind fun _ => ?_)
    · exact (restores_requireTypeName expr).bind fun _ => restores_readDims.bind fun _ =>
        (restores_expectSymbol .dot).bind fun _ => (restores_expectKeyword .class).bind fun _ => hmake _
    · exact (hrules .expr).bind fun _ => (restores_expectSymbol .rightBracket).bind fun _ => hmake _
  · exact restores_advance.bind fun _ => hmake _
  · exact restores_advance.bind fun _ => hmake _
  · refine restores_advance.bind fun _ => (restores_acceptKeyword .new).bind fun found => ?_
    exact .choose .pure restores_expectName fun _ => hmake _
  · exact .pure

theorem restores_readPostfix : Restores (readPostfix rules) := by
  refine restores_currentStart.bind fun start => (restores_readPrimary hrules).bind fun first => ?_
  split
  · exact .pure
  · exact restores_iterate fun expr => restores_readSuffix? hrules expr start

theorem restores_readUnary : Restores (readUnary rules) := by
  refine restores_currentStart.bind fun start => restores_currentKind.bind fun kind => ?_
  cases unaryOperator? kind with
  | some op => exact restores_advance.bind fun _ => (hrules .unary).bind fun _ => restores_mkExpr _ _
  | none =>
      refine (restores_atSymbol .leftParen).bind fun paren => (restores_ahead looksLikeCast).bind
        fun cast => .ite (restores_advance.bind fun _ => ?_) (restores_readPostfix hrules)
      exact (restores_separated .amp (hrules .type)).bind fun _ =>
        (restores_expectSymbol .rightParen).bind fun _ => (hrules .unary).bind fun _ => restores_mkExpr _ _

theorem restores_readVarInit : Restores (readVarInit rules) := by
  refine (restores_atSymbol .leftBrace).bind fun found => .ite ?_ (hrules .expr)
  exact restores_currentStart.bind fun start =>
    (restores_readArrayItems (hrules .varInit)).bind fun _ => restores_mkExpr _ _

end Readers

end LockDiscipline.Grammar
