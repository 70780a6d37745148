import LockDiscipline.Proofs.Grammar.ExpressionSpans
import LockDiscipline.Proofs.Grammar.Relocation
/-!
# Expressions that stand elsewhere

The readers of types and expressions go along with a relocation of the tokens, as long as the rules that they
refer to do. Types are read into texts, which have no positions. The one error that is not at the next token
is at an expression that was read before, so where it may occur the layout of expressions comes in.
-/

namespace LockDiscipline.Grammar

/-- What a nonterminal is read into, relocated. -/
def Nonterminal.change (move : Relocation) : {α : Type} → Nonterminal α → α → α
  | _, .expr | _, .ternary | _, .binary _ | _, .unary | _, .elementValue | _, .varInit =>
      Expr.retouch (.relocate move)
  | _, .type => fun text => text
  | _, .annotationUse => AnnotationUse.retouch (.relocate move)
  | _, .stmt => Stmt.retouch (.relocate move)
  | _, .block => List.map (Stmt.retouch (.relocate move))
  | _, .classBody .. => List.map (Member.retouch (.relocate move))

/-- Rules that go along with a relocation. -/
def Rules.Relocating (tokens : List Token) (move : Relocation) (rules : Rules) : Prop :=
  ∀ {α : Type} (nonterminal : Nonterminal α),
    Relocates tokens move (nonterminal.change move) (rules α nonterminal) (rules α nonterminal)

section Readers

variable {tokens : List Token} {move : Relocation}

theorem relocates_mkExpr {kind kind' : ExprKind} (hkind : kind' = kind.retouch (.relocate move))
    (start : Nat) :
    Relocates tokens move (Expr.retouch (.relocate move)) (mkExpr kind start)
      (mkExpr kind' (move.start start)) := by
  apply steady_freshId.skip
  intro id
  apply (relocates_spanFrom start).bind
  intro span
  exact .pure (by rw [hkind, Expr.retouch_mk]; rfl)

theorem relocates_requireTypeName {expr : Expr} (hplaced : expr.span.Placed tokens) :
    Relocates tokens move (fun name => name) (requireTypeName expr)
      (requireTypeName (expr.retouch (.relocate move))) := by
  unfold requireTypeName
  rw [Retouch.dottedName?_expr]
  cases expr.dottedName? with
  | some name => exact .pure rfl
  | none => exact .throw (by simp [SyntaxError.relocate]) hplaced

/-! ### Types, annotations and modifiers -/

theorem steady_readQualifiedName : Steady tokens move readQualifiedName := by
  apply steady_expectName.skip
  intro first
  apply steady_iterate
  intro name
  apply (steady_atSymbol .dot).skip
  intro dot
  apply (steady_peek 1).skip
  intro kind
  apply Relocates.ite
  · exact steady_advance.skip fun _ => steady_expectName.skip fun _ => .pure rfl
  · exact .pure rfl

theorem steady_readDims : Steady tokens move readDims := by
  apply steady_iterate
  intro text
  apply (steady_atSymbol .leftBracket).skip
  intro bracket
  apply (steady_peek 1).skip
  intro kind
  apply Relocates.ite
  · exact steady_advance.skip fun _ => steady_advance.skip fun _ => .pure rfl
  · exact .pure rfl

variable {rules : Rules} (hrules : rules.Relocating tokens move)
include hrules

theorem steady_type : Steady tokens move (rules _ .type) :=
  hrules .type

theorem steady_skipAnnotations : Steady tokens move (skipAnnotations rules) := by
  have huse : Relocates tokens move (Option.map (AnnotationUse.retouch (.relocate move)))
      (do if ← atSymbol .at then return some (← rules _ .annotationUse) else return none)
      (do if ← atSymbol .at then return some (← rules _ .annotationUse) else return none) := by
    apply (steady_atSymbol .at).skip
    intro found
    apply Relocates.ite
    · exact (hrules .annotationUse).bind fun _ => .pure rfl
    · exact .pure rfl
  exact (relocates_collect huse).bind fun _ => .pure rfl

theorem steady_readTypeArg : Steady tokens move (readTypeArg rules) := by
  have htype (text : String) : Steady tokens move (do return text ++ (← rules _ .type)) :=
    (steady_type hrules).skip fun _ => .pure rfl
  apply (steady_acceptSymbol .question).skip
  intro wildcard
  apply Relocates.ite
  · apply (steady_acceptKeyword .extends).skip
    intro bounded
    apply Relocates.ite (htype _)
    apply (steady_acceptKeyword .super).skip
    intro bounded
    exact .ite (htype _) (.pure rfl)
  · exact steady_type hrules

theorem steady_readTypeArgs : Steady tokens move (readTypeArgs rules) := by
  apply (relocates_expectSymbol .less).bind
  intro _
  apply (steady_acceptSymbol .greater).skip
  intro empty
  apply Relocates.ite (.pure rfl)
  apply (steady_separated .comma (steady_readTypeArg hrules)).skip
  intro args
  exact (relocates_expectSymbol .greater).bind fun _ => .pure rfl

theorem steady_readTypeName : Steady tokens move (readTypeName rules) := by
  apply (steady_iterate _).skip
  · intro scan
    exact .pure rfl
  · intro scan
    apply Relocates.ite (.pure rfl)
    apply steady_expectName.skip
    intro name
    apply (steady_atSymbol .less).skip
    intro found
    apply Relocates.choose (steady_readTypeArgs hrules) (.pure rfl)
    intro args
    apply (steady_atSymbol .dot).skip
    intro dot
    apply (steady_peek 1).skip
    intro kind
    exact .ite (steady_advance.skip fun _ => .pure rfl) (.pure rfl)

theorem steady_readType : Steady tokens move (readType rules) := by
  have hname : Steady tokens move (do
      let name ← readTypeName rules
      return name ++ (← readDims)) :=
    (steady_readTypeName hrules).skip fun _ => steady_readDims.skip fun _ => .pure rfl
  apply (steady_skipAnnotations hrules).skip
  intro _
  apply steady_currentKind.skip
  intro kind
  have hfail : Steady tokens move (failExpected .type : Reader PUnit) := relocates_failExpected _
  exact .ite (hfail.skip fun _ => hname) hname

theorem steady_readTypeList : Steady tokens move (readTypeList rules) :=
  steady_separated .comma (steady_type hrules)

theorem steady_readTypeParam : Steady tokens move (readTypeParam rules) := by
  apply (steady_skipAnnotations hrules).skip
  intro _
  apply steady_expectName.skip
  intro name
  apply (steady_acceptKeyword .extends).skip
  intro bounded
  apply Relocates.ite
  · exact (steady_separated .amp (steady_type hrules)).skip fun _ => .pure rfl
  · exact .pure rfl

theorem steady_readTypeParams : Steady tokens move (readTypeParams rules) := by
  apply (steady_acceptSymbol .less).skip
  intro found
  apply Relocates.ite (.pure rfl)
  apply (steady_separated .comma (steady_readTypeParam hrules)).skip
  intro params
  exact (relocates_expectSymbol .greater).bind fun _ => .pure rfl

omit hrules in
theorem relocates_readArrayItems {item : Reader Expr}
    (h : Relocates tokens move (Expr.retouch (.relocate move)) item item) :
    Relocates tokens move (List.map (Expr.retouch (.relocate move))) (readArrayItems item)
      (readArrayItems item) := by
  apply (relocates_expectSymbol .leftBrace).bind
  intro _
  apply (relocates_enumerated .rightBrace .comma h).bind
  intro items
  exact (relocates_expectSymbol .rightBrace).bind fun _ => .pure rfl

theorem relocates_readElementValue :
    Relocates tokens move (Expr.retouch (.relocate move)) (readElementValue rules)
      (readElementValue rules) := by
  apply relocates_currentStart.bind
  intro start
  apply steady_currentKind.skip
  intro kind
  split
  · apply (relocates_readArrayItems (hrules .elementValue)).bind
    intro items
    exact relocates_mkExpr (by simp [ExprKind.retouch]) start
  · apply (hrules .annotationUse).bind
    intro _
    exact relocates_mkExpr rfl start
  · exact hrules .ternary

theorem relocates_readNamedArg :
    Relocates tokens move (AnnotationArg.retouch (.relocate move)) (readNamedArg rules)
      (readNamedArg rules) := by
  apply steady_expectName.skip
  intro name
  apply (relocates_expectSymbol .assign).bind
  intro _
  exact (hrules .elementValue).bind fun _ => .pure rfl

theorem relocates_readAnnotationArgs :
    Relocates tokens move (List.map (AnnotationArg.retouch (.relocate move))) (readAnnotationArgs rules)
      (readAnnotationArgs rules) := by
  apply (steady_atSymbol .rightParen).skip
  intro empty
  apply Relocates.ite (.pure rfl)
  apply steady_currentKind.skip
  intro kind
  apply (steady_peek 1).skip
  intro next
  apply Relocates.ite
  · exact relocates_separated .comma (relocates_readNamedArg hrules)
  · exact (hrules .elementValue).bind fun _ => .pure rfl

theorem relocates_readAnnotationUse :
    Relocates tokens move (AnnotationUse.retouch (.relocate move)) (readAnnotationUse rules)
      (readAnnotationUse rules) := by
  apply (relocates_expectSymbol .at).bind
  intro sign
  apply steady_readQualifiedName.skip
  intro name
  apply (steady_acceptSymbol .leftParen).skip
  intro found
  apply Relocates.ite
  · apply (relocates_readAnnotationArgs hrules).bind
    intro args
    apply (relocates_expectSymbol .rightParen).bind
    intro _
    apply (relocates_spanFrom sign.start).bind
    intro span
    exact .pure (by simp [AnnotationUse.retouch])
  · exact (relocates_spanFrom sign.start).bind fun _ => .pure rfl

theorem relocates_readModifiers :
    Relocates tokens move (Modifiers.retouch (.relocate move)) (readModifiers rules)
      (readModifiers rules) := by
  apply (relocates_iterate (Modifiers.retouch (.relocate move)) rfl _).bind
  · rintro ⟨keywords, annotations⟩
    exact .pure (by simp [Modifiers.retouch])
  · rintro ⟨keywords, annotations⟩
    apply steady_currentKind.skip
    intro kind
    split
    · apply (steady_peek 1).skip
      intro next
      apply Relocates.ite (.pure rfl)
      exact (hrules .annotationUse).bind fun _ => .pure rfl
    · exact .ite (steady_advance.skip fun _ => .pure rfl) (.pure rfl)
    · exact .pure rfl

/-! ### Expressions -/

theorem relocates_readExpr :
    Relocates tokens move (Expr.retouch (.relocate move)) (readExpr rules) (readExpr rules) := by
  apply relocates_currentStart.bind
  intro start
  apply (hrules .ternary).bind
  intro target
  apply steady_currentKind.skip
  intro kind
  cases assignOperator? kind with
  | some op =>
      apply steady_advance.skip
      intro _
      exact (hrules .expr).bind fun value => relocates_mkExpr rfl start
  | none => exact .pure rfl

theorem relocates_readTernary :
    Relocates tokens move (Expr.retouch (.relocate move)) (readTernary rules) (readTernary rules) := by
  apply relocates_currentStart.bind
  intro start
  apply (hrules (.binary 0)).bind
  intro cond
  apply (steady_acceptSymbol .question).skip
  intro found
  apply Relocates.ite
  · apply (hrules .expr).bind
    intro whenTrue
    apply (relocates_expectSymbol .colon).bind
    intro _
    exact (hrules .ternary).bind fun whenFalse => relocates_mkExpr rfl start
  · exact .pure rfl

theorem relocates_readInstanceOf (operand : Expr) (start : Nat) :
    Relocates tokens move (Expr.retouch (.relocate move)) (readInstanceOf rules operand start)
      (readInstanceOf rules (operand.retouch (.relocate move)) (move.start start)) := by
  apply steady_advance.skip
  intro _
  apply (steady_acceptKeyword .final).skip
  intro _
  apply (steady_type hrules).skip
  intro type
  apply steady_currentKind.skip
  intro kind
  exact .ite (steady_advance.skip fun _ => relocates_mkExpr rfl start) (relocates_mkExpr rfl start)

omit hrules in
theorem steady_advanceBy (count : Nat) : Steady tokens move (advanceBy count) := by
  induction count with
  | zero => exact .pure rfl
  | succ count ih => exact steady_advance.skip fun _ => ih

theorem relocates_readBinary (least : Nat) :
    Relocates tokens move (Expr.retouch (.relocate move)) (readBinary rules least)
      (readBinary rules least) := by
  apply relocates_currentStart.bind
  intro start
  apply (hrules .unary).bind
  intro first
  apply relocates_iterate (Expr.retouch (.relocate move)) rfl
  intro left
  apply (steady_atKeyword .instanceof).skip
  intro found
  apply Relocates.ite
  · apply Relocates.ite (.pure rfl)
    exact (relocates_readInstanceOf hrules left start).bind fun _ => .pure rfl
  · apply relocates_get
    intro cursor hcursor
    have hoperator : binaryOperator? (cursor.relocate move).rest = binaryOperator? cursor.rest :=
      binaryOperator?_relocate hcursor.faithful
    rw [hoperator]
    cases binaryOperator? cursor.rest with
    | none => exact .pure rfl
    | some operator =>
        apply Relocates.ite (.pure rfl)
        apply (steady_advanceBy operator.2).skip
        intro _
        apply (hrules (.binary _)).bind
        intro right
        exact (relocates_mkExpr rfl start).bind fun _ => .pure rfl

theorem relocates_readArgs :
    Relocates tokens move (List.map (Expr.retouch (.relocate move))) (readArgs rules) (readArgs rules) := by
  apply (relocates_expectSymbol .leftParen).bind
  intro _
  apply (relocates_enumerated .rightParen .comma (hrules .expr)).bind
  intro args
  exact (relocates_expectSymbol .rightParen).bind fun _ => .pure rfl

theorem relocates_readAnonymousBody (superclass : String) (start : Nat) :
    Relocates tokens move (ClassDecl.retouch (.relocate move)) (readAnonymousBody rules superclass start)
      (readAnonymousBody rules superclass (move.start start)) := by
  apply steady_freshId.skip
  intro id
  apply (hrules (.classBody "" false)).bind
  intro members
  apply (relocates_spanFrom start).bind
  intro span
  exact .pure (by simp [ClassDecl.retouch, Modifiers.retouch, Nonterminal.change])

theorem relocates_readArrayDims :
    Relocates tokens move (List.map (Expr.retouch (.relocate move))) (readArrayDims rules)
      (readArrayDims rules) := by
  let change := Option.map (Expr.retouch (.relocate move))
  let readDim? : Reader (Option (Option Expr)) := do
    if ← acceptSymbol .leftBracket then
      if ← acceptSymbol .rightBracket then return some none
      let dim ← rules _ .expr
      let _ ← expectSymbol .rightBracket
      return some (some dim)
    else return none
  have hdim : Relocates tokens move (Option.map change) readDim? readDim? := by
    apply (steady_acceptSymbol .leftBracket).skip
    intro found
    apply Relocates.ite
    · apply (steady_acceptSymbol .rightBracket).skip
      intro empty
      apply Relocates.ite (.pure rfl)
      apply (hrules .expr).bind
      intro dim
      exact (relocates_expectSymbol .rightBracket).bind fun _ => .pure rfl
    · exact .pure rfl
  apply (relocates_collect hdim).bind
  intro dims
  exact .pure (by simp [change, List.filterMap_map, List.map_filterMap])

theorem relocates_readNew (start : Nat) :
    Relocates tokens move (Expr.retouch (.relocate move)) (readNew rules start)
      (readNew rules (move.start start)) := by
  apply (relocates_expectKeyword .new).bind
  intro _
  apply (steady_skipAnnotations hrules).skip
  intro _
  apply (steady_readTypeName hrules).skip
  intro type
  apply (steady_atSymbol .leftBracket).skip
  intro isArray
  apply Relocates.ite
  · apply (relocates_readArrayDims hrules).bind
    intro dims
    apply (steady_atSymbol .leftBrace).skip
    intro found
    apply ((relocates_readArrayItems (hrules .varInit)).readWhen found).bind
    intro init
    exact relocates_mkExpr (by simp [ExprKind.retouch]) start
  · apply (relocates_readArgs hrules).bind
    intro args
    apply (steady_atSymbol .leftBrace).skip
    intro found
    apply ((relocates_readAnonymousBody hrules type start).readWhen found).bind
    intro body
    exact relocates_mkExpr (by simp [ExprKind.retouch]) start

omit hrules in
theorem steady_readLambdaParams : Steady tokens move readLambdaParams := by
  apply (steady_iterate _).skip
  · intro scan
    exact .pure rfl
  · intro scan
    apply steady_currentKind.skip
    intro kind
    split
    · exact .pure rfl
    · exact .pure rfl
    · exact steady_advance.skip fun _ => .ite (.pure rfl) (.pure rfl)
    all_goals exact steady_advance.skip fun _ => .pure rfl

theorem relocates_readLambda (start : Nat) :
    Relocates tokens move (Expr.retouch (.relocate move)) (readLambda rules start)
      (readLambda rules (move.start start)) := by
  have hbody (params : List String) : Relocates tokens move (Expr.retouch (.relocate move))
      (do
        let _ ← expectSymbol .arrow
        let body ← if ← atSymbol .leftBrace then LambdaBody.block <$> rules _ .block
          else LambdaBody.expr <$> rules _ .expr
        mkExpr (.lambda params body) start)
      (do
        let _ ← expectSymbol .arrow
        let body ← if ← atSymbol .leftBrace then LambdaBody.block <$> rules _ .block
          else LambdaBody.expr <$> rules _ .expr
        mkExpr (.lambda params body) (move.start start)) := by
    have hblock : Relocates tokens move (LambdaBody.retouch (.relocate move))
        (LambdaBody.block <$> rules _ .block) (LambdaBody.block <$> rules _ .block) :=
      (hrules .block).map fun body => by simp [LambdaBody.retouch, Nonterminal.change]
    have hexpr : Relocates tokens move (LambdaBody.retouch (.relocate move))
        (LambdaBody.expr <$> rules _ .expr) (LambdaBody.expr <$> rules _ .expr) :=
      (hrules .expr).map fun _ => rfl
    apply (relocates_expectSymbol .arrow).bind
    intro _
    apply (steady_atSymbol .leftBrace).skip
    intro found
    exact .choose hblock hexpr fun body => relocates_mkExpr rfl start
  apply steady_currentKind.skip
  intro kind
  split
  · exact steady_advance.skip fun _ => hbody _
  · apply (relocates_expectSymbol .leftParen).bind
    intro _
    apply steady_readLambdaParams.skip
    intro names
    exact (relocates_expectSymbol .rightParen).bind fun _ => hbody names

theorem relocates_readSelf (name : String) {kind : ExprKind} (hkind : kind = kind.retouch (.relocate move))
    (start : Nat) :
    Relocates tokens move (Expr.retouch (.relocate move)) (readSelf rules name kind start)
      (readSelf rules name kind (move.start start)) := by
  apply steady_advance.skip
  intro _
  apply (steady_atSymbol .leftParen).skip
  intro found
  apply Relocates.ite
  · exact (relocates_readArgs hrules).bind fun args =>
      relocates_mkExpr (by simp [ExprKind.retouch]) start
  · exact relocates_mkExpr hkind start

omit hrules in
theorem relocates_readLiteral {kind : ExprKind} (hkind : kind = kind.retouch (.relocate move)) (start : Nat) :
    Relocates tokens move (Expr.retouch (.relocate move)) (readLiteral kind start)
      (readLiteral kind (move.start start)) :=
  steady_advance.skip fun _ => relocates_mkExpr hkind start

theorem relocates_readNameOrCall (name : String) (start : Nat) :
    Relocates tokens move (Expr.retouch (.relocate move)) (readNameOrCall rules name start)
      (readNameOrCall rules name (move.start start)) := by
  apply relocates_get
  intro cursor _
  apply (steady_peek 1).skip
  intro next
  apply Relocates.ite (relocates_readLambda hrules start)
  apply steady_advance.skip
  intro _
  apply (steady_atSymbol .leftParen).skip
  intro found
  apply Relocates.ite
  · exact (relocates_readArgs hrules).bind fun args =>
      relocates_mkExpr (by simp [ExprKind.retouch]) start
  · exact relocates_mkExpr rfl start

theorem relocates_readParenthesized (start : Nat) :
    Relocates tokens move (Expr.retouch (.relocate move)) (readParenthesized rules start)
      (readParenthesized rules (move.start start)) := by
  apply relocates_get
  intro cursor _
  apply (steady_ahead looksLikeLambda_relocate).skip
  intro found
  apply Relocates.ite (relocates_readLambda hrules start)
  apply steady_advance.skip
  intro _
  apply ((hrules .expr).withLambdas true cursor.lambdas).bind
  intro inner
  exact (relocates_expectSymbol .rightParen).bind fun _ => relocates_mkExpr rfl start

omit hrules in
theorem retouch_of_literal? (retouch : Retouch) {token : TokenKind} {kind : ExprKind}
    (h : literal? token = some kind) : kind = kind.retouch retouch := by
  cases token with
  | int | float | string | char | bool | null =>
      rw [← Option.some.inj h]
      rfl
  | _ => cases h

theorem relocates_readPrimary :
    Relocates tokens move (Expr.retouch (.relocate move)) (readPrimary rules) (readPrimary rules) := by
  apply relocates_currentStart.bind
  intro start
  apply steady_currentKind.skip
  intro kind
  cases hliteral : literal? kind with
  | some literal => exact relocates_readLiteral (retouch_of_literal? _ hliteral) start
  | none =>
      dsimp only
      split
      · exact relocates_readSelf hrules "this" rfl start
      · exact relocates_readSelf hrules "super" rfl start
      · exact relocates_readNew hrules start
      · exact relocates_readNameOrCall hrules _ start
      · exact relocates_readParenthesized hrules start
      · apply steady_advance.skip
        intro _
        apply (relocates_expectSymbol .dot).bind
        intro _
        exact (relocates_expectKeyword .class).bind fun _ => relocates_mkExpr rfl start
      · exact relocates_failExpected _

theorem relocates_readAfterDot {object : Expr} (hplaced : object.span.Placed tokens) (start : Nat) :
    Relocates tokens move (Expr.retouch (.relocate move)) (readAfterDot rules object start)
      (readAfterDot rules (object.retouch (.relocate move)) (move.start start)) := by
  apply steady_currentKind.skip
  intro kind
  split
  · apply steady_advance.skip
    intro _
    apply (steady_atSymbol .leftParen).skip
    intro found
    apply Relocates.ite
    · exact (relocates_readArgs hrules).bind fun args =>
        relocates_mkExpr (by simp [ExprKind.retouch]) start
    · exact relocates_mkExpr rfl start
  · apply (steady_readTypeArgs hrules).skip
    intro _
    apply steady_expectName.skip
    intro method
    exact (relocates_readArgs hrules).bind fun args =>
      relocates_mkExpr (by simp [ExprKind.retouch]) start
  · apply (relocates_requireTypeName hplaced).bind
    intro qualifier
    exact steady_advance.skip fun _ => relocates_mkExpr rfl start
  · apply (relocates_requireTypeName hplaced).bind
    intro type
    exact steady_advance.skip fun _ => relocates_mkExpr rfl start
  · exact steady_advance.skip fun _ => relocates_mkExpr rfl start
  · exact relocates_readNew hrules start
  · exact relocates_failExpected _

theorem relocates_readSuffix? {expr : Expr} (hplaced : expr.span.Placed tokens) (start : Nat) :
    Relocates tokens move (Option.map (Expr.retouch (.relocate move))) (readSuffix? rules expr start)
      (readSuffix? rules (expr.retouch (.relocate move)) (move.start start)) := by
  have hnode {kind kind' : ExprKind} (hkind : kind' = kind.retouch (.relocate move)) :
      Relocates tokens move (Option.map (Expr.retouch (.relocate move)))
        (do return some (← mkExpr kind start)) (do return some (← mkExpr kind' (move.start start))) :=
    (relocates_mkExpr hkind start).bind fun _ => .pure rfl
  apply steady_currentKind.skip
  intro kind
  split
  · apply steady_advance.skip
    intro _
    exact (relocates_readAfterDot hrules hplaced start).bind fun _ => .pure rfl
  · apply (steady_peek 1).skip
    intro next
    apply Relocates.ite
    · apply (relocates_requireTypeName hplaced).bind
      intro type
      apply steady_readDims.skip
      intro dims
      apply (relocates_expectSymbol .dot).bind
      intro _
      exact (relocates_expectKeyword .class).bind fun _ => hnode rfl
    · apply steady_advance.skip
      intro _
      apply (hrules .expr).bind
      intro index
      exact (relocates_expectSymbol .rightBracket).bind fun _ => hnode rfl
  · exact steady_advance.skip fun _ => hnode rfl
  · exact steady_advance.skip fun _ => hnode rfl
  · apply steady_advance.skip
    intro _
    apply (steady_acceptKeyword .new).skip
    intro found
    apply Relocates.ite
    · exact hnode rfl
    · exact steady_expectName.skip fun name => hnode rfl
  · exact .pure rfl

/-- What was read of an operand and of what stands behind it covers tokens, so an error may be at it. -/
theorem relocates_readSuffixes (htokens : InOrder tokens) (hprogress : rules.Consuming none)
    (hlaying : rules.Laying tokens) {first : Expr} {start : Nat} {cursor : Cursor}
    (hcursor : Reached tokens move cursor) (hfirst : Stage.begun.Holds tokens start first.items cursor) :
    RelocatesAt tokens move (Expr.retouch (.relocate move))
      (iterate (fun expr => readSuffix? rules expr start) first)
      (iterate (fun expr => readSuffix? rules expr (move.start start)) (first.retouch (.relocate move)))
      cursor := by
  apply RelocatesAt.iterate (fun expr => Stage.begun.Holds tokens start expr.items) _ hcursor hfirst
  intro expr before hbefore hexpr
  have hsound := (hexpr.2.sound _ (List.mem_singleton_self _)).constructs _ (List.mem_singleton_self _)
  have hplaced : expr.span.Placed tokens := (hsound.covers (.of_mem (List.mem_singleton_self _))).placed
  refine ⟨relocates_readSuffix? hrules hplaced _ before hbefore, fun next after hnext => ?_⟩
  have hlaid := lays_readSuffix? htokens hprogress hlaying expr before hbefore.forward hexpr
  rw [hnext] at hlaid
  exact hlaid.2

theorem relocates_readPostfix (htokens : InOrder tokens) (hprogress : rules.Consuming none)
    (hlaying : rules.Laying tokens) :
    Relocates tokens move (Expr.retouch (.relocate move)) (readPostfix rules) (readPostfix rules) := by
  intro cursor hcursor
  apply (relocates_currentStart cursor hcursor).bind
  intro start middle hstart hmiddle
  obtain ⟨rfl, rfl⟩ : middle = cursor ∧ start = middle.current.span.start := by
    cases hstart
    exact ⟨rfl, rfl⟩
  have hread := reads_readPrimary htokens hprogress hlaying middle hmiddle.forward
  apply (relocates_readPrimary hrules middle hmiddle).bind
  intro first after hfirst hafter
  rw [hfirst] at hread
  have hloop := relocates_readSuffixes hrules htokens hprogress hlaying hafter hread.2
  obtain ⟨id, kind, span⟩ := first
  cases kind with
  | lambda params body => exact Relocates.pure rfl after hafter
  | _ => exact hloop

theorem relocates_readUnary (htokens : InOrder tokens) (hprogress : rules.Consuming none)
    (hlaying : rules.Laying tokens) :
    Relocates tokens move (Expr.retouch (.relocate move)) (readUnary rules) (readUnary rules) := by
  apply relocates_currentStart.bind
  intro start
  apply steady_currentKind.skip
  intro kind
  cases unaryOperator? kind with
  | some op =>
      apply steady_advance.skip
      intro _
      exact (hrules .unary).bind fun operand => relocates_mkExpr rfl start
  | none =>
      apply (steady_atSymbol .leftParen).skip
      intro paren
      apply (steady_ahead looksLikeCast_relocate).skip
      intro cast
      apply Relocates.ite
      · apply steady_advance.skip
        intro _
        apply (steady_separated .amp (steady_type hrules)).skip
        intro types
        apply (relocates_expectSymbol .rightParen).bind
        intro _
        exact (hrules .unary).bind fun operand => relocates_mkExpr rfl start
      · exact relocates_readPostfix hrules htokens hprogress hlaying

theorem relocates_readVarInit :
    Relocates tokens move (Expr.retouch (.relocate move)) (readVarInit rules) (readVarInit rules) := by
  apply (steady_atSymbol .leftBrace).skip
  intro found
  apply Relocates.ite
  · apply relocates_currentStart.bind
    intro start
    exact (relocates_readArrayItems (hrules .varInit)).bind fun items =>
      relocates_mkExpr (by simp [ExprKind.retouch]) start
  · exact hrules .expr

end Readers

end LockDiscipline.Grammar
