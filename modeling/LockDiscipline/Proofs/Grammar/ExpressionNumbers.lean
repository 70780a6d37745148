import LockDiscipline.Proofs.Grammar.Numbering
/-!
# The numbers in expressions

The readers of types and expressions hand out numbers, as long as the rules that they refer to do.
Types and the annotations before them are read into texts, so the numbers handed out for them are
dropped.
-/

namespace LockDiscipline

/-- The numbers in an expression. -/
abbrev Expr.numbers (expr : Expr) : List NodeId :=
  (TreeNode.expr expr).numbers

/-- The numbers in a statement. -/
abbrev Stmt.numbers (stmt : Stmt) : List NodeId :=
  (TreeNode.stmt stmt).numbers

/-- The numbers in a class. -/
abbrev ClassDecl.numbers (decl : ClassDecl) : List NodeId :=
  (TreeNode.classDecl decl).numbers

/-- The numbers in a member. -/
abbrev Member.numbers (member : Member) : List NodeId :=
  (TreeNode.member member).numbers

/-- The numbers in an annotation. -/
def AnnotationUse.numbers (use : AnnotationUse) : List NodeId :=
  use.values.flatMap Expr.numbers

/-- The numbers in modifiers. -/
def Modifiers.numbers (modifiers : Modifiers) : List NodeId :=
  modifiers.annotations.flatMap AnnotationUse.numbers

namespace TreeNode

/-- Parts of one role hold the numbers of the constructs. -/
@[simp] theorem numbersOf_map {α : Type} (role : PartRole) (make : α → TreeNode) (items : List α) :
    numbersOf (items.map fun item => ⟨role, make item⟩) =
      items.flatMap fun item => (make item).numbers := by
  rw [numbersOf, List.flatMap_map]

@[simp] theorem numbersOf_exprParts (role : PartRole) (exprs : List Expr) :
    numbersOf (exprParts role exprs) = exprs.flatMap Expr.numbers :=
  numbersOf_map role .expr exprs

@[simp] theorem numbersOf_stmtParts (role : PartRole) (stmts : List Stmt) :
    numbersOf (stmtParts role stmts) = stmts.flatMap Stmt.numbers :=
  numbersOf_map role .stmt stmts

@[simp] theorem numbersOf_nestedParts (decls : List ClassDecl) :
    numbersOf (decls.map nestedPart) = decls.flatMap ClassDecl.numbers :=
  numbersOf_map .nested .classDecl decls

@[simp] theorem numbersOf_modifiers (modifiers : Modifiers) :
    numbersOf modifiers.parts = modifiers.numbers := by
  rw [Modifiers.parts, numbersOf_exprParts, List.flatMap_assoc]
  rfl

/-- A body of code bears no number itself. -/
@[simp] theorem numbers_code (body : UnitBody) :
    (TreeNode.code body).numbers = numbersOf body.parts := by
  rw [numbers_eq]
  rfl

attribute [simp] numbersOf_append numbersOf_nil

end TreeNode

namespace Grammar

/-- The numbers in what a nonterminal is read into. -/
def Nonterminal.ids : {α : Type} → Nonterminal α → α → List NodeId
  | _, .expr | _, .ternary | _, .binary _ | _, .unary | _, .elementValue | _, .varInit =>
      Expr.numbers
  | _, .type => fun _ => []
  | _, .annotationUse => AnnotationUse.numbers
  | _, .stmt => Stmt.numbers
  | _, .block => fun body => body.flatMap Stmt.numbers
  | _, .classBody .. => fun members => members.flatMap Member.numbers

/-- Rules that hand out the numbers of what they read. -/
def Rules.Numbered (rules : Rules) : Prop :=
  ∀ {α : Type} (nonterminal : Nonterminal α), Numbers [] nonterminal.ids (rules α nonterminal)

/-- A new expression bears a new number beside those of its parts. -/
theorem numbers_mkExpr {held : List NodeId} {kind : ExprKind} (start : Nat)
    (hparts : ∀ id, (TreeNode.numbersOf kind.parts).count id ≤ held.count id) :
    Numbers held Expr.numbers (mkExpr kind start) := by
  refine numbers_freshId.bind fun id => (quiet_spanFrom start).skip fun span => .pure ?_
  refine subperm_of_count fun number => ?_
  rw [Expr.numbers, TreeNode.numbers_eq, List.count_append, List.count_append, Nat.add_comm]
  exact Nat.add_le_add_right (hparts number) _

section Readers

variable {rules : Rules} (hrules : rules.Numbered)

/-! ### Types, annotations and modifiers -/

theorem quiet_readQualifiedName : Quiet readQualifiedName := by
  refine quiet_expectName.skip fun first => quiet_iterate fun name => ?_
  refine (quiet_atSymbol .dot).skip fun dot => (quiet_peek 1).skip fun kind => .ite ?_ ?_
  · exact quiet_advance.skip fun _ => quiet_expectName.skip fun _ => .pure (.refl _)
  · exact .pure (.refl _)

theorem quiet_readDims : Quiet readDims := by
  refine quiet_iterate fun text => ?_
  refine (quiet_atSymbol .leftBracket).skip fun bracket => (quiet_peek 1).skip fun kind => .ite ?_ ?_
  · exact quiet_advance.skip fun _ => quiet_advance.skip fun _ => .pure (.refl _)
  · exact .pure (.refl _)

include hrules

theorem quiet_type : Quiet (rules _ .type) :=
  hrules .type

theorem quiet_skipAnnotations : Quiet (skipAnnotations rules) := by
  refine Numbers.skip (quiet_collect ?_) fun _ => .pure (.refl _)
  refine (quiet_atSymbol .at).skip fun found => ?_
  cases found with
  | true => exact (hrules .annotationUse).bind fun _ => .pure List.nil_subperm
  | false => exact .pure (.refl _)

theorem quiet_readTypeArg : Quiet (readTypeArg rules) := by
  have htype (text : String) : Quiet (do return text ++ (← rules _ .type)) :=
    (quiet_type hrules).skip fun _ => .pure (.refl _)
  refine (quiet_acceptSymbol .question).skip fun wildcard => ?_
  cases wildcard with
  | false => exact quiet_type hrules
  | true =>
      refine (quiet_acceptKeyword .extends).skip fun bounded => ?_
      cases bounded with
      | true => exact htype _
      | false =>
          refine (quiet_acceptKeyword .super).skip fun bounded => ?_
          cases bounded with
          | true => exact htype _
          | false => exact .pure (.refl _)

theorem quiet_readTypeArgs : Quiet (readTypeArgs rules) := by
  refine (quiet_expectSymbol .less).skip fun _ => (quiet_acceptSymbol .greater).skip fun empty => ?_
  cases empty with
  | true => exact .pure (.refl _)
  | false =>
      exact (quiet_separated .comma (quiet_readTypeArg hrules)).skip fun _ =>
        (quiet_expectSymbol .greater).skip fun _ => .pure (.refl _)

theorem quiet_readTypeName : Quiet (readTypeName rules) := by
  refine Numbers.skip (quiet_iterate fun scan => .ite (.pure (.refl _)) ?_) fun _ => .pure (.refl _)
  refine quiet_expectName.skip fun name => (quiet_atSymbol .less).skip fun found => ?_
  have hrest (args : String) : Quiet (do
      if (← atSymbol .dot) && (← peek 1).isIdent then
        advance
        return some (scan.1 ++ name ++ args ++ ".", true)
      else return some (scan.1 ++ name ++ args, false)) :=
    (quiet_atSymbol .dot).skip fun _ => (quiet_peek 1).skip fun _ =>
      .ite (quiet_advance.skip fun _ => .pure (.refl _)) (.pure (.refl _))
  cases found with
  | true => exact (quiet_readTypeArgs hrules).skip hrest
  | false => exact hrest ""

theorem quiet_readType : Quiet (readType rules) := by
  refine (quiet_skipAnnotations hrules).skip fun _ => quiet_currentKind.skip fun kind => ?_
  cases kind.isIdent with
  | false => exact Numbers.skip (numbers_failExpected _) fun _ => (quiet_readTypeName hrules).skip fun _ =>
      quiet_readDims.skip fun _ => .pure (.refl _)
  | true => exact (quiet_readTypeName hrules).skip fun _ => quiet_readDims.skip fun _ => .pure (.refl _)

theorem quiet_readTypeList : Quiet (readTypeList rules) :=
  quiet_separated .comma (quiet_type hrules)

theorem quiet_readTypeParam : Quiet (readTypeParam rules) := by
  refine (quiet_skipAnnotations hrules).skip fun _ => quiet_expectName.skip fun name => ?_
  refine (quiet_acceptKeyword .extends).skip fun bounded => ?_
  cases bounded with
  | true => exact (quiet_separated .amp (quiet_type hrules)).skip fun _ => .pure (.refl _)
  | false => exact .pure (.refl _)

theorem quiet_readTypeParams : Quiet (readTypeParams rules) := by
  refine (quiet_acceptSymbol .less).skip fun found => ?_
  cases found with
  | false => exact .pure (.refl _)
  | true =>
      exact (quiet_separated .comma (quiet_readTypeParam hrules)).skip fun _ =>
        (quiet_expectSymbol .greater).skip fun _ => .pure (.refl _)

omit hrules in
theorem numbers_readArrayItems {item : Reader Expr} (h : Numbers [] Expr.numbers item) :
    Numbers [] (fun items => items.flatMap Expr.numbers) (readArrayItems item) :=
  (quiet_expectSymbol .leftBrace).skip fun _ =>
    (numbers_enumerated .rightBrace .comma h).bind fun _ =>
      (quiet_expectSymbol .rightBrace).skip fun _ => .pure (.refl _)

theorem numbers_readElementValue : Numbers [] Expr.numbers (readElementValue rules) := by
  refine quiet_currentStart.skip fun start => quiet_currentKind.skip fun kind => ?_
  split
  · exact (numbers_readArrayItems (hrules .elementValue)).bind fun items =>
      numbers_mkExpr start fun id => by simp [ExprKind.parts]
  · exact (hrules .annotationUse).quiet.skip fun _ =>
      numbers_mkExpr start fun id => by simp [ExprKind.parts]
  · exact hrules .ternary

theorem numbers_readNamedArg :
    Numbers [] (fun arg => arg.value.numbers) (readNamedArg rules) :=
  quiet_expectName.skip fun _ => (quiet_expectSymbol .assign).skip fun _ =>
    (hrules .elementValue).bind fun _ => .pure (.refl _)

theorem numbers_readAnnotationArgs :
    Numbers [] (fun args => args.flatMap fun arg => arg.value.numbers) (readAnnotationArgs rules) := by
  refine (quiet_atSymbol .rightParen).skip fun empty => .ite (.pure (.refl _)) ?_
  refine quiet_currentKind.skip fun kind => (quiet_peek 1).skip fun next => .ite ?_ ?_
  · exact numbers_separated .comma (numbers_readNamedArg hrules)
  · exact (hrules .elementValue).bind fun value => .pure (subperm_of_count fun id => by
      simp [Nonterminal.ids])

theorem numbers_readAnnotationUse : Numbers [] AnnotationUse.numbers (readAnnotationUse rules) := by
  refine (quiet_expectSymbol .at).skip fun span => quiet_readQualifiedName.skip fun name => ?_
  refine (quiet_acceptSymbol .leftParen).skip fun found => .ite ?_ ?_
  · refine (numbers_readAnnotationArgs hrules).bind fun args =>
      (quiet_expectSymbol .rightParen).skip fun _ => (quiet_spanFrom _).skip fun span => .pure ?_
    rw [AnnotationUse.numbers, AnnotationUse.values, List.flatMap_map]
    exact .refl _
  · exact (quiet_spanFrom _).skip fun span => .pure (.refl _)

theorem numbers_readModifiers : Numbers [] Modifiers.numbers (readModifiers rules) := by
  rw [readModifiers]
  have hnone : (Modifiers.numbers ⟨[], []⟩).Subperm [] := .refl _
  refine (numbers_iterate Modifiers.numbers hnone fun modifiers => ?_).bind fun modifiers =>
    .pure (modifiers.annotations.reverse_perm.flatMap_right _).subperm
  refine quiet_currentKind.skip fun kind => ?_
  split
  · refine (quiet_peek 1).skip fun next => .ite (.pure (.refl _)) ?_
    refine (hrules .annotationUse).bind fun use => .pure (subperm_of_count fun id => ?_)
    simp +arith [stepIds, Modifiers.numbers, Nonterminal.ids]
  · refine .ite (quiet_advance.skip fun _ => .pure (.refl _)) (.pure (.refl _))
  · exact .pure (.refl _)

/-! ### Expressions -/

theorem numbers_readExpr : Numbers [] Expr.numbers (readExpr rules) := by
  refine quiet_currentStart.skip fun start => (hrules .ternary).bind fun target =>
    quiet_currentKind.skip fun kind => ?_
  cases assignOperator? kind with
  | some op =>
      exact quiet_advance.skip fun _ => (hrules .expr).bind fun value =>
        numbers_mkExpr start fun id => by simp [ExprKind.parts, Nonterminal.ids]
  | none => exact .pure (.refl _)

theorem numbers_readTernary : Numbers [] Expr.numbers (readTernary rules) := by
  refine quiet_currentStart.skip fun start => (hrules (.binary 0)).bind fun cond =>
    (quiet_acceptSymbol .question).skip fun found => .ite ?_ (.pure (.refl _))
  exact (hrules .expr).bind fun whenTrue => (quiet_expectSymbol .colon).skip fun _ =>
    (hrules .ternary).bind fun whenFalse =>
      numbers_mkExpr start fun id => by simp +arith [ExprKind.parts, Nonterminal.ids]

theorem numbers_readInstanceOf (operand : Expr) (start : Nat) :
    Numbers operand.numbers Expr.numbers (readInstanceOf rules operand start) := by
  refine quiet_advance.skip fun _ => (quiet_acceptKeyword .final).skip fun _ =>
    (quiet_type hrules).skip fun type => quiet_currentKind.skip fun kind => ?_
  have hresult : Numbers operand.numbers Expr.numbers
      (mkExpr (.instanceOf operand type) start) :=
    numbers_mkExpr start fun id => by simp [ExprKind.parts]
  exact .ite (quiet_advance.skip fun _ => hresult) hresult

omit hrules in
theorem quiet_advanceBy (count : Nat) : Quiet (advanceBy count) := by
  induction count with
  | zero => exact .pure (.refl _)
  | succ count ih => exact quiet_advance.skip fun _ => ih

theorem numbers_readBinary (least : Nat) : Numbers [] Expr.numbers (readBinary rules least) := by
  refine quiet_currentStart.skip fun start => (hrules .unary).bind fun first =>
    numbers_iterate Expr.numbers (.refl _) fun left => ?_
  refine (quiet_atKeyword .instanceof).skip fun found => .ite (.ite (.pure (.refl _)) ?_) ?_
  · exact (numbers_readInstanceOf hrules left start).consume fun _ => .pure (.refl _)
  · refine quiet_get.skip fun cursor => ?_
    cases binaryOperator? cursor.rest with
    | none => exact .pure (.refl _)
    | some operator =>
        refine .ite (.pure (.refl _)) ((quiet_advanceBy operator.2).skip fun _ => ?_)
        refine (hrules (.binary _)).bind fun right => ?_
        exact (numbers_mkExpr start fun id => by simp [ExprKind.parts, Nonterminal.ids]).consume
          fun _ => .pure (.refl _)

theorem numbers_readArgs :
    Numbers [] (fun args => args.flatMap Expr.numbers) (readArgs rules) :=
  (quiet_expectSymbol .leftParen).skip fun _ =>
    (numbers_enumerated .rightParen .comma (hrules .expr)).bind fun _ =>
      (quiet_expectSymbol .rightParen).skip fun _ => .pure (.refl _)

omit hrules in
theorem quiet_requireTypeName (expr : Expr) : Quiet (requireTypeName expr) := by
  unfold requireTypeName
  split
  · exact .pure (.refl _)
  · exact numbers_throw _

theorem numbers_readAnonymousBody (superclass : String) (start : Nat) :
    Numbers [] ClassDecl.numbers (readAnonymousBody rules superclass start) := by
  refine numbers_freshId.bind fun id => (hrules (.classBody "" false)).bind fun members =>
    (quiet_spanFrom start).skip fun span => .pure ?_
  rw [ClassDecl.numbers, TreeNode.numbers_eq]
  exact subperm_of_count fun number => by simp [TreeNode.parts, TreeNode.ownIds, Modifiers.numbers,
    Nonterminal.ids]

theorem numbers_readArrayDims :
    Numbers [] (fun dims => dims.flatMap Expr.numbers) (readArrayDims rules) := by
  refine (numbers_collect (fun dim : Option Expr => dim.toList.flatMap Expr.numbers) ?_).bind
    fun dims => .pure ?_
  · refine (quiet_acceptSymbol .leftBracket).skip fun found => .ite ?_ (.pure (.refl _))
    refine (quiet_acceptSymbol .rightBracket).skip fun empty => .ite (.pure (.refl _)) ?_
    exact (hrules .expr).bind fun dim => (quiet_expectSymbol .rightBracket).skip fun _ =>
      .pure (subperm_of_count fun id => by simp [Nonterminal.ids])
  · rw [List.filterMap_eq_flatMap_toList, List.flatMap_assoc]
    exact .refl _

theorem numbers_readNew (start : Nat) : Numbers [] Expr.numbers (readNew rules start) := by
  refine (quiet_expectKeyword .new).skip fun _ => (quiet_skipAnnotations hrules).skip fun _ =>
    (quiet_readTypeName hrules).skip fun type => (quiet_atSymbol .leftBracket).skip fun isArray => ?_
  refine .ite ?_ ?_
  · exact (numbers_readArrayDims hrules).bind fun dims => (quiet_atSymbol .leftBrace).skip fun found =>
      (numbers_readWhen found (numbers_readArrayItems (hrules .varInit))).bind fun init =>
        numbers_mkExpr start fun id => by cases init <;> simp [ExprKind.parts]
  · exact (numbers_readArgs hrules).bind fun args => (quiet_atSymbol .leftBrace).skip fun found =>
      (numbers_readWhen found (numbers_readAnonymousBody hrules type start)).bind fun body =>
        numbers_mkExpr start fun id => by simp [ExprKind.parts]

omit hrules in
theorem quiet_readLambdaParams : Quiet readLambdaParams := by
  refine Numbers.skip (quiet_iterate fun scan => ?_) fun _ => .pure (.refl _)
  refine quiet_currentKind.skip fun kind => ?_
  split
  · exact .pure (.refl _)
  · exact .pure (.refl _)
  · exact quiet_advance.skip fun _ => .ite (.pure (.refl _)) (.pure (.refl _))
  all_goals exact quiet_advance.skip fun _ => .pure (.refl _)

theorem numbers_readLambda (start : Nat) : Numbers [] Expr.numbers (readLambda rules start) := by
  have hbody (params : List String) : Numbers [] Expr.numbers (do
      let _ ← expectSymbol .arrow
      let body ← if ← atSymbol .leftBrace then LambdaBody.block <$> rules _ .block
        else LambdaBody.expr <$> rules _ .expr
      mkExpr (.lambda params body) start) := by
    refine (quiet_expectSymbol .arrow).skip fun _ => (quiet_atSymbol .leftBrace).skip fun found => ?_
    have hblock : Numbers [] (fun body => (TreeNode.code (.lambda body)).numbers)
        (LambdaBody.block <$> rules _ .block) :=
      (hrules .block).map fun body => subperm_of_count fun id => by
        simp [UnitBody.parts, Nonterminal.ids]
    have hexpr : Numbers [] (fun body => (TreeNode.code (.lambda body)).numbers)
        (LambdaBody.expr <$> rules _ .expr) :=
      (hrules .expr).map fun value => subperm_of_count fun id => by
        simp [UnitBody.parts, Nonterminal.ids]
    exact .choose hblock hexpr fun body =>
      numbers_mkExpr start fun id => by simp [ExprKind.parts, TreeNode.numbersOf_singleton]
  refine quiet_currentKind.skip fun kind => ?_
  split
  · exact quiet_advance.skip fun _ => hbody _
  · exact (quiet_expectSymbol .leftParen).skip fun _ => quiet_readLambdaParams.skip fun names =>
      (quiet_expectSymbol .rightParen).skip fun _ => hbody names

theorem numbers_readSelf (name : String) {kind : ExprKind} (start : Nat) (hkind : kind.parts = []) :
    Numbers [] Expr.numbers (readSelf rules name kind start) := by
  refine quiet_advance.skip fun _ => (quiet_atSymbol .leftParen).skip fun found => .ite ?_ ?_
  · exact (numbers_readArgs hrules).bind fun args =>
      numbers_mkExpr start fun id => by simp [ExprKind.parts]
  · exact numbers_mkExpr start fun id => by simp [hkind]

omit hrules in
theorem numbers_readLiteral {kind : ExprKind} (start : Nat) (hkind : kind.parts = []) :
    Numbers [] Expr.numbers (readLiteral kind start) :=
  quiet_advance.skip fun _ => numbers_mkExpr start fun id => by simp [hkind]

theorem numbers_readNameOrCall (name : String) (start : Nat) :
    Numbers [] Expr.numbers (readNameOrCall rules name start) := by
  refine quiet_get.skip fun cursor => (quiet_peek 1).skip fun next =>
    .ite (numbers_readLambda hrules start) (quiet_advance.skip fun _ => ?_)
  refine (quiet_atSymbol .leftParen).skip fun found => .ite ?_ ?_
  · exact (numbers_readArgs hrules).bind fun args =>
      numbers_mkExpr start fun id => by simp [ExprKind.parts]
  · exact numbers_mkExpr start fun id => by simp [ExprKind.parts]

theorem numbers_readParenthesized (start : Nat) :
    Numbers [] Expr.numbers (readParenthesized rules start) := by
  refine quiet_get.skip fun cursor => (quiet_ahead looksLikeLambda).skip fun found =>
    .ite (numbers_readLambda hrules start) (quiet_advance.skip fun _ => ?_)
  exact (numbers_withLambdas true cursor.lambdas (hrules .expr)).bind fun inner =>
    (quiet_expectSymbol .rightParen).skip fun _ =>
      numbers_mkExpr start fun id => by simp [ExprKind.parts, Nonterminal.ids]

omit hrules in
theorem parts_of_literal? {token : TokenKind} {kind : ExprKind} (h : literal? token = some kind) :
    kind.parts = [] := by
  cases token with
  | int | float | string | char | bool | null => rw [← Option.some.inj h]; rfl
  | _ => cases h

theorem numbers_readPrimary : Numbers [] Expr.numbers (readPrimary rules) := by
  refine quiet_currentStart.skip fun start => quiet_currentKind.skip fun kind => ?_
  cases hliteral : literal? kind with
  | some literal => exact numbers_readLiteral start (parts_of_literal? hliteral)
  | none =>
      dsimp only
      split
      · exact numbers_readSelf hrules "this" start rfl
      · exact numbers_readSelf hrules "super" start rfl
      · exact numbers_readNew hrules start
      · exact numbers_readNameOrCall hrules _ start
      · exact numbers_readParenthesized hrules start
      · exact quiet_advance.skip fun _ => (quiet_expectSymbol .dot).skip fun _ =>
          (quiet_expectKeyword .class).skip fun _ =>
            numbers_mkExpr start fun id => by simp [ExprKind.parts]
      · exact numbers_failExpected _

theorem numbers_readAfterDot (object : Expr) (start : Nat) :
    Numbers object.numbers Expr.numbers (readAfterDot rules object start) := by
  refine quiet_currentKind.skip fun kind => ?_
  split
  · refine quiet_advance.skip fun _ => (quiet_atSymbol .leftParen).skip fun found => .ite ?_ ?_
    · exact (numbers_readArgs hrules).bind fun args =>
        numbers_mkExpr start fun id => by simp [ExprKind.parts]
    · exact numbers_mkExpr start fun id => by simp [ExprKind.parts]
  · exact (quiet_readTypeArgs hrules).skip fun _ => quiet_expectName.skip fun method =>
      (numbers_readArgs hrules).bind fun args =>
        numbers_mkExpr start fun id => by simp [ExprKind.parts]
  · exact (quiet_requireTypeName object).skip fun qualifier => quiet_advance.skip fun _ =>
      numbers_mkExpr start fun id => by simp [ExprKind.parts]
  · exact (quiet_requireTypeName object).skip fun type => quiet_advance.skip fun _ =>
      numbers_mkExpr start fun id => by simp [ExprKind.parts]
  · exact quiet_advance.skip fun _ => numbers_mkExpr start fun id => by simp [ExprKind.parts]
  · exact (numbers_readNew hrules start).weaken List.nil_subperm fun _ => .refl _
  · exact numbers_failExpected _

theorem numbers_readSuffix? (expr : Expr) (start : Nat) :
    Numbers expr.numbers (stepIds Expr.numbers expr) (readSuffix? rules expr start) := by
  refine quiet_currentKind.skip fun kind => ?_
  split
  · exact quiet_advance.skip fun _ =>
      (numbers_readAfterDot hrules expr start).consume fun _ => .pure (.refl _)
  · refine (quiet_peek 1).skip fun next => .ite ?_ (quiet_advance.skip fun _ => ?_)
    · exact (quiet_requireTypeName expr).skip fun type => quiet_readDims.skip fun dims =>
        (quiet_expectSymbol .dot).skip fun _ => (quiet_expectKeyword .class).skip fun _ =>
          (numbers_mkExpr start fun id => by simp [ExprKind.parts]).consume fun _ => .pure (.refl _)
    · exact (hrules .expr).bind fun index => (quiet_expectSymbol .rightBracket).skip fun _ =>
        (numbers_mkExpr start fun id => by simp [ExprKind.parts, Nonterminal.ids]).consume
          fun _ => .pure (.refl _)
  · exact quiet_advance.skip fun _ => (numbers_mkExpr start fun id => by
      simp [ExprKind.parts]).consume fun _ => .pure (.refl _)
  · exact quiet_advance.skip fun _ => (numbers_mkExpr start fun id => by
      simp [ExprKind.parts]).consume fun _ => .pure (.refl _)
  · have href (name : String) : Numbers expr.numbers (stepIds Expr.numbers expr) (do
        return some (← mkExpr (.methodRef expr name) start)) :=
      (numbers_mkExpr start fun id => by simp [ExprKind.parts]).consume fun _ => .pure (.refl _)
    refine quiet_advance.skip fun _ => (quiet_acceptKeyword .new).skip fun found => .ite ?_ ?_
    · exact href "new"
    · exact quiet_expectName.skip href
  · exact .pure (.refl _)

theorem numbers_readPostfix : Numbers [] Expr.numbers (readPostfix rules) := by
  refine quiet_currentStart.skip fun start => (numbers_readPrimary hrules).bind fun first => ?_
  split
  · exact .pure (.refl _)
  · exact numbers_iterate Expr.numbers (.refl _) fun expr => numbers_readSuffix? hrules expr start

theorem numbers_readUnary : Numbers [] Expr.numbers (readUnary rules) := by
  refine quiet_currentStart.skip fun start => quiet_currentKind.skip fun kind => ?_
  cases unaryOperator? kind with
  | some op =>
      exact quiet_advance.skip fun _ => (hrules .unary).bind fun operand =>
        numbers_mkExpr start fun id => by simp [ExprKind.parts, Nonterminal.ids]
  | none =>
      refine (quiet_atSymbol .leftParen).skip fun paren => (quiet_ahead looksLikeCast).skip
        fun cast => .ite (quiet_advance.skip fun _ => ?_) (numbers_readPostfix hrules)
      exact (quiet_separated .amp (quiet_type hrules)).skip fun types =>
        (quiet_expectSymbol .rightParen).skip fun _ => (hrules .unary).bind fun operand =>
          numbers_mkExpr start fun id => by simp [ExprKind.parts, Nonterminal.ids]

theorem numbers_readVarInit : Numbers [] Expr.numbers (readVarInit rules) := by
  refine (quiet_atSymbol .leftBrace).skip fun found => .ite ?_ (hrules .expr)
  exact quiet_currentStart.skip fun start =>
    (numbers_readArrayItems (hrules .varInit)).bind fun items =>
      numbers_mkExpr start fun id => by simp [ExprKind.parts]

end Readers

end Grammar
end LockDiscipline
