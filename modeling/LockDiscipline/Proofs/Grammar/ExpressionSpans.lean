import LockDiscipline.Proofs.Grammar.ExpressionNumbers
import LockDiscipline.Proofs.Grammar.ExpressionProgress
import LockDiscipline.Proofs.Grammar.Laying
/-!
# The spans in expressions

The readers of types and expressions lay out what they return, as long as the rules that they refer to do.
Types and the annotations before them are read into texts, so nothing is held of them. An operator goes
around its operands because it keeps the byte where the first of them starts.
-/

namespace LockDiscipline

/-- An expression as the only item. -/
abbrev Expr.items (expr : Expr) : List Item :=
  (TreeNode.expr expr).items

/-- A statement as the only item. -/
abbrev Stmt.items (stmt : Stmt) : List Item :=
  (TreeNode.stmt stmt).items

/-- A class as the only item. -/
abbrev ClassDecl.items (decl : ClassDecl) : List Item :=
  (TreeNode.classDecl decl).items

/-- A member as the only item. -/
abbrev Member.items (member : Member) : List Item :=
  (TreeNode.member member).items

namespace TreeNode

/-- Parts of one role are the constructs as items. -/
@[simp] theorem itemsOf_map {α : Type} (role : PartRole) (make : α → TreeNode) (values : List α) :
    itemsOf (values.map fun value => ⟨role, make value⟩) = values.flatMap fun value => (make value).items := by
  rw [itemsOf, List.flatMap_map]

@[simp] theorem itemsOf_exprParts (role : PartRole) (exprs : List Expr) :
    itemsOf (exprParts role exprs) = exprs.flatMap Expr.items :=
  itemsOf_map role .expr exprs

@[simp] theorem itemsOf_stmtParts (role : PartRole) (stmts : List Stmt) :
    itemsOf (stmtParts role stmts) = stmts.flatMap Stmt.items :=
  itemsOf_map role .stmt stmts

@[simp] theorem itemsOf_nestedParts (decls : List ClassDecl) :
    itemsOf (decls.map nestedPart) = decls.flatMap ClassDecl.items :=
  itemsOf_map .nested .classDecl decls

@[simp] theorem itemsOf_append (first second : List Part) :
    itemsOf (first ++ second) = itemsOf first ++ itemsOf second :=
  List.flatMap_append

@[simp] theorem itemsOf_nil : itemsOf [] = [] := rfl

@[simp] theorem itemsOf_singleton (part : Part) : itemsOf [part] = part.node.items :=
  List.flatMap_singleton ..

theorem pieces_classDecl (decl : ClassDecl) :
    (TreeNode.classDecl decl).pieces = decl.modifiers.items ++ decl.members.flatMap Member.items := by
  rw [pieces_of_modifiers rfl rfl, itemsOf_map]

theorem pieces_code (body : UnitBody) : (TreeNode.code body).pieces = itemsOf body.parts := rfl

end TreeNode

namespace Grammar

/-- What a nonterminal is read into, as items. -/
def Nonterminal.items : {α : Type} → Nonterminal α → α → List Item
  | _, .expr | _, .ternary | _, .binary _ | _, .unary | _, .elementValue | _, .varInit => Expr.items
  | _, .type => fun _ => []
  | _, .annotationUse => AnnotationUse.items
  | _, .stmt => Stmt.items
  | _, .block => fun body => body.flatMap Stmt.items
  | _, .classBody .. => fun members => members.flatMap Member.items

/-- Rules that lay out what they read. -/
def Rules.Laying (tokens : List Token) (rules : Rules) : Prop :=
  ∀ {α : Type} (nonterminal : Nonterminal α), Reads tokens .begun nonterminal.items (rules α nonterminal)

theorem span_of_expectSymbol {sign : Symbol} (cursor : Cursor) (span : Span) (after : Cursor)
    (h : (expectSymbol sign).run cursor = .ok span after) : span = cursor.current.span := by
  rw [expectSymbol, EStateM.run_bind, EStateM.run_get] at h
  dsimp only at h
  split at h
  · exact (EStateM.Result.ok.inj h).1.symm
  · cases h

theorem span_of_expectKeyword {word : Keyword} (cursor : Cursor) (span : Span) (after : Cursor)
    (h : (expectKeyword word).run cursor = .ok span after) : span = cursor.current.span := by
  rw [expectKeyword, EStateM.run_bind, EStateM.run_get] at h
  dsimp only at h
  split at h
  · exact (EStateM.Result.ok.inj h).1.symm
  · cases h

section Readers

variable {tokens : List Token} (htokens : InOrder tokens) {rules : Rules}
  (hprogress : rules.Consuming none) (hrules : rules.Laying tokens) {low : Nat} {pre : Stage}
  {held : List Item}

/-! ### Annotations and modifiers -/

include htokens

theorem reads_readArrayItems {item : Reader Expr} (h : Reads tokens .begun Expr.items item) :
    Reads tokens .begun (fun values => values.flatMap Expr.items) (readArrayItems item) :=
  .of_lays fun _ => (consumes_expectSymbol .leftBrace).past htokens fun _ =>
    (h.enumerated htokens .rightBrace .comma).bind htokens fun _ =>
      (consumes_expectSymbol .rightBrace).past htokens fun _ => .pure fun _ => Nat.le_refl _

include hrules

theorem reads_readElementValue : Reads tokens .begun Expr.items (readElementValue rules) := by
  refine .of_start fun start => looks_currentKind.past fun kind => ?_
  split
  · exact (reads_readArrayItems htokens (hrules .elementValue)).bind htokens fun items =>
      lays_mkExpr fun item => by simp [ExprKind.parts]
  · exact (hrules .annotationUse).bind htokens fun use => lays_mkExpr fun item => by simp [ExprKind.parts]
  · exact (hrules .ternary).last htokens

theorem reads_readNamedArg :
    Reads tokens .begun (fun arg : AnnotationArg => arg.value.items) (readNamedArg rules) :=
  .of_lays fun _ => consumes_expectName.past htokens fun _ =>
    (consumes_expectSymbol .assign).past htokens fun _ =>
      (hrules .elementValue).bind htokens fun _ => .pure fun _ => Nat.le_refl _

theorem reads_readAnnotationArgs : Reads tokens .fresh
    (fun args : List AnnotationArg => args.flatMap fun arg => arg.value.items)
    (readAnnotationArgs rules) := by
  refine .of_looks (looks_atSymbol .rightParen) fun empty => .ite
    (.of_lays fun _ => .pure fun _ => Nat.le_refl _) ?_
  refine .of_looks looks_currentKind fun kind => .of_looks (looks_peek 1) fun next => .ite ?_ ?_
  · exact ((reads_readNamedArg htokens hrules).separated htokens .comma).forget
  · refine .of_lays fun low => .forget <| (hrules .elementValue).bind htokens fun value => .pure fun item => ?_
    simp [Nonterminal.items]

theorem reads_readAnnotationUse : Reads tokens .begun AnnotationUse.items (readAnnotationUse rules) := by
  refine .of_token htokens (consumes_expectSymbol .at) span_of_expectSymbol fun span => ?_
  refine consumes_readQualifiedName.past htokens fun name => ?_
  refine (accepts_acceptSymbol .leftParen).past htokens (by decide) ?_ ?_
  · refine (reads_readAnnotationArgs htokens hrules).bind htokens fun args =>
      (consumes_expectSymbol .rightParen).past htokens fun _ => lays_spanFrom fun high hcovers h => ?_
    refine Laid.wrap_use ?_ rfl hcovers
    rw [AnnotationUse.values, List.flatMap_map]
    exact h
  · exact lays_spanFrom fun high hcovers h => .wrap_use h rfl hcovers

/-- Only the annotations among modifiers are held. -/
theorem reads_readModifiers : Reads tokens .fresh Modifiers.items (readModifiers rules) := by
  refine .of_lays fun low => Lays.consume (lays_iterate Modifiers.items rfl fun modifiers => ?_)
    fun modifiers => .pure fun item => ?_
  · refine looks_currentKind.past fun kind => ?_
    split
    · refine (looks_peek 1).past fun next => .ite (.pure fun _ => Nat.le_refl _) ?_
      refine .forget <| (hrules .annotationUse).bind htokens fun use => .pure fun item => ?_
      simp +arith [stepItems, Modifiers.items, Nonterminal.items]
    · exact .ite (passes_advance.past htokens fun _ => .pure fun _ => Nat.le_refl _)
        (.pure fun _ => Nat.le_refl _)
    · exact .pure fun _ => Nat.le_refl _
  · exact Nat.le_of_eq ((modifiers.annotations.reverse_perm.flatMap_right _).count_eq item)

/-! ### Operators -/

theorem reads_readExpr : Reads tokens .begun Expr.items (readExpr rules) := by
  refine .of_start fun start => (hrules .ternary).bind htokens fun target =>
    looks_currentKind.past fun kind => ?_
  cases assignOperator? kind with
  | some op =>
      exact passes_advance.past htokens fun _ => (hrules .expr).bind htokens fun value =>
        lays_mkExpr fun item => by simp [ExprKind.parts, Nonterminal.items]
  | none => exact .pure fun _ => Nat.le_refl _

theorem reads_readTernary : Reads tokens .begun Expr.items (readTernary rules) := by
  refine .of_start fun start => (hrules (.binary 0)).bind htokens fun cond => ?_
  refine (accepts_acceptSymbol .question).past htokens (by decide) ?_ (.pure fun _ => Nat.le_refl _)
  exact (hrules .expr).bind htokens fun whenTrue => (consumes_expectSymbol .colon).past htokens fun _ =>
    (hrules .ternary).bind htokens fun whenFalse =>
      lays_mkExpr fun item => by simp +arith [ExprKind.parts, Nonterminal.items]

include hprogress

omit hrules in
theorem lays_readInstanceOf (operand : Expr) :
    Lays tokens low .begun .begun operand.items Expr.items (readInstanceOf rules operand low) := by
  have hresult (type : String) : Lays tokens low .begun .begun operand.items Expr.items
      (mkExpr (.instanceOf operand type) low) :=
    lays_mkExpr fun item => by simp [ExprKind.parts]
  exact passes_advance.past htokens fun _ => (accepts_acceptKeyword .final).passes.past htokens fun _ =>
    (hprogress .type).past htokens fun type => looks_currentKind.past fun kind =>
      .ite (passes_advance.past htokens fun _ => hresult type) (hresult type)

/-- Every operator goes around the left operand that was read before it. -/
theorem reads_readBinary (least : Nat) : Reads tokens .begun Expr.items (readBinary rules least) := by
  refine .of_start fun start => (hrules .unary).bind htokens fun first =>
    lays_iterate Expr.items rfl fun left => ?_
  refine (looks_atKeyword .instanceof).past fun found => .ite (.ite (.pure fun _ => Nat.le_refl _) ?_) ?_
  · exact (lays_readInstanceOf htokens hprogress left).consume fun _ =>
      .pure fun _ => Nat.le_refl _
  · refine looks_get.past fun cursor => ?_
    cases binaryOperator? cursor.rest with
    | none => exact .pure fun _ => Nat.le_refl _
    | some operator =>
        refine .ite (.pure fun _ => Nat.le_refl _) ((passes_advanceBy operator.2).past htokens fun _ => ?_)
        refine (hrules (.binary _)).bind htokens fun right => ?_
        exact (lays_mkExpr fun item => by simp [ExprKind.parts, Nonterminal.items]).consume
          fun _ => .pure fun _ => Nat.le_refl _

/-! ### Operands -/

omit hprogress in
theorem reads_readArgs :
    Reads tokens .begun (fun args => args.flatMap Expr.items) (readArgs rules) :=
  .of_lays fun _ => (consumes_expectSymbol .leftParen).past htokens fun _ =>
    ((hrules .expr).enumerated htokens .rightParen .comma).bind htokens fun _ =>
      (consumes_expectSymbol .rightParen).past htokens fun _ => .pure fun _ => Nat.le_refl _

omit hprogress in
/-- The body of an anonymous class begins where the expression around it does, before its arguments. -/
theorem lays_readAnonymousBody (superclass : String) :
    Lays tokens low .begun .begun held (fun decl => held ++ decl.items)
      (readAnonymousBody rules superclass low) := by
  refine lays_freshId fun id => (hrules (.classBody "" false)).bind_behind htokens fun members hbehind =>
    lays_spanFrom fun high =>
      laid_beside (List.forall_mem_singleton.mpr rfl) (.inl rfl) hbehind (List.forall_mem_nil _) fun item => ?_
  rw [TreeNode.pieces_classDecl]
  simp [Modifiers.items, Nonterminal.items]

omit hprogress in
theorem reads_readArrayDims :
    Reads tokens .fresh (fun dims => dims.flatMap Expr.items) (readArrayDims rules) := by
  have hdims : Reads tokens .fresh
      (fun dims => dims.flatMap fun dim : Option Expr => dim.toList.flatMap Expr.items) (collect do
        if ← acceptSymbol .leftBracket then
          if ← acceptSymbol .rightBracket then return some none
          let dim ← rules _ .expr
          let _ ← expectSymbol .rightBracket
          return some (some dim)
        else return none) := by
    refine .collect htokens (.of_lays fun low => (accepts_acceptSymbol .leftBracket).past htokens (by decide) ?_
      (.pure fun _ => Nat.le_refl _))
    refine .forget <| (accepts_acceptSymbol .rightBracket).past htokens (by decide)
      (.pure fun _ => Nat.le_refl _) ?_
    exact (hrules .expr).bind htokens fun dim => (consumes_expectSymbol .rightBracket).past htokens
      fun _ => .pure fun item => by simp [Nonterminal.items]
  refine .of_lays fun low => hdims.bind htokens fun dims => .pure fun item => ?_
  rw [List.filterMap_eq_flatMap_toList, List.flatMap_assoc]
  exact Nat.le_refl _

theorem lays_readNew : Lays tokens low .fresh .begun [] Expr.items (readNew rules low) := by
  refine (consumes_expectKeyword .new).past htokens fun _ => (passes_skipAnnotations hprogress).past
    htokens fun _ => (consumes_readTypeName hprogress).past htokens fun type =>
      (looks_atSymbol .leftBracket).past fun isArray => .ite ?_ ?_
  · refine (reads_readArrayDims htokens hrules).bind htokens fun dims =>
      (looks_atSymbol .leftBrace).past fun found => ?_
    refine ((reads_readArrayItems htokens (hrules .varInit)).readWhen found).bind htokens fun init =>
      lays_mkExpr fun item => ?_
    cases init <;> simp [ExprKind.parts]
  · refine (reads_readArgs htokens hrules).bind htokens fun args =>
      (looks_atSymbol .leftBrace).past fun found => ?_
    refine ((lays_readAnonymousBody htokens hrules type).readWhen found).consume fun body =>
      lays_mkExpr fun item => ?_
    simp [ExprKind.parts]

omit hprogress in
/-- A lambda, whose body is a body of code. -/
theorem lays_readLambda : Lays tokens low .fresh .begun [] Expr.items (readLambda rules low) := by
  have hbody {pre : Stage} (params : List String) : Lays tokens low pre .begun [] Expr.items (do
      let _ ← expectSymbol .arrow
      let body ← if ← atSymbol .leftBrace then LambdaBody.block <$> rules _ .block
        else LambdaBody.expr <$> rules _ .expr
      mkExpr (.lambda params body) low) := by
    have hblock : Reads tokens .begun (fun body => (TreeNode.code (.lambda body)).pieces)
        (LambdaBody.block <$> rules _ .block) :=
      (hrules .block).map fun body low high h => by
        rwa [TreeNode.pieces_code, UnitBody.parts, TreeNode.itemsOf_stmtParts]
    have hexpr : Reads tokens .begun (fun body => (TreeNode.code (.lambda body)).pieces)
        (LambdaBody.expr <$> rules _ .expr) :=
      (hrules .expr).map fun value low high h => by
        rwa [TreeNode.pieces_code, UnitBody.parts, TreeNode.itemsOf_exprParts, List.flatMap_singleton]
    -- The arrow stands before the body, so the body does not begin where the lambda does.
    have hlambda (body : LambdaBody)
        (hbehind : ∀ item ∈ (TreeNode.code (.lambda body)).pieces, item.Behind low) :
        Lays tokens low .begun .begun (TreeNode.code (.lambda body)).pieces Expr.items
          (mkExpr (.lambda params body) low) := by
      have hmake : Lays tokens low .begun .begun (TreeNode.code (.lambda body)).items Expr.items
          (mkExpr (.lambda params body) low) :=
        lays_mkExpr fun item => by simp [ExprKind.parts]
      exact hmake.regroup fun high h =>
        laid_bare [] rfl rfl hbehind (List.forall_mem_nil _) (fun _ => Nat.le_refl _) h
    refine (consumes_expectSymbol .arrow).past htokens fun _ => (looks_atSymbol .leftBrace).past
      fun found => ?_
    cases found with
    | true => exact hblock.bind_behind htokens hlambda
    | false => exact hexpr.bind_behind htokens hlambda
  refine looks_currentKind.past fun kind => ?_
  split
  · exact passes_advance.past htokens fun _ => hbody _
  · exact (consumes_expectSymbol .leftParen).past htokens fun _ =>
      passes_readLambdaParams.past htokens fun names =>
        (consumes_expectSymbol .rightParen).past htokens fun _ => hbody names

omit hprogress in
theorem lays_readSelf (name : String) {kind : ExprKind} (hkind : kind.parts = []) :
    Lays tokens low .ready .begun [] Expr.items (readSelf rules name kind low) := by
  refine .advance htokens <| (looks_atSymbol .leftParen).past fun found => .ite ?_ ?_
  · exact (reads_readArgs htokens hrules).bind htokens fun args =>
      lays_mkExpr fun item => by simp [ExprKind.parts]
  · exact lays_mkExpr fun item => by simp [hkind]

omit hrules hprogress in
theorem lays_readLiteral {kind : ExprKind} (hkind : kind.parts = []) :
    Lays tokens low .ready .begun [] Expr.items (readLiteral kind low) :=
  .advance htokens <| lays_mkExpr fun item => by simp [hkind]

omit hprogress in
theorem lays_readNameOrCall (name : String) :
    Lays tokens low .ready .begun [] Expr.items (readNameOrCall rules name low) := by
  refine looks_get.past fun cursor => (looks_peek 1).past fun next =>
    .ite (lays_readLambda htokens hrules).atStage (.advance htokens ?_)
  refine (looks_atSymbol .leftParen).past fun found => .ite ?_ ?_
  · exact (reads_readArgs htokens hrules).bind htokens fun args =>
      lays_mkExpr fun item => by simp [ExprKind.parts]
  · exact lays_mkExpr fun item => by simp [ExprKind.parts]

omit hprogress in
theorem lays_readParenthesized :
    Lays tokens low .ready .begun [] Expr.items (readParenthesized rules low) := by
  refine looks_get.past fun cursor => (looks_ahead looksLikeLambda).past fun found =>
    .ite (lays_readLambda htokens hrules).atStage (.advance htokens ?_)
  exact ((hrules .expr).withLambdas true cursor.lambdas).bind htokens fun inner =>
    (consumes_expectSymbol .rightParen).past htokens fun _ =>
      lays_mkExpr fun item => by simp [ExprKind.parts, Nonterminal.items]

theorem reads_readPrimary : Reads tokens .begun Expr.items (readPrimary rules) := by
  refine .of_start fun start => lays_kind fun kind _ => ?_
  cases hliteral : literal? kind with
  | some literal =>
      rw [Stage.seeing_of_ne (ne_eof_of_literal hliteral)]
      exact lays_readLiteral htokens (parts_of_literal? hliteral)
  | none =>
      dsimp only
      split
      · exact lays_readSelf htokens hrules "this" rfl
      · exact lays_readSelf htokens hrules "super" rfl
      · exact (lays_readNew htokens hprogress hrules).atStage
      · exact lays_readNameOrCall htokens hrules _
      · exact lays_readParenthesized htokens hrules
      · exact .advance htokens <| (consumes_expectSymbol .dot).past htokens fun _ =>
          (consumes_expectKeyword .class).past htokens fun _ =>
            lays_mkExpr fun item => by simp [ExprKind.parts]
      · exact looks_get.past fun _ => .throw _

theorem lays_readAfterDot (object : Expr) :
    Lays tokens low .begun .begun object.items Expr.items (readAfterDot rules object low) := by
  refine looks_currentKind.past fun kind => ?_
  split
  · refine passes_advance.past htokens fun _ => (looks_atSymbol .leftParen).past fun found => .ite ?_ ?_
    · exact (reads_readArgs htokens hrules).bind htokens fun args =>
        lays_mkExpr fun item => by simp [ExprKind.parts]
    · exact lays_mkExpr fun item => by simp [ExprKind.parts]
  · exact (consumes_readTypeArgs hprogress).past htokens fun _ => consumes_expectName.past htokens
      fun method => (reads_readArgs htokens hrules).bind htokens fun args =>
        lays_mkExpr fun item => by simp [ExprKind.parts]
  · exact (passes_requireTypeName object).past htokens fun qualifier =>
      passes_advance.past htokens fun _ => lays_mkExpr fun item => by simp [ExprKind.parts]
  · exact (passes_requireTypeName object).past htokens fun type =>
      passes_advance.past htokens fun _ => lays_mkExpr fun item => by simp [ExprKind.parts]
  · exact passes_advance.past htokens fun _ => lays_mkExpr fun item => by simp [ExprKind.parts]
  · exact (lays_readNew htokens hprogress hrules).atStage.dropping
  · exact looks_get.past fun _ => .throw _

theorem lays_readSuffix? (expr : Expr) : Lays tokens low .begun .begun expr.items
    (stepItems Expr.items expr) (readSuffix? rules expr low) := by
  have hnode {kind : ExprKind} {held : List Item}
      (hparts : ∀ item, (TreeNode.itemsOf kind.parts).count item ≤ held.count item) :
      Lays tokens low .begun .begun held (stepItems Expr.items expr)
        (do return some (← mkExpr kind low)) :=
    (lays_mkExpr hparts).consume fun _ => .pure fun _ => Nat.le_refl _
  refine looks_currentKind.past fun kind => ?_
  split
  · exact passes_advance.past htokens fun _ => (lays_readAfterDot htokens hprogress hrules expr).consume
      fun _ => .pure fun _ => Nat.le_refl _
  · refine (looks_peek 1).past fun next => .ite ?_ ?_
    · exact (passes_requireTypeName expr).past htokens fun type => passes_readDims.past htokens fun dims =>
        (consumes_expectSymbol .dot).past htokens fun _ =>
          (consumes_expectKeyword .class).past htokens fun _ => hnode fun item => by
            simp [ExprKind.parts]
    · exact passes_advance.past htokens fun _ => (hrules .expr).bind htokens fun position =>
        (consumes_expectSymbol .rightBracket).past htokens fun _ => hnode fun item => by
          simp [ExprKind.parts, Nonterminal.items]
  · exact passes_advance.past htokens fun _ => hnode fun item => by simp [ExprKind.parts]
  · exact passes_advance.past htokens fun _ => hnode fun item => by simp [ExprKind.parts]
  · refine passes_advance.past htokens fun _ => ?_
    refine (accepts_acceptKeyword .new).past htokens (by decide) ?_ ?_
    · exact hnode fun item => by simp [ExprKind.parts]
    · exact consumes_expectName.past htokens fun name => hnode fun item => by simp [ExprKind.parts]
  · exact .pure fun _ => Nat.le_refl _

/-- All that stands behind an operand keeps the byte where the operand starts. -/
theorem reads_readPostfix : Reads tokens .begun Expr.items (readPostfix rules) := by
  refine .of_start fun start => (reads_readPrimary htokens hprogress hrules).bind htokens fun first => ?_
  split
  · exact .pure fun _ => Nat.le_refl _
  · exact lays_iterate Expr.items rfl fun expr => lays_readSuffix? htokens hprogress hrules expr

theorem reads_readUnary : Reads tokens .begun Expr.items (readUnary rules) := by
  refine .of_start fun start => looks_currentKind.past fun kind => ?_
  cases unaryOperator? kind with
  | some op =>
      exact passes_advance.past htokens fun _ => (hrules .unary).bind htokens fun operand =>
        lays_mkExpr fun item => by simp [ExprKind.parts, Nonterminal.items]
  | none =>
      refine (looks_atSymbol .leftParen).past fun found => (looks_ahead looksLikeCast).past fun cast =>
        .ite ?_ ((reads_readPostfix htokens hprogress hrules).last htokens)
      refine passes_advance.past htokens fun _ =>
        (consumes_separated .amp (by decide) (hprogress .type)).past htokens fun types =>
          (consumes_expectSymbol .rightParen).past htokens fun _ => (hrules .unary).bind htokens
            fun operand => lays_mkExpr fun item => by simp [ExprKind.parts, Nonterminal.items]

omit hprogress in
theorem reads_readVarInit : Reads tokens .begun Expr.items (readVarInit rules) := by
  refine .of_looks (looks_atSymbol .leftBrace) fun found => .ite ?_ (hrules .expr)
  exact .of_start fun start => (reads_readArrayItems htokens (hrules .varInit)).bind htokens fun items =>
    lays_mkExpr fun item => by simp [ExprKind.parts]

end Readers
end Grammar
end LockDiscipline
