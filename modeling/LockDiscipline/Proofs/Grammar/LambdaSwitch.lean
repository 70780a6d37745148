import LockDiscipline.Proofs.Grammar.Heads
import LockDiscipline.Proofs.Grammar.StatementLambdas
/-!
# What the labels of a case leave behind

The switch is off in the labels of a case, so that the arrow behind them is not taken for a lambda. Every reader
leaves a switch that is on as it is, whether it fails or not, and one that is off as long as it consumes no
keyword of a case. But behind the labels of a case the switch is always on. So where a label holds an anonymous
class with a `switch` statement in it, the labels behind that one are read with the switch on. Parentheses
around such a label put the switch back.
-/

namespace LockDiscipline

namespace Grammar

/-! ### Cases with labels -/

/-- Some case has labels. -/
def HasLabels (cases : List SwitchCase) : Prop :=
  ∃ case ∈ cases, case.isDefault = false

/-- If some case has labels, the switch is on. -/
def OnBehind (cases : List SwitchCase) (cursor : Cursor) : Prop :=
  HasLabels cases → cursor.lambdas = true

theorem not_hasLabels_nil : ¬HasLabels [] := by
  rintro ⟨case, hmem, -⟩
  cases hmem

theorem hasLabels_reverse {cases : List SwitchCase} : HasLabels cases.reverse ↔ HasLabels cases := by
  simp only [HasLabels, List.mem_reverse]

section Cases

variable {rules : Rules}

/-- Without the keyword of a case, only a case without labels can be read. -/
theorem yields_readCase_default :
    Yields (fun cursor => headKind cursor.rest ≠ .keyword .case) (readCase rules)
      fun case _ => case.isDefault = true := by
  have hdefault : Yields (fun cursor => headKind cursor.rest ≠ .keyword .case) (acceptKeyword .default)
      fun found cursor => found = false → headKind cursor.rest ≠ .keyword .case := by
    intro cursor found after hcursor hrun hfound
    rw [accepts_acceptKeyword .default cursor] at hrun
    split at hrun
    · cases hrun
      cases hfound
    · cases hrun
      exact hcursor
  refine hdefault.bind fun isDefault => .ite (fun hfound => ?_) fun hfound => ?_
  · exact .skip fun labels => .skip fun body => .pure fun _ _ => hfound
  · intro cursor case after hcursor hrun
    obtain ⟨error, -, hfails⟩ :=
      (expects_expectKeyword .case cursor).2 (hcursor (Bool.eq_false_iff.mpr hfound))
    rw [EStateM.run_bind, hfails] at hrun
    cases hrun

variable (hrules : rules.Restoring)
include hrules

/-- One more case keeps up that the switch is on behind labels. -/
theorem yields_readCase (cases : List SwitchCase) :
    Yields (OnBehind cases) (readCase rules) fun case => OnBehind (case :: cases) := by
  rintro cursor case after hcursor hrun ⟨labelled, hmem, hlabels⟩
  rw [← cursorAfter_of_run_ok hrun]
  rcases List.mem_cons.mp hmem with rfl | hmem
  · -- The case that was read has labels itself, so it began with its keyword.
    by_cases hcase : headKind cursor.rest = .keyword .case
    · exact (turnsOn_readCase hrules hcase).2
    · have hdefault : labelled.isDefault = true :=
        yields_readCase_default cursor labelled after hcase hrun
      rw [hlabels] at hdefault
      cases hdefault
  · -- A case before it has labels, so the switch was on.
    exact (restores_readCase hrules cursor).lambdas_eq_true (hcursor ⟨labelled, hmem, hlabels⟩)

theorem yields_readCase? (cases : List SwitchCase) :
    Yields (OnBehind cases) (readCase? rules) fun case? => OnBehind (case?.toList ++ cases) := by
  refine (Yields.atSymbol .rightBrace).bind fun closing => ?_
  have hend : Yields (OnBehind cases) atEnd fun _ => OnBehind cases := by
    intro cursor ended after hcursor hrun
    cases hrun
    exact hcursor
  refine hend.bind fun ended => .ite (fun _ => .pure fun _ h => h) fun _ => ?_
  exact (yields_readCase hrules cases).bind fun case => .pure fun _ h => h

/-- The cases that were read are kept in a list, the last one first. -/
theorem yields_readCases : Yields (fun _ => True) (collect (readCase? rules)) OnBehind := by
  have hloop : Yields (fun _ => True) (iterate (collectStep (readCase? rules)) []) OnBehind := by
    refine .iterate (fun _ _ hlabels => absurd hlabels not_hasLabels_nil) fun cases => ?_
    refine (yields_readCase? hrules cases).bind fun case? => ?_
    cases case? with
    | some case => exact .pure fun _ h => h
    | none => exact .pure fun _ h => h
  exact hloop.bind fun cases => .pure fun _ h hlabels => h (hasLabels_reverse.mp hlabels)

/-- A `switch` statement with a label leaves the switch on. -/
theorem yields_readSwitch : Yields (fun _ => True) (readSwitch rules) fun kind after =>
    ∀ selector cases, kind = .switch selector cases → OnBehind cases after := by
  have hclose (cases : List SwitchCase) :
      Yields (OnBehind cases) (expectSymbol .rightBrace) fun _ => OnBehind cases := by
    intro cursor span after hcursor hrun hlabels
    rw [← cursorAfter_of_run_ok hrun, (expects_expectSymbol .rightBrace).lambdas_eq]
    exact hcursor hlabels
  refine .skip fun _ => .skip fun selector => .skip fun _ => (yields_readCases hrules).bind fun cases =>
    (hclose cases).bind fun _ => .pure fun cursor hcursor selector' cases' hkind => ?_
  obtain ⟨-, rfl⟩ := StmtKind.switch.inj hkind
  exact hcursor

end Cases

/-! ### The theorem -/

/-- What readers do to the switch, where the nonterminals are read by `rules`. -/
structure LambdasRestored (rules : Rules) : Prop where
  /-- Types, annotations, expressions, statements, blocks and class bodies. -/
  nonterminal : ∀ {α : Type} (nonterminal : Nonterminal α), Restores (rules α nonterminal)
  /-- Types in a declaration, and modifiers. -/
  dims : Restores readDims
  typeName : Restores (readTypeName rules)
  typeArgs : Restores (readTypeArgs rules)
  typeList : Restores (readTypeList rules)
  typeParams : Restores (readTypeParams rules)
  modifiers : Restores (readModifiers rules)
  /-- Parts of expressions. -/
  primary : Restores (readPrimary rules)
  suffixed : Restores (readPostfix rules)
  afterDot : ∀ object start, Restores (readAfterDot rules object start)
  args : Restores (readArgs rules)
  arrayItems : ∀ item : Nonterminal Expr, Restores (readArrayItems (rules _ item))
  creation : ∀ start, Restores (readNew rules start)
  anonymousBody : ∀ superclass start, Restores (readAnonymousBody rules superclass start)
  lambda : ∀ start, Restores (readLambda rules start)
  exprs : Restores (separated .comma (rules _ .expr))
  /-- Statements, and lists of them with recovery from errors. -/
  condition : Restores (readCondition rules)
  localVars : Restores (readLocalVars rules)
  ifElse : Restores (readIf rules)
  forLoop : Restores (readFor rules)
  tryCatch : Restores (readTry rules)
  resource : Restores (readResource rules)
  switch : Restores (readSwitch rules)
  labels : Restores (separated .comma (rules _ .ternary))
  stmts : ∀ isEnd, Restores (readStmtsUntil rules isEnd)
  recovery : ∀ before, Restores (recoverInBlock before)
  /-- Classes and members. -/
  typeDecl : Restores (readTypeDecl rules)
  classDecl : ∀ modifiers start, Restores (readClass rules modifiers start)
  enumConstants : ∀ enumName, Restores (readEnumConstants rules enumName)
  member : ∀ className, Restores (readMember? rules className)
  methodRest : ∀ name modifiers typeParams returnType start,
    Restores (readMethodRest rules name modifiers typeParams returnType start)
  params : Restores (readParams rules)
  declarators : ∀ first start, Restores (readDeclarators rules first start)
  /-- Parentheses leave every switch as it was, also where a case is read between them. -/
  parenthesized : ∀ start cursor,
    (cursorAfter (readParenthesized rules start) cursor).lambdas = cursor.lambdas
  /-- A case that begins with its keyword leaves every switch on, whether it can be read or not. -/
  labelled : ∀ cursor, headKind cursor.rest = .keyword .case →
    (cursorAfter (readCase rules) cursor).lambdas = true
  /-- So does a `switch` statement in which a case has labels. -/
  labelledSwitch : ∀ cursor selector cases after,
    (readSwitch rules).run cursor = .ok (.switch selector cases) after → HasLabels cases →
      after.lambdas = true

/-- Wherever reading begins and whether it fails or not, a switch that is on stays on, and one that is off
stays off as long as no keyword of a case is consumed. Behind the labels of a case it is on. -/
theorem lambdas_restored (depth : Nat) : LambdasRestored (rules depth) :=
  have hrules : (rules depth).Restoring := restoring_rules depth
  { nonterminal := hrules
    dims := restores_readDims
    typeName := restores_readTypeName hrules
    typeArgs := restores_readTypeArgs hrules
    typeList := restores_readTypeList hrules
    typeParams := restores_readTypeParams hrules
    modifiers := restores_readModifiers hrules
    primary := restores_readPrimary hrules
    suffixed := restores_readPostfix hrules
    afterDot := restores_readAfterDot hrules
    args := restores_readArgs hrules
    arrayItems := fun item => restores_readArrayItems (hrules item)
    creation := restores_readNew hrules
    anonymousBody := restores_readAnonymousBody hrules
    lambda := restores_readLambda hrules
    exprs := restores_separated .comma (hrules .expr)
    condition := restores_readCondition hrules
    localVars := restores_readLocalVars hrules
    ifElse := restores_readIf hrules
    forLoop := restores_readFor hrules
    tryCatch := restores_readTry hrules
    resource := restores_readResource hrules
    switch := restores_readSwitch hrules
    labels := restores_separated .comma (hrules .ternary)
    stmts := restores_readStmtsUntil hrules
    recovery := restores_recoverInBlock
    typeDecl := restores_readTypeDecl hrules
    classDecl := restores_readClass hrules
    enumConstants := restores_readEnumConstants hrules
    member := restores_readMember? hrules
    methodRest := restores_readMethodRest hrules
    params := restores_readParams hrules
    declarators := restores_readDeclarators hrules
    parenthesized := lambdas_readParenthesized hrules
    labelled := fun _ hcase => (turnsOn_readCase hrules hcase).2
    labelledSwitch := fun cursor selector cases after hrun =>
      yields_readSwitch hrules cursor (.switch selector cases) after trivial hrun selector cases rfl }

/-- A `switch` statement with a label. -/
def labelledSwitchKinds : List TokenKind :=
  [.keyword .switch, .symbol .leftParen, .ident "i", .symbol .rightParen, .symbol .leftBrace,
    .keyword .case, .int 1, .symbol .colon, .symbol .rightBrace]

/-- A class with a `switch` statement of one case. Its labels are a new anonymous class, whose method has a
given body, and a name before the arrow of the case. -/
def arrowBehindTokens (body : List TokenKind) : List Token :=
  let opening : List TokenKind :=
    [.keyword .class, .ident "A", .symbol .leftBrace, .keyword .void, .ident "f", .symbol .leftParen,
      .ident "int", .ident "i", .symbol .rightParen, .symbol .leftBrace, .keyword .switch,
      .symbol .leftParen, .ident "i", .symbol .rightParen, .symbol .leftBrace]
  let label : List TokenKind :=
    [.keyword .case, .keyword .new, .ident "A", .symbol .leftParen, .symbol .rightParen,
      .symbol .leftBrace, .keyword .void, .ident "g", .symbol .leftParen, .symbol .rightParen,
      .symbol .leftBrace] ++ body ++ [.symbol .rightBrace, .symbol .rightBrace]
  let closing : List TokenKind :=
    [.symbol .comma, .ident "B", .symbol .arrow, .ident "g", .symbol .leftParen, .symbol .rightParen,
      .symbol .semicolon, .symbol .rightBrace, .symbol .rightBrace, .symbol .rightBrace]
  (opening ++ label ++ closing).map (⟨·, default⟩)

/-- A statement with a label in it turns a switch on that was off. In a label this lets the arrow behind the
next label begin a lambda, so that the case cannot be read. -/
theorem lambdas_of_labelled_switch :
    let tokens := labelledSwitchKinds.map (⟨·, default⟩)
    let cursor : Cursor := { Cursor.start tokens with lambdas := false }
    (cursorAfter (rules (depthFor tokens) _ .stmt) cursor).lambdas = true ∧
      (ParsedUnit.ofTokens (arrowBehindTokens [])).errors = [] ∧
      (ParsedUnit.ofTokens (arrowBehindTokens labelledSwitchKinds)).errors ≠ [] := by
  decide +kernel

end Grammar
end LockDiscipline
