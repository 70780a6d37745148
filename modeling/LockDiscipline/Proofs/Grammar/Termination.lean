import LockDiscipline.Proofs.Grammar.UnitOutcome
/-!
# Reading terminates

The loops and the recursion of the grammar are bounded by the tokens ahead: every list of tokens is read
as a compilation unit without a bound being met. What bounds them is said of the parts as well. A call that
yields something has consumed a token, an iteration consumes one or is the last, and a cursor stays at an
index of the token list. Looking ahead counts open brackets, and never counts down from zero.
-/

namespace LockDiscipline.Grammar

/-! ### Positions -/

/-- A cursor stands at an index of a token list that no token before marks as the end of the file, and the
token before it, if there is one, was consumed last. -/
structure StandsAt (tokens : List Token) (position : Nat) (cursor : Cursor) : Prop where
  rest_eq : cursor.rest = tokens.drop position
  le_end : position ≤ tokens.findIdx (·.kind == .eof)
  lastEnd_zero : position = 0 → cursor.lastEnd = 0
  lastEnd_succ : ∀ index, position = index + 1 →
    ∃ token, tokens[index]? = some token ∧ cursor.lastEnd = token.span.stop

/-- From the start of a token list a cursor only comes to indices of it. -/
theorem Forward.standsAt {tokens : List Token} {cursor : Cursor} (h : Forward (.start tokens) cursor) :
    StandsAt tokens (tokens.length - cursor.rest.length) cursor := by
  obtain ⟨read, hread, hkinds, hend⟩ := h.read
  obtain rfl : tokens = read ++ cursor.rest := hread
  have hposition : (read ++ cursor.rest).length - cursor.rest.length = read.length := by
    rw [List.length_append, Nat.add_sub_cancel]
  rw [hposition]
  refine ⟨(List.drop_left).symm, ?_, fun hzero => ?_, fun index hindex => ?_⟩
  · have hnone : read.findIdx (·.kind == .eof) = read.length :=
      List.findIdx_eq_length_of_false fun token htoken => beq_false_of_ne (hkinds token htoken)
    rw [List.findIdx_append, hnone, if_neg (Nat.lt_irrefl _)]
    exact Nat.le_add_left _ _
  · rw [hend, List.eq_nil_of_length_eq_zero hzero]
    rfl
  · have hlt : index < read.length := by omega
    refine ⟨read[index], ?_, ?_⟩
    · rw [List.getElem?_append_left hlt, List.getElem?_eq_getElem hlt]
    · have hlast : read.getLast? = some read[index] := by
        rw [List.getLast?_eq_getElem?, hindex, Nat.add_sub_cancel, List.getElem?_eq_getElem hlt]
      rw [hend, hlast]
      rfl

/-! ### Calls and iterations -/

/-- Calls of a reader only move forward, and one that yields a value has consumed a token. -/
def Proceeds {α : Type} (reader : Reader α) : Prop :=
  ∀ cursor, match reader.run cursor with
    | .ok _ after => Forward cursor after ∧ after.rest.length < cursor.rest.length
    | .error _ after => Forward cursor after

/-- Iterations of a loop only move forward. One that another may follow has consumed a token, or else the
other one ends the loop wherever it begins. -/
def Iterates {α : Type} (step : α → Reader (Option α)) : Prop :=
  ∀ value cursor, match (step value).run cursor with
    | .ok (some next) after => Forward cursor after ∧
        (after.rest.length < cursor.rest.length ∨ ∀ later, (step next).run later = .ok none later)
    | .ok none after => Forward cursor after
    | .error _ after => Forward cursor after

section Parts

variable {α : Type} {level : Nat}

theorem Consumes.proceeds {reader : Reader α} (h : Consumes none level reader) : Proceeds reader := by
  intro cursor
  have houtcome := @h Anywhere ⟨level, 0⟩ (Nat.le_refl _) cursor trivial nofun
  cases hrun : reader.run cursor with
  | ok value after =>
      rw [hrun] at houtcome
      exact ⟨Accounts.forward houtcome, Accounts.length_lt houtcome (Nat.le_refl _)⟩
  | error error after =>
      rw [hrun] at houtcome
      exact houtcome.2.forward

theorem Advances.iterates {step : α → Reader (Option α)} (h : Advances none level step) :
    Iterates step := by
  intro value cursor
  have houtcome := @h value ⟨level, 0⟩ (Nat.le_refl _) cursor trivial nofun
  cases hrun : (step value).run cursor with
  | ok next after =>
      rw [hrun] at houtcome
      cases next with
      | none => exact Accounts.forward houtcome
      | some next => exact ⟨Accounts.forward houtcome, .inl (Accounts.length_lt houtcome (Nat.le_refl _))⟩
  | error error after =>
      rw [hrun] at houtcome
      exact houtcome.2.forward

theorem Recovers.iterates {more : α → Bool} {step : α → Reader (Option α)}
    (h : Recovers none level more step) : Iterates step := by
  intro value cursor
  have houtcome := @Recovers.goes _ _ _ _ _ h value ⟨level, 0⟩ (Nat.le_refl _) cursor trivial nofun
  cases hrun : (step value).run cursor with
  | ok next after =>
      rw [hrun] at houtcome
      cases next with
      | none => exact Accounts.forward houtcome
      | some next =>
          refine ⟨Accounts.forward houtcome, ?_⟩
          cases hmore : more next with
          | false => exact .inr fun later => h.ends next later (.inl hmore)
          | true =>
              have hgained : Accounts none ⟨level, 1⟩ ⟨level + 8, 1⟩ cursor after := by
                simpa only [Afforded, Allowance.recovered, hmore, if_true] using houtcome
              exact .inl (hgained.length_lt (Nat.le_refl _))
  | error error after =>
      rw [hrun] at houtcome
      exact houtcome.2.forward

end Parts

/-! ### Counters of open brackets -/

/-- What is left behind type arguments, with a counter of brackets that cannot be counted down from zero.
There is no result where it would be. -/
def countedTypeArgs (depth : Nat) : List Token → Option (Option (List Token))
  | [] => some none
  | token :: rest =>
      if token.kind = .symbol .less then countedTypeArgs (depth + 1) rest
      else if token.kind = .symbol .greater then
        if depth = 0 then none
        else if depth = 1 then some (some rest)
        else countedTypeArgs (depth - 1) rest
      else if isTypeArgumentToken token.kind then countedTypeArgs depth rest
      else some none

/-- Inside of a bracket the counter is not zero. -/
theorem countedTypeArgs_succ (depth : Nat) (tokens : List Token) :
    countedTypeArgs (depth + 1) tokens = some (scanTypeArgs (depth + 1) tokens) := by
  induction tokens generalizing depth with
  | nil => rfl
  | cons token rest ih =>
      rw [countedTypeArgs, scanTypeArgs]
      split
      · exact ih (depth + 1)
      · split
        · cases depth with
          | zero => rfl
          | succ depth => exact ih depth
        · split
          · exact ih depth
          · rfl

theorem countedTypeArgs_zero {tokens : List Token} (h : headKind tokens = .symbol .less) :
    countedTypeArgs 0 tokens = some (scanTypeArgs 0 tokens) := by
  cases tokens with
  | nil => cases h
  | cons token rest =>
      have hkind : token.kind = .symbol .less := h
      rw [countedTypeArgs, scanTypeArgs, if_pos hkind, if_pos hkind]
      exact countedTypeArgs_succ 0 rest

/-- What is left behind a chain of identifiers with type arguments, where the brackets are counted. -/
def countedTypeSegments : Nat → List Token → Option (Option (List Token))
  | 0, _ => some none
  | _, [] => some none
  | bound + 1, token :: rest =>
      if token.kind.isIdent then
        let afterArgs? :=
          if headKind rest = .symbol .less then countedTypeArgs 0 rest else some (some rest)
        match afterArgs? with
        | none => none
        | some none => some none
        | some (some after) =>
            if headKind after = .symbol .dot ∧ (kindAt 1 after).isIdent then
              countedTypeSegments bound (after.drop 1)
            else some (some after)
      else some none

/-- Type arguments are only looked for at an opening bracket. -/
theorem countedTypeSegments_eq (bound : Nat) (tokens : List Token) :
    countedTypeSegments bound tokens = some (scanTypeSegments bound tokens) := by
  induction bound generalizing tokens with
  | zero => rfl
  | succ bound ih =>
      cases tokens with
      | nil => rfl
      | cons token rest =>
          have hargs : (if headKind rest = .symbol .less then countedTypeArgs 0 rest
              else some (some rest)) =
              some (if headKind rest = .symbol .less then scanTypeArgs 0 rest else some rest) := by
            split
            · next hless => exact countedTypeArgs_zero hless
            · rfl
          rw [countedTypeSegments, scanTypeSegments, hargs]
          split
          · cases (if headKind rest = .symbol .less then scanTypeArgs 0 rest else some rest) with
            | none => rfl
            | some after =>
                dsimp only
                split
                · exact ih (after.drop 1)
                · rfl
          · rfl

/-- Whether an arrow follows the parenthesis that closes `depth` open ones, with a counter that cannot be
counted down from zero. -/
def countedArrow (depth : Nat) : List Token → Option Bool
  | [] => some false
  | token :: rest =>
      match token.kind with
      | .symbol .leftParen => countedArrow (depth + 1) rest
      | .symbol .rightParen =>
          if depth = 0 then none
          else if depth = 1 then some (headKind rest == .symbol .arrow)
          else countedArrow (depth - 1) rest
      | .eof | .symbol .semicolon | .symbol .leftBrace => some false
      | _ => countedArrow depth rest

/-- Inside of a parenthesis the counter is not zero. -/
theorem countedArrow_of_pos {depth : Nat} (tokens : List Token) (h : 0 < depth) :
    countedArrow depth tokens = some (arrowFollows depth tokens) := by
  fun_induction arrowFollows depth tokens with
  | case1 depth => rfl
  | case2 depth token rest hkind ih =>
      rw [countedArrow, hkind]
      exact ih (Nat.succ_pos depth)
  | case3 depth token rest hkind hone =>
      rw [countedArrow, hkind]
      dsimp only
      rw [if_neg (Nat.ne_of_gt h), if_pos (Nat.le_antisymm hone h)]
  | case4 depth token rest hkind hmore ih =>
      rw [countedArrow, hkind]
      dsimp only
      rw [if_neg (Nat.ne_of_gt h), if_neg fun hone => hmore (Nat.le_of_eq hone)]
      exact ih (by omega)
  | case5 depth token rest hkind => rw [countedArrow, hkind]
  | case6 depth token rest hkind => rw [countedArrow, hkind]
  | case7 depth token rest hkind => rw [countedArrow, hkind]
  | case8 depth token rest hopen hclose hend hsemicolon hbrace ih =>
      rw [countedArrow]
      split
      · exact absurd ‹_› hopen
      · exact absurd ‹_› hclose
      · exact absurd ‹_› hend
      · exact absurd ‹_› hsemicolon
      · exact absurd ‹_› hbrace
      · exact ih h

/-- The parameters of a lambda are only looked for at an opening parenthesis. -/
theorem countedArrow_zero {tokens : List Token} (h : headKind tokens = .symbol .leftParen) :
    countedArrow 0 tokens = some (looksLikeLambda tokens) := by
  cases tokens with
  | nil => cases h
  | cons token rest =>
      have hkind : token.kind = .symbol .leftParen := h
      rw [looksLikeLambda, countedArrow, arrowFollows, hkind]
      exact countedArrow_of_pos rest Nat.one_pos

/-! ### The theorem -/

/-- Reading a token list terminates. What is said of calls and iterations holds at every cursor and for
rules tied to any depth, so it holds of all that are made on the way. -/
structure Terminates (tokens : List Token) : Prop where
  /-- A compilation unit is read to its end. No bound on the rules or the iterations is met on the way. -/
  unit : ∃ unit after, (readUnit (rules (depthFor tokens))).run (.start tokens) = .ok unit after ∧
    Forward (.start tokens) after ∧ ∀ error ∈ after.errors, error.fault ≠ .tooDeep
  /-- Nor is one met where an expression is read by itself. -/
  expr : ∀ error, Expr.ofTokens tokens = .error error → error.fault ≠ .tooDeep
  /-- Wherever a cursor comes to is an index of the list, not behind the end of the file. -/
  position : ∀ cursor, Forward (.start tokens) cursor →
    StandsAt tokens (tokens.length - cursor.rest.length) cursor
  /-- Expressions, statements and all other nonterminals. -/
  nonterminal : ∀ depth {α} (nonterminal : Nonterminal α), Proceeds (rules depth α nonterminal)
  member : ∀ depth className, Proceeds (readMember? (rules depth) className)
  typeDecl : ∀ depth, Proceeds (readTypeDecl (rules depth))
  /-- The lists of declarations and statements, recovery from errors included. -/
  imports : Iterates readImportsStep
  typeDecls : ∀ depth, Iterates (readTypeDeclsStep (rules depth))
  enumConstants : ∀ depth enumName, Iterates (readEnumConstantsStep (rules depth) enumName)
  members : ∀ depth className, Iterates (readMembersStep (rules depth) className)
  block : ∀ depth, Iterates (readStmtsStep (rules depth) (· == .symbol .rightBrace))
  cases : ∀ depth, Iterates (collectStep (readCase? (rules depth)))
  caseBody : ∀ depth, Iterates (readStmtsStep (rules depth) endsCase)
  /-- Recovery itself. -/
  toTypeDecl : Iterates skipToTypeDeclStep
  toMember : Iterates skipToMemberStep
  toStatement : Iterates skipToStatementStep
  toClosingBrace : Iterates skipToClosingBraceStep
  pastSemicolon : Iterates fun () => skipPastSemicolonStep
  /-- No counter of open brackets is counted down from zero. The one for lambdas starts where an operand in
  parentheses begins. -/
  typeCounter : ∀ bound later, countedTypeSegments bound later = some (scanTypeSegments bound later)
  lambdaCounter : ∀ later, headKind later = .symbol .leftParen →
    countedArrow 0 later = some (looksLikeLambda later)

/-- Every token list is read in finitely many steps, each list of declarations or statements in as many
iterations as it has tokens at most. -/
theorem reading_terminates (tokens : List Token) : Terminates tokens where
  unit := by
    obtain ⟨unit, after, hrun, haccounts⟩ := @exists_readUnit _ _
      (consuming_rules (depthFor tokens)) ⟨8, 0⟩ (by decide) (.start tokens) rfl (Nat.le_refl _)
    refine ⟨unit, after, hrun, haccounts.forward, fun error hmem => ?_⟩
    exact (haccounts.shallow error hmem).resolve_left List.not_mem_nil rfl
  expr error h := by
    have houtcome := @consumes_readSoleExpr _ _ (consuming_rules (depthFor tokens)) Anywhere ⟨8, 0⟩
      (by decide) (.start tokens) trivial (suffices_some.mpr (Nat.le_refl _))
    rw [Expr.ofTokens] at h
    split at h
    · cases h
    · next hrun =>
      cases h
      rw [hrun] at houtcome
      exact houtcome.1 rfl
  position cursor h := h.standsAt
  nonterminal depth _ nonterminal := (consuming_rules_unasked depth nonterminal).proceeds
  member depth className := (consumes_readMember? (consuming_rules_unasked depth) className).proceeds
  typeDecl depth := (consumes_readTypeDecl (consuming_rules_unasked depth)).proceeds
  imports := recovers_readImportsStep.iterates
  typeDecls depth := (recovers_readTypeDeclsStep (consuming_rules_unasked depth)).iterates
  enumConstants depth enumName :=
    (advances_readEnumConstantsStep (consuming_rules_unasked depth) enumName).iterates
  members depth className :=
    (recovers_readMembersStep (consuming_rules_unasked depth) className).iterates
  block depth := (recovers_readStmtsStep (consuming_rules_unasked depth) rfl).iterates
  cases depth := (advances_readCases (consuming_rules_unasked depth)).iterates
  caseBody depth := (recovers_readStmtsStep (consuming_rules_unasked depth) rfl).iterates
  toTypeDecl := advances_skipToTypeDeclStep.iterates
  toMember := advances_skipToMemberStep.iterates
  toStatement := advances_skipToStatementStep.iterates
  toClosingBrace := advances_skipToClosingBraceStep.iterates
  pastSemicolon := advances_skipPastSemicolonStep.iterates
  typeCounter := countedTypeSegments_eq
  lambdaCounter _ h := countedArrow_zero h

end LockDiscipline.Grammar
