import LockDiscipline.Proofs.Grammar.BasicProgress
import LockDiscipline.Proofs.Token.Layout
/-!
# Precedence climbing

A sequence of names with binary operators between them can be bracketed in many ways. In just one of them no
left operand binds more weakly than the operator that takes it, and every right operand binds more strongly:
operators of higher precedence bind first, and those of one precedence from the left. Reading operands with
binary operators takes all of the sequence and gives this bracketing.

What is read of a tree that is bracketed so is told by induction on the tree. Behind its first name the loop of
the reader comes to the tree in as many iterations as there are operators on the way from the root to this
name, whatever stands behind the sequence of the tree. This also says that there is no other such tree, for
both would be read.
-/

namespace LockDiscipline

/-! ### Bracketings -/

/-- Names with binary operators between them, bracketed. -/
inductive OperatorTree where
  | operand (name : String)
  | node (op : BinaryOp) (left right : OperatorTree)

namespace OperatorTree

/-- The leftmost name. -/
def first : OperatorTree → String
  | operand name => name
  | node _ left _ => left.first

/-- The operators from left to right, each with the name behind it. -/
def steps : OperatorTree → List (BinaryOp × String)
  | operand _ => []
  | node op left right => left.steps ++ (op, right.first) :: right.steps

/-- The operator that binds last. -/
def top? : OperatorTree → Option BinaryOp
  | operand _ => none
  | node op _ _ => some op

/-- Every left operand binds at least as strongly as the operator that takes it, and every right operand more
strongly. -/
def Binds : OperatorTree → Prop
  | operand _ => True
  | node op left right =>
      (∀ top ∈ left.top?, Grammar.precedence op ≤ Grammar.precedence top) ∧
        (∀ top ∈ right.top?, Grammar.precedence op < Grammar.precedence top) ∧ left.Binds ∧ right.Binds

/-- A tree is bracketed by precedence and is a name and operators with names from left to right. -/
structure Brackets (tree : OperatorTree) (name : String) (steps : List (BinaryOp × String)) : Prop where
  first_eq : tree.first = name
  steps_eq : tree.steps = steps
  binds : tree.Binds

/-- A tree with one more operator and name at its right end, bracketed by precedence. -/
def extend (op : BinaryOp) (name : String) : OperatorTree → OperatorTree
  | operand first => node op (operand first) (operand name)
  | node top left right =>
      if Grammar.precedence op ≤ Grammar.precedence top then node op (node top left right) (operand name)
      else node top left (right.extend op name)

theorem first_extend (op : BinaryOp) (name : String) (tree : OperatorTree) :
    (tree.extend op name).first = tree.first := by
  cases tree with
  | operand first => rfl
  | node top left right =>
      rw [extend]
      split <;> rfl

theorem steps_extend (op : BinaryOp) (name : String) (tree : OperatorTree) :
    (tree.extend op name).steps = tree.steps ++ [(op, name)] := by
  induction tree with
  | operand first => rfl
  | node top left right _ ih =>
      rw [extend]
      split
      · rfl
      · rw [steps, ih, first_extend, steps, List.append_assoc, List.cons_append]

/-- The operator that binds last in a longer tree did so before or is the new one. -/
theorem top?_extend {op : BinaryOp} {name : String} {tree : OperatorTree} {top : BinaryOp}
    (h : top ∈ (tree.extend op name).top?) : top ∈ tree.top? ∨ top = op := by
  cases tree with
  | operand first => exact .inr (Option.some.inj h).symm
  | node root left right =>
      rw [extend] at h
      split at h
      · exact .inr (Option.some.inj h).symm
      · exact .inl h

theorem Binds.extend {tree : OperatorTree} (h : tree.Binds) (op : BinaryOp) (name : String) :
    (tree.extend op name).Binds := by
  induction tree with
  | operand first => exact ⟨nofun, nofun, trivial, trivial⟩
  | node root left right _ ih =>
      rw [OperatorTree.extend]
      split
      case isTrue hle =>
        exact ⟨fun top htop => Option.some.inj htop ▸ hle, nofun, h, trivial⟩
      case isFalse hlt =>
        obtain ⟨hleft, hright, hbinds, hbinds'⟩ := h
        refine ⟨hleft, fun top htop => ?_, hbinds, ih hbinds'⟩
        rcases top?_extend htop with htop | rfl
        · exact hright top htop
        · exact Nat.lt_of_not_le hlt

/-- Every sequence of names and operators is bracketed by precedence. -/
theorem exists_brackets (name : String) (steps : List (BinaryOp × String)) :
    ∃ tree : OperatorTree, tree.Brackets name steps := by
  induction steps using List.reverseRecOn with
  | nil => exact ⟨operand name, rfl, rfl, trivial⟩
  | append_singleton steps step ih =>
      obtain ⟨tree, hfirst, rfl, hbinds⟩ := ih
      obtain ⟨op, next⟩ := step
      exact ⟨tree.extend op next, (first_extend op next tree).trans hfirst, steps_extend op next tree,
        hbinds.extend op next⟩

/-- How many operators are on the way from the root to the leftmost name. -/
def spine : OperatorTree → Nat
  | operand _ => 0
  | node _ left _ => left.spine + 1

theorem spine_le_length_steps (tree : OperatorTree) : tree.spine ≤ tree.steps.length := by
  induction tree with
  | operand name => exact Nat.le_refl 0
  | node op left right ih _ =>
      rw [spine, steps, List.length_append, List.length_cons]
      omega

end OperatorTree

/-- An expression is bracketed like a tree. -/
inductive Expr.Shows : Expr → OperatorTree → Prop
  | operand (id : NodeId) (name : String) (span : Span) : Shows ⟨id, .name name, span⟩ (.operand name)
  | node (id : NodeId) {op : BinaryOp} {left right : Expr} (span : Span) {tree tree' : OperatorTree}
      (hleft : Shows left tree) (hright : Shows right tree') :
      Shows ⟨id, .binary op left right, span⟩ (.node op tree tree')

/-- An expression is bracketed in one way. -/
theorem Expr.Shows.unique {expr : Expr} {tree tree' : OperatorTree} (h : expr.Shows tree)
    (h' : expr.Shows tree') : tree = tree' := by
  induction h generalizing tree' with
  | operand id name span =>
      cases h'
      rfl
  | node id span _ _ ihleft ihright =>
      cases h' with
      | node _ _ hleft hright => rw [ihleft hleft, ihright hright]

namespace Grammar

/-! ### Tokens of operators -/

/-- Tokens spell an operator: a symbol does, and so do adjacent angle brackets for a shift to the right. -/
inductive SpellsOperator : BinaryOp → List Token → Prop
  | symbol {op : BinaryOp} {sign : Symbol} (span : Span) (htext : sign.text = op.text) :
      SpellsOperator op [⟨.symbol sign, span⟩]
  | shiftRight {span span' : Span} (hspan : span.stop = span'.start) :
      SpellsOperator .shiftRight [⟨.symbol .greater, span⟩, ⟨.symbol .greater, span'⟩]
  | unsignedShiftRight {span span' span'' : Span} (hspan : span.stop = span'.start)
      (hspan' : span'.stop = span''.start) :
      SpellsOperator .unsignedShiftRight
        [⟨.symbol .greater, span⟩, ⟨.symbol .greater, span'⟩, ⟨.symbol .greater, span''⟩]

/-- Tokens spell operators, each with a name behind it. -/
inductive SpellsSteps : List (BinaryOp × String) → List Token → Prop
  | nil : SpellsSteps [] []
  | cons {op : BinaryOp} {name : String} {span : Span} {steps : List (BinaryOp × String)} {sign tokens : List Token}
      (hop : SpellsOperator op sign) (hsteps : SpellsSteps steps tokens) :
      SpellsSteps ((op, name) :: steps) (sign ++ ⟨.ident name, span⟩ :: tokens)

theorem SpellsOperator.kind_ne_eof {op : BinaryOp} {sign : List Token} (h : SpellsOperator op sign) :
    ∀ token ∈ sign, token.kind ≠ .eof := by
  cases h <;> simp

namespace SpellsSteps

variable {steps : List (BinaryOp × String)} {tokens : List Token}

theorem length_le (h : SpellsSteps steps tokens) : steps.length ≤ tokens.length := by
  induction h with
  | nil => exact Nat.le_refl 0
  | cons hop _ ih =>
      rw [List.length_append, List.length_cons, List.length_cons]
      omega

/-- Tokens of more operators are the tokens of some and those of the others. -/
theorem exists_of_append {front back : List (BinaryOp × String)} (h : SpellsSteps (front ++ back) tokens) :
    ∃ before behind, tokens = before ++ behind ∧ SpellsSteps front before ∧ SpellsSteps back behind := by
  induction front generalizing tokens with
  | nil => exact ⟨[], tokens, rfl, .nil, h⟩
  | cons step front ih =>
      cases h with
      | @cons _ _ span _ sign _ hop hsteps =>
          obtain ⟨before, behind, rfl, hbefore, hbehind⟩ := ih hsteps
          exact ⟨_, behind, by rw [List.append_assoc, List.cons_append], .cons hop hbefore, hbehind⟩

end SpellsSteps

/-- What may stand behind a sequence of operands and operators: a closing parenthesis or bracket, a semicolon, a
comma, or the end of the file. -/
def Closes (rest : List Token) : Prop :=
  headKind rest ∈ [.eof, .symbol .rightParen, .symbol .rightBracket, .symbol .semicolon, .symbol .comma]

instance (rest : List Token) : Decidable (Closes rest) :=
  inferInstanceAs (Decidable (headKind rest ∈ _))

/-- What may stand behind an operand: an operator, or the end of the sequence. -/
def mayFollow : TokenKind → Bool
  | .eof => true
  | .symbol sign =>
      [.rightParen, .rightBracket, .semicolon, .comma].contains sign || (symbolOperator? sign).isSome
  | _ => false

theorem symbolOperator?_of_text {sign : Symbol} {op : BinaryOp} (h : sign.text = op.text) :
    symbolOperator? sign = some op := by
  have hall : ∀ sign ∈ Symbol.all, sign.text = op.text → symbolOperator? sign = some op := by
    cases op <;> decide +kernel
  exact hall sign (Lexer.mem_all_symbols sign) h

theorem Closes.mayFollow {rest : List Token} (h : Closes rest) : mayFollow (headKind rest) := by
  have hall : ∀ kind ∈ [TokenKind.eof, .symbol .rightParen, .symbol .rightBracket, .symbol .semicolon, .symbol .comma],
      Grammar.mayFollow kind := by
    decide
  exact hall _ h

theorem ne_of_mayFollow {kind other : TokenKind} (h : mayFollow kind) (hother : ¬mayFollow other) : kind ≠ other :=
  fun heq => hother (heq ▸ h)

theorem SpellsOperator.mayFollow {op : BinaryOp} {sign : List Token} (h : SpellsOperator op sign)
    (rest : List Token) : Grammar.mayFollow (headKind (sign ++ rest)) := by
  cases h with
  | symbol span htext =>
      have hop := symbolOperator?_of_text htext
      simp [Grammar.mayFollow, headKind, hop]
  | shiftRight | unsignedShiftRight => rfl

theorem SpellsSteps.mayFollow {steps : List (BinaryOp × String)} {tokens rest : List Token}
    (h : SpellsSteps steps tokens) (hrest : Grammar.mayFollow (headKind rest)) :
    Grammar.mayFollow (headKind (tokens ++ rest)) := by
  cases h with
  | nil => exact hrest
  | cons hop _ =>
      rw [List.append_assoc]
      exact hop.mayFollow _

theorem binaryOperator?_symbol {sign : Symbol} (hsign : sign ≠ .greater) (span : Span) (rest : List Token) :
    binaryOperator? (⟨.symbol sign, span⟩ :: rest) = (symbolOperator? sign).map (·, 1) := by
  cases sign <;> first | rfl | exact absurd rfl hsign

/-- An operator before a name is found with its tokens. -/
theorem SpellsOperator.binaryOperator? {op : BinaryOp} {sign : List Token} (h : SpellsOperator op sign)
    (name : String) (span : Span) (rest : List Token) :
    Grammar.binaryOperator? (sign ++ ⟨.ident name, span⟩ :: rest) = some (op, sign.length) := by
  cases h with
  | @symbol _ sign _ htext =>
      have hop := symbolOperator?_of_text htext
      by_cases hgreater : sign = .greater
      · subst hgreater
        obtain rfl := Option.some.inj hop
        rfl
      · rw [List.singleton_append, binaryOperator?_symbol hgreater, hop]
        rfl
  | shiftRight hspan =>
      simp [Grammar.binaryOperator?, headKind, adjacentBrackets, hspan]
  | unsignedShiftRight hspan hspan' =>
      simp [Grammar.binaryOperator?, headKind, adjacentBrackets, hspan, hspan']

theorem Closes.binaryOperator? {rest : List Token} (h : Closes rest) : Grammar.binaryOperator? rest = none := by
  unfold Grammar.binaryOperator?
  simp only [Closes, List.mem_cons, List.not_mem_nil, or_false] at h
  rcases h with h | h | h | h | h <;> rw [h] <;> rfl

/-! ### Reading names and operators -/

section Runs

variable {α β : Type} {cursor after : Cursor}

theorem run_bind_ok {reader : Reader α} {next : α → Reader β} {value : α}
    (h : reader.run cursor = .ok value after) : (reader >>= next).run cursor = (next value).run after := by
  rw [EStateM.run_bind, h]

theorem run_get : (get : Reader Cursor).run cursor = .ok cursor cursor :=
  rfl

theorem run_peek (count : Nat) : (peek count).run cursor = .ok (kindAt count cursor.rest) cursor :=
  rfl

theorem run_currentStart : currentStart.run cursor = .ok cursor.current.span.start cursor :=
  rfl

theorem run_currentKind : currentKind.run cursor = .ok (headKind cursor.rest) cursor := by
  rw [← kind_current]
  rfl

theorem run_loopBound : loopBound.run cursor = .ok (cursor.rest.length + 1) cursor :=
  rfl

theorem beq_current_kind {kind : TokenKind} (h : headKind cursor.rest ≠ kind) :
    (cursor.current.kind == kind) = false := by
  rw [kind_current]
  exact beq_false_of_ne h

theorem run_atSymbol {sign : Symbol} (h : headKind cursor.rest ≠ .symbol sign) :
    (atSymbol sign).run cursor = .ok false cursor :=
  congrArg (EStateM.Result.ok · cursor) (beq_current_kind h)

theorem run_atKeyword {word : Keyword} (h : headKind cursor.rest ≠ .keyword word) :
    (atKeyword word).run cursor = .ok false cursor :=
  congrArg (EStateM.Result.ok · cursor) (beq_current_kind h)

theorem run_advance {token : Token} {rest : List Token} (hcursor : cursor.rest = token :: rest)
    (htoken : token.kind ≠ .eof) :
    advance.run cursor = .ok () { cursor with rest, lastEnd := token.span.stop } := by
  have hadvance : cursor.advance = { cursor with rest, lastEnd := token.span.stop } := by
    rw [Cursor.advance, hcursor]
    exact if_neg htoken
  rw [← hadvance]
  rfl

/-- A name is read where no call or lambda follows. -/
theorem run_readNameOrCall (rules : Rules) {name : String} {span : Span} {rest : List Token} (start : Nat)
    (hcursor : cursor.rest = ⟨.ident name, span⟩ :: rest) (hrest : mayFollow (headKind rest)) :
    ∃ id span' after, (readNameOrCall rules name start).run cursor = .ok ⟨id, .name name, span'⟩ after ∧
      after.rest = rest := by
  have hlambda : (cursor.lambdas && (kindAt 1 cursor.rest == .symbol .arrow)) = false := by
    have hnext : kindAt 1 cursor.rest = headKind rest := by rw [hcursor]; rfl
    rw [hnext, beq_false_of_ne (ne_of_mayFollow hrest (by decide)), Bool.and_false]
  let after : Cursor := { cursor with rest, lastEnd := span.stop }
  have hparen : headKind after.rest ≠ .symbol .leftParen := ne_of_mayFollow hrest (by decide)
  refine ⟨after.nextId, ⟨start, span.stop⟩, { after with nextId := after.nextId + 1 }, ?_, rfl⟩
  rw [readNameOrCall, run_bind_ok run_get, run_bind_ok (run_peek 1), hlambda, if_neg Bool.false_ne_true,
    run_bind_ok (run_advance hcursor nofun), run_bind_ok (run_atSymbol hparen), if_neg Bool.false_ne_true]
  rfl

theorem run_readSuffix? (rules : Rules) (expr : Expr) (start : Nat) (hrest : mayFollow (headKind cursor.rest)) :
    (readSuffix? rules expr start).run cursor = .ok none cursor := by
  rw [readSuffix?, run_bind_ok run_currentKind]
  split
  case h_6 => rfl
  all_goals
    rename_i hkind
    rw [hkind] at hrest
    exact absurd hrest (by decide)

/-- A loop whose first iteration is the last yields the value that it begins with. -/
theorem run_iterateUpTo_done {step : α → Reader (Option α)} {value : α} (h : (step value).run cursor = .ok none after)
    (bound : Nat) : (iterateUpTo step (bound + 1) value).run cursor = .ok value after := by
  rw [iterateUpTo, run_bind_ok h]
  rfl

theorem run_iterateUpTo_next {step : α → Reader (Option α)} {value next : α}
    (h : (step value).run cursor = .ok (some next) after) (bound : Nat) :
    (iterateUpTo step (bound + 1) value).run cursor = (iterateUpTo step bound next).run after := by
  rw [iterateUpTo, run_bind_ok h]

/-- Before what may follow a name, the name is all of the operand. -/
theorem run_unary (depth : Nat) {name : String} {span : Span} {rest : List Token}
    (hcursor : cursor.rest = ⟨.ident name, span⟩ :: rest) (hrest : mayFollow (headKind rest)) :
    ∃ expr after, (rules (depth + 1) _ .unary).run cursor = .ok expr after ∧ after.rest = rest ∧
      expr.Shows (.operand name) := by
  have hkind : headKind cursor.rest = .ident name := by rw [hcursor]; rfl
  have hparen : headKind cursor.rest ≠ .symbol .leftParen := by rw [hkind]; nofun
  obtain ⟨id, span', after, hname, rfl⟩ :=
    run_readNameOrCall (rules depth) cursor.current.span.start hcursor hrest
  have hprimary : (readPrimary (rules depth)).run cursor = .ok ⟨id, .name name, span'⟩ after := by
    rw [readPrimary, run_bind_ok run_currentStart, run_bind_ok run_currentKind, hkind]
    exact hname
  refine ⟨⟨id, .name name, span'⟩, after, ?_, rfl, .operand id name span'⟩
  change (readUnary (rules depth)).run cursor = _
  rw [readUnary, run_bind_ok run_currentStart, run_bind_ok run_currentKind, hkind]
  change ((atSymbol .leftParen) >>= _).run cursor = _
  rw [run_bind_ok (run_atSymbol hparen)]
  change ((readPostfix (rules depth))).run cursor = _
  rw [readPostfix, run_bind_ok run_currentStart, run_bind_ok hprimary]
  change (iterate _ _).run after = _
  rw [iterate, run_bind_ok run_loopBound]
  exact run_iterateUpTo_done (run_readSuffix? _ _ _ hrest) _

theorem run_advanceBy {tokens rest : List Token} (hcursor : cursor.rest = tokens ++ rest)
    (htokens : ∀ token ∈ tokens, token.kind ≠ .eof) :
    ∃ after, (advanceBy tokens.length).run cursor = .ok () after ∧ after.rest = rest := by
  induction tokens generalizing cursor with
  | nil => exact ⟨cursor, rfl, hcursor⟩
  | cons token tokens ih =>
      obtain ⟨htoken, htokens⟩ := List.forall_mem_cons.mp htokens
      rw [List.length_cons, advanceBy, run_bind_ok (run_advance hcursor htoken)]
      exact ih rfl htokens

/-- One more operator of at least a precedence, and its right operand. -/
def climbStep (rules : Rules) (least start : Nat) (left : Expr) : Reader (Option Expr) := do
  if ← atKeyword .instanceof then
    if relationalPrecedence < least then return none
    else return some (← readInstanceOf rules left start)
  else
    match binaryOperator? (← get).rest with
    | none => return none
    | some (op, width) =>
        if precedence op < least then return none
        else
          advanceBy width
          let right ← rules _ (.binary (precedence op + 1))
          return some (← mkExpr (.binary op left right) start)

theorem readBinary_eq (rules : Rules) (least : Nat) : readBinary rules least = (do
    let start ← currentStart
    let first ← rules _ .unary
    iterate (climbStep rules least start) first) :=
  rfl

/-- Where no operator of at least the precedence follows, the loop ends. -/
theorem run_climbStep_none (rules : Rules) {least : Nat} (start : Nat) (left : Expr)
    (hrest : mayFollow (headKind cursor.rest))
    (hleast : ∀ op width, binaryOperator? cursor.rest = some (op, width) → precedence op < least) :
    (climbStep rules least start left).run cursor = .ok none cursor := by
  rw [climbStep, run_bind_ok (run_atKeyword (ne_of_mayFollow hrest (by decide))), if_neg Bool.false_ne_true,
    run_bind_ok run_get]
  cases hop : binaryOperator? cursor.rest with
  | none => rfl
  | some found =>
      obtain ⟨op, width⟩ := found
      exact congrArg (EStateM.run · cursor) (if_pos (hleast op width hop))

/-- Where an operator of at least the precedence follows, it takes what was read before and its right operand. -/
theorem run_climbStep_some (rules : Rules) {least : Nat} (start : Nat) {left : Expr} {op : BinaryOp} {name : String}
    {span : Span} {sign tokens rest : List Token} {tree tree' : OperatorTree} (hop : SpellsOperator op sign)
    (hleast : least ≤ precedence op) (hcursor : cursor.rest = sign ++ ⟨.ident name, span⟩ :: tokens)
    (hleft : left.Shows tree)
    (hright : ∀ behind : Cursor, behind.rest = ⟨.ident name, span⟩ :: tokens →
      ∃ right after, (rules _ (.binary (precedence op + 1))).run behind = .ok right after ∧ after.rest = rest ∧
        right.Shows tree') :
    ∃ expr after, (climbStep rules least start left).run cursor = .ok (some expr) after ∧ after.rest = rest ∧
      expr.Shows (.node op tree tree') := by
  have hfollow : mayFollow (headKind cursor.rest) := hcursor ▸ hop.mayFollow _
  have hfound : binaryOperator? cursor.rest = some (op, sign.length) := hcursor ▸ hop.binaryOperator? name span tokens
  obtain ⟨behind, hadvance, hbehind⟩ := run_advanceBy hcursor hop.kind_ne_eof
  obtain ⟨right, after, hread, hafter, hshows⟩ := hright behind hbehind
  refine ⟨⟨after.nextId, .binary op left right, ⟨start, after.lastEnd⟩⟩,
    { after with nextId := after.nextId + 1 }, ?_, hafter, .node _ _ hleft hshows⟩
  rw [climbStep, run_bind_ok (run_atKeyword (ne_of_mayFollow hfollow (by decide))), if_neg Bool.false_ne_true,
    run_bind_ok run_get, hfound]
  dsimp only
  rw [if_neg (Nat.not_lt.mpr hleast), run_bind_ok hadvance, run_bind_ok hread]
  rfl

end Runs

/-! ### Reading trees -/

theorem precedence_pos (op : BinaryOp) : 0 < precedence op := by
  cases op <;> decide

theorem precedence_le (op : BinaryOp) : precedence op ≤ 10 := by
  cases op <;> decide

/-- Operators and names lie ahead that are those of a tree without its first name, all of at least a precedence,
and behind them stands no operator that the tree should have taken. -/
structure Ahead (tree : OperatorTree) (least : Nat) (tokens rest : List Token) : Prop where
  spells : SpellsSteps tree.steps tokens
  least_le : ∀ top ∈ tree.top?, least ≤ precedence top
  mayFollow : mayFollow (headKind rest)
  next_le : ∀ op width, binaryOperator? rest = some (op, width) → ∀ top ∈ tree.top?, precedence op ≤ precedence top

/-- Behind the first name of a tree, the loop comes to the whole tree. -/
def Climbs (tree : OperatorTree) : Prop :=
  ∀ ⦃depth least : Nat⦄ (start : Nat) ⦃left : Expr⦄ ⦃cursor : Cursor⦄ ⦃tokens rest : List Token⦄,
    11 ≤ depth + (least - 1) → Ahead tree least tokens rest → cursor.rest = tokens ++ rest →
      left.Shows (.operand tree.first) →
        ∃ expr after, after.rest = rest ∧ expr.Shows tree ∧ ∀ bound,
          (iterateUpTo (climbStep (rules depth) least start) (bound + tree.spine) left).run cursor =
            (iterateUpTo (climbStep (rules depth) least start) bound expr).run after

/-- What the loop comes to is read, if no operator follows that the loop would take. -/
theorem Climbs.run_binary {tree : OperatorTree} (h : Climbs tree) {depth least : Nat} {cursor : Cursor} {span : Span}
    {tokens rest : List Token} (hdepth : 12 ≤ depth + (least - 1)) (hleast : least ≤ 11)
    (hahead : Ahead tree least tokens rest) (hcursor : cursor.rest = ⟨.ident tree.first, span⟩ :: (tokens ++ rest))
    (hends : ∀ op width, binaryOperator? rest = some (op, width) → precedence op < least) :
    ∃ expr after, (rules depth _ (.binary least)).run cursor = .ok expr after ∧ after.rest = rest ∧
      expr.Shows tree := by
  obtain ⟨depth, rfl⟩ : ∃ inner, depth = inner + 2 := ⟨depth - 2, by omega⟩
  obtain ⟨left, middle, hunary, hmiddle, hleft⟩ := run_unary depth hcursor (hahead.spells.mayFollow hahead.mayFollow)
  obtain ⟨expr, after, hafter, hshows, hloop⟩ :=
    h cursor.current.span.start (by omega : 11 ≤ depth + 1 + (least - 1)) hahead hmiddle hleft
  have hbound : tree.spine ≤ middle.rest.length := by
    rw [hmiddle, List.length_append]
    have := tree.spine_le_length_steps
    have := hahead.spells.length_le
    omega
  refine ⟨expr, after, ?_, hafter, hshows⟩
  change (readBinary (rules (depth + 1)) least).run cursor = _
  rw [readBinary_eq, run_bind_ok run_currentStart, run_bind_ok hunary, iterate, run_bind_ok run_loopBound]
  obtain ⟨bound, hbound⟩ : ∃ bound, middle.rest.length + 1 = bound + 1 + tree.spine :=
    ⟨middle.rest.length - tree.spine, by omega⟩
  rw [hbound, hloop]
  refine run_iterateUpTo_done (run_climbStep_none _ _ _ ?_ ?_) bound
  · exact hafter ▸ hahead.mayFollow
  · exact hafter ▸ hends

namespace Ahead

variable {op : BinaryOp} {tree : OperatorTree} {least : Nat} {span : Span} {sign tokens rest : List Token}

/-- The left operand of an operator lies ahead before the operator. -/
theorem left (hleast : least ≤ precedence op) (hleft : ∀ top ∈ tree.top?, precedence op ≤ precedence top)
    (hspells : SpellsSteps tree.steps tokens) (hop : SpellsOperator op sign) (name : String) :
    Ahead tree least tokens (sign ++ ⟨.ident name, span⟩ :: rest) where
  spells := hspells
  least_le top htop := hleast.trans (hleft top htop)
  mayFollow := hop.mayFollow _
  next_le next width hnext top htop := by
    rw [hop.binaryOperator?] at hnext
    obtain ⟨rfl, -⟩ := Prod.mk.inj (Option.some.inj hnext)
    exact hleft top htop

/-- The right operand of an operator lies ahead with a greater precedence. -/
theorem right (hright : ∀ top ∈ tree.top?, precedence op < precedence top) (hspells : SpellsSteps tree.steps tokens)
    (hrest : Grammar.mayFollow (headKind rest))
    (hnext : ∀ next width, binaryOperator? rest = some (next, width) → precedence next ≤ precedence op) :
    Ahead tree (precedence op + 1) tokens rest where
  spells := hspells
  least_le := hright
  mayFollow := hrest
  next_le next width hfound top htop := (hnext next width hfound).trans (hright top htop).le

end Ahead

/-- Every tree that is bracketed by precedence is read behind its first name. -/
theorem climbs {tree : OperatorTree} (hbinds : tree.Binds) : Climbs tree := by
  induction tree with
  | operand name =>
      intro depth least start left cursor tokens rest _ hahead hcursor hleft
      obtain ⟨⟩ := hahead.spells
      exact ⟨left, cursor, hcursor, hleft, fun _ => rfl⟩
  | node op left right ihleft ihright =>
      intro depth least start first cursor tokens rest hdepth hahead hcursor hfirst
      obtain ⟨hleft, hright, hbindsLeft, hbindsRight⟩ := hbinds
      have hleast : least ≤ precedence op := hahead.least_le op rfl
      have hnext := fun next width hfound => hahead.next_le next width hfound op rfl
      obtain ⟨before, behind, rfl, hbefore, hbehind⟩ := hahead.spells.exists_of_append
      cases hbehind with
      | @cons _ _ span _ sign tokens hop hbehind =>
          -- The loop comes to the left operand, and one more iteration takes the operator.
          rw [List.append_assoc, List.append_assoc, List.cons_append] at hcursor
          obtain ⟨expr, middle, hmiddle, hshows, hloop⟩ :=
            ihleft hbindsLeft start hdepth (.left hleast hleft hbefore hop right.first) hcursor hfirst
          have hpos := precedence_pos op
          have hle := precedence_le op
          obtain ⟨whole, after, hstep, hafter, hwhole⟩ :=
            run_climbStep_some (rules depth) start hop hleast hmiddle hshows
              fun behind hbehind' => (ihright hbindsRight).run_binary (by omega) (by omega)
                (.right hright hbehind hahead.mayFollow hnext) hbehind'
                fun next width hfound => Nat.lt_succ_of_le (hnext next width hfound)
          refine ⟨whole, after, hafter, hwhole, fun bound => ?_⟩
          rw [OperatorTree.spine, Nat.add_comm left.spine, ← Nat.add_assoc, hloop, run_iterateUpTo_next hstep]

/-- Names with operators between them are read up to where they end, as the one tree that has them from left to
right and is bracketed by precedence. Right operands are nested by precedence, of which there are ten, so that
twelve levels of the rules suffice for sequences of any length. -/
theorem exists_run_binary {depth : Nat} {cursor : Cursor} {name : String} {span : Span}
    {steps : List (BinaryOp × String)} {tokens rest : List Token} (hdepth : 12 ≤ depth)
    (hsteps : SpellsSteps steps tokens) (hrest : Closes rest)
    (hcursor : cursor.rest = ⟨.ident name, span⟩ :: (tokens ++ rest)) :
    ∃ expr after tree, (rules depth _ (.binary 0)).run cursor = .ok expr after ∧ after.rest = rest ∧
      expr.Shows tree ∧ tree.Brackets name steps ∧
      ∀ other : OperatorTree, other.Brackets name steps → other = tree := by
  have hnone (op : BinaryOp) (width : Nat) : binaryOperator? rest ≠ some (op, width) := by
    rw [hrest.binaryOperator?]
    nofun
  have hread (tree : OperatorTree) (htree : tree.Brackets name steps) : ∃ expr after,
      (rules depth _ (.binary 0)).run cursor = .ok expr after ∧ after.rest = rest ∧ expr.Shows tree := by
    obtain ⟨rfl, rfl, hbinds⟩ := htree
    have hahead : Ahead tree 0 tokens rest :=
      ⟨hsteps, fun _ _ => Nat.zero_le _, hrest.mayFollow, fun op width hfound => absurd hfound (hnone op width)⟩
    exact (climbs hbinds).run_binary hdepth (by decide) hahead hcursor
      fun op width hfound => absurd hfound (hnone op width)
  obtain ⟨tree, htree⟩ := OperatorTree.exists_brackets name steps
  obtain ⟨expr, after, hrun, hafter, hshows⟩ := hread tree htree
  refine ⟨expr, after, tree, hrun, hafter, hshows, htree, fun other hother => ?_⟩
  -- The other tree is read as well, and what is read is bracketed in one way.
  obtain ⟨expr', after', hrun', -, hshows'⟩ := hread other hother
  rw [hrun] at hrun'
  cases hrun'
  exact hshows'.unique hshows

/-- A difference that is shifted by another one, and a comparison with it. -/
def shiftedTree : OperatorTree :=
  .node .greater
    (.node .unsignedShiftRight (.node .sub (.operand "a") (.node .mul (.operand "b") (.operand "c")))
      (.node .sub (.node .sub (.operand "d") (.operand "e")) (.operand "f")))
    (.operand "g")

/-- The tokens of a shifted difference behind its first name. -/
def shiftedTokens : List Token :=
  [⟨.symbol .minus, ⟨1, 2⟩⟩, ⟨.ident "b", ⟨2, 3⟩⟩, ⟨.symbol .star, ⟨3, 4⟩⟩, ⟨.ident "c", ⟨4, 5⟩⟩,
    ⟨.symbol .greater, ⟨5, 6⟩⟩, ⟨.symbol .greater, ⟨6, 7⟩⟩, ⟨.symbol .greater, ⟨7, 8⟩⟩, ⟨.ident "d", ⟨8, 9⟩⟩,
    ⟨.symbol .minus, ⟨9, 10⟩⟩, ⟨.ident "e", ⟨10, 11⟩⟩, ⟨.symbol .minus, ⟨11, 12⟩⟩, ⟨.ident "f", ⟨12, 13⟩⟩,
    ⟨.symbol .greater, ⟨13, 14⟩⟩, ⟨.ident "g", ⟨14, 15⟩⟩]

theorem spellsSteps_shiftedTokens : SpellsSteps shiftedTree.steps shiftedTokens :=
  .cons (.symbol _ rfl) (.cons (.symbol _ rfl) (.cons (.unsignedShiftRight rfl rfl) (.cons (.symbol _ rfl)
    (.cons (.symbol _ rfl) (.cons (.symbol _ rfl) .nil)))))

theorem brackets_shiftedTree : shiftedTree.Brackets "a" shiftedTree.steps :=
  ⟨rfl, rfl, by
    simp [shiftedTree, OperatorTree.Binds, OperatorTree.top?, precedence, relationalPrecedence]⟩

theorem exists_run_binary_shifted :
    12 ≤ 12 ∧ SpellsSteps shiftedTree.steps shiftedTokens ∧
      ∃ rest, Closes rest ∧
        (Cursor.start (Lexer.tokenize "a-b*c>>>d-e-f>g;".toList).tokens).rest =
          ⟨.ident "a", ⟨0, 1⟩⟩ :: (shiftedTokens ++ rest) ∧
        ∃ expr after, (rules 12 _ (.binary 0)).run
            (Cursor.start (Lexer.tokenize "a-b*c>>>d-e-f>g;".toList).tokens) = .ok expr after ∧
          after.rest = rest ∧ expr.Shows shiftedTree := by
  have hrest : Closes [⟨.symbol .semicolon, ⟨15, 16⟩⟩, ⟨.eof, ⟨16, 16⟩⟩] := by decide
  have hcursor : (Cursor.start (Lexer.tokenize "a-b*c>>>d-e-f>g;".toList).tokens).rest =
      ⟨.ident "a", ⟨0, 1⟩⟩ :: (shiftedTokens ++ [⟨.symbol .semicolon, ⟨15, 16⟩⟩, ⟨.eof, ⟨16, 16⟩⟩]) := by
    decide +kernel
  obtain ⟨expr, after, tree, hrun, hafter, hshows, -, hunique⟩ :=
    exists_run_binary (Nat.le_refl 12) spellsSteps_shiftedTokens hrest hcursor
  obtain rfl := hunique shiftedTree brackets_shiftedTree
  exact ⟨Nat.le_refl 12, spellsSteps_shiftedTokens, _, hrest, hcursor, expr, after, hrun, hafter, hshows⟩

end Grammar
end LockDiscipline
