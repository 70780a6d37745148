import LockDiscipline.Proofs.Grammar.Braces
/-!
# Braces in types and expressions

The readers of types, annotations and expressions leave as many braces open as they find. The readers of
arrays are not among them, and what is known of the tokens ahead says that none of them begins. A lambda is
taken for one by all of the tokens up to the arrow, so no brace stands between its parameters.
-/

namespace LockDiscipline.Grammar

/-- What has to be known of the tokens ahead of a nonterminal for it to leave as many braces open. -/
def Nonterminal.asks : {α : Type} → Nonterminal α → List Token → Prop
  | _, .elementValue | _, .varInit => (headKind · ≠ .symbol .leftBrace)
  | _, .classBody _ isEnum => fun _ => isEnum = false
  | _, .expr | _, .ternary | _, .binary _ | _, .unary | _, .type | _, .annotationUse | _, .stmt
  | _, .block => Anywhere

/-- Rules that leave as many braces open as they find. Blocks do not fail behind their brace, nor do
statements that are blocks. -/
structure Rules.Keeping (outside : List Token) (rules : Rules) : Prop where
  keeps : ∀ {α : Type} (nonterminal : Nonterminal α) (depth : Nat),
    Keeps outside depth nonterminal.asks (fun _ => Anywhere) (rules α nonterminal)
  block : ∀ {failed : List Token → Prop} (depth : Nat),
    Ensures (Opening outside depth) (fun _ => Inside outside depth) failed (rules _ .block)
  stmt : ∀ {failed : List Token → Prop} (depth : Nat),
    Ensures (Opening outside depth) (fun _ => Inside outside depth) failed (rules _ .stmt)

variable {α β : Type} {outside : List Token} {depth : Nat} {known known' : List Token → Prop}
  {left : α → List Token → Prop} {reader : Reader α} {rules : Rules}

theorem Rules.Keeping.level (h : rules.Keeping outside) (nonterminal : Nonterminal α)
    (hasks : nonterminal.asks = Anywhere) : Level outside depth (rules α nonterminal) :=
  (h.keeps nonterminal depth).weaken (fun _ _ => hasks ▸ trivial) fun _ _ => id

/-! ### What is seen ahead -/

theorem clear_of_seen {kind : TokenKind} (hkind : isBrace kind = false) {found : Bool} (hfound : found = true)
    {rest : List Token} (h : (headKind rest == kind) = found) : Clear rest :=
  clear_of_kind hkind (eq_of_beq (h.trans hfound))

/-- Tokens that are taken for something that braces are not taken for are no braces. -/
theorem isBrace_of_some {value : β} {kind : TokenKind} {meaning : TokenKind → Option β}
    (hleft : meaning (.symbol .leftBrace) = none) (hright : meaning (.symbol .rightBrace) = none)
    (h : meaning kind = some value) : isBrace kind = false := by
  refine isBrace_eq_false ?_ ?_
  · rintro rfl
    rw [hleft] at h
    cases h
  · rintro rfl
    rw [hright] at h
    cases h

theorem isBrace_of_isIdent {kind : TokenKind} (h : kind.isIdent) : isBrace kind = false := by
  cases kind <;> first | rfl | cases h

/-- More is known where braces are known to be open. -/
theorem Keeps.knowing (h : Keeps outside depth known' left reader)
    (hknown : ∀ rest, Inside outside depth rest → known rest → known' rest) :
    Keeps outside depth known left reader :=
  Ensures.weaken h (fun rest hrest => ⟨hrest.1, hknown rest hrest.1 hrest.2⟩) fun _ _ => id

/-- What is read at a brace of which it is known that it does not lie ahead. -/
theorem Keeps.absent_when {level : Nat} (h : Passes none level reader) (found : Bool) :
    Keeps outside depth
      (fun rest => headKind rest ≠ .symbol .leftBrace ∧ (headKind rest == .symbol .leftBrace) = found)
      (fun _ => Anywhere) (readWhen found reader) := by
  cases found with
  | true => exact .of_not h.map fun rest _ hrest => hrest.1 (eq_of_beq hrest.2)
  | false => exact .done

/-! ### Parameters of lambdas -/

/-- No brace lies ahead before a closing parenthesis. -/
def Unbraced (rest : List Token) : Prop :=
  ∀ token ∈ rest.takeWhile (·.kind != .symbol .rightParen), isBrace token.kind = false

/-- No brace opens among parameters behind which an arrow was seen. -/
theorem ne_leftBrace_of_arrowFollows {open' : Nat} {tokens : List Token} (h : arrowFollows open' tokens)
    {token : Token} (htoken : token ∈ tokens.takeWhile (·.kind != .symbol .rightParen)) :
    token.kind ≠ .symbol .leftBrace := by
  induction tokens generalizing open' with
  | nil => cases htoken
  | cons first rest ih =>
      have hsplit : first.kind ≠ .symbol .rightParen ∧
          (token = first ∨ token ∈ rest.takeWhile (·.kind != .symbol .rightParen)) := by
        rw [List.takeWhile_cons] at htoken
        split at htoken
        · next hkind => exact ⟨bne_iff_ne.mp hkind, List.mem_cons.mp htoken⟩
        · cases htoken
      obtain ⟨hparen, hmem⟩ := hsplit
      rw [arrowFollows.eq_def] at h
      dsimp only at h
      split at h
      case h_1 hkind =>
        rcases hmem with rfl | hmem
        · rw [hkind]
          decide
        · exact ih h hmem
      case h_2 hkind => exact absurd hkind hparen
      case h_3 | h_4 | h_5 => cases h
      case h_6 hbrace =>
        rcases hmem with rfl | hmem
        · exact hbrace
        · exact ih h hmem

/-- Inside of braces no brace is among what is taken for the parameters of a lambda. -/
theorem Inside.unbraced {rest : List Token} (h : Inside outside depth rest)
    (hkind : headKind rest = .symbol .leftParen) (hlambda : looksLikeLambda rest) : Unbraced rest := by
  obtain ⟨-, rfl⟩ | ⟨first, later, rfl, hstep⟩ := h.cases
  · rw [h.closing] at hkind
    cases hkind
  · intro token htoken
    have hleft := ne_leftBrace_of_arrowFollows hlambda htoken
    have hspans := hstep.spans
    rw [spansBrace, hlambda, Bool.true_and, List.any_eq_false] at hspans
    exact isBrace_eq_false hleft fun hright => hspans token htoken (beq_iff_eq.mpr hright)

theorem Unbraced.clear {rest : List Token} (h : Unbraced rest) (hkind : headKind rest ≠ .symbol .rightParen) :
    Clear rest := by
  cases rest with
  | nil => rfl
  | cons token rest =>
      have hnot : token.kind ≠ .symbol .rightParen := hkind
      refine h token ?_
      rw [List.takeWhile_cons, if_pos (bne_iff_ne.mpr hnot)]
      exact List.mem_cons_self

theorem Unbraced.later {token : Token} {rest : List Token} (h : Unbraced (token :: rest))
    (hkind : token.kind ≠ .symbol .rightParen) : Unbraced rest := by
  intro other hother
  refine h other ?_
  rw [List.takeWhile_cons, if_pos (bne_iff_ne.mpr hkind)]
  exact List.mem_cons_of_mem _ hother

theorem keeps_readLambdaParams : Keeps outside depth Unbraced (fun _ => Anywhere) readLambdaParams := by
  have hadvance {kind : TokenKind} (hkind : kind ≠ .symbol .rightParen) :
      Keeps outside depth (fun rest => Unbraced rest ∧ headKind rest = kind) (fun _ => Unbraced) advance := by
    refine (Keeps.advance fun rest hrest => hrest.1.clear (hrest.2 ▸ hkind)).weaken (fun _ => id) ?_
    rintro - rest ⟨token, ⟨hunbraced, rfl⟩, -⟩
    exact hunbraced.later hkind
  refine (Keeps.iterate (fun scan => ?_) _).bind fun scan => .done
  refine looks_currentKind.seeing fun kind => ?_
  split
  · exact .pure fun _ => And.left
  · exact .pure fun _ => And.left
  · exact (hadvance (by decide)).bind fun _ => .ite (fun _ => .pure fun _ => id) fun _ => .pure fun _ => id
  · exact (hadvance (by decide)).bind fun _ => .pure fun _ => id
  · exact (hadvance (by decide)).bind fun _ => .pure fun _ => id
  · exact (hadvance (by simp)).bind fun _ => .pure fun _ => id
  · next hparen _ _ _ _ _ => exact (hadvance hparen).bind fun _ => .pure fun _ => id

section Readers

variable (hprogress : rules.Consuming none) (hrules : rules.Keeping outside)

/-! ### Names and types -/

theorem level_readQualifiedName : Level outside depth readQualifiedName := by
  refine level_expectName.first fun first => .iterate (fun name => ?_) first
  refine (looks_atSymbol .dot).finding fun found => (looks_peek 1).passing fun next =>
    .ite (fun hfound => ?_) fun _ => .done
  exact .pass (fun _ => clear_of_seen rfl (Bool.and_eq_true_iff.mp hfound).1)
    (level_expectName.first fun _ => .done)

theorem level_readDims : Level outside depth readDims := by
  refine .iterate (fun text => ?_) ""
  refine (looks_atSymbol .leftBracket).finding fun found => (looks_peek 1).seeing fun next =>
    .ite (fun hfound => ?_) fun _ => .done
  obtain ⟨hopen, hclose⟩ := Bool.and_eq_true_iff.mp hfound
  refine (Keeps.advance fun _ hrest => clear_of_seen rfl hopen hrest.1).bind fun _ =>
    .pass (fun rest hrest => ?_) .done
  obtain ⟨token, ⟨-, hnext⟩, -⟩ := hrest
  exact clear_of_kind rfl (hnext.trans (eq_of_beq hclose))

include hrules

theorem level_skipAnnotations : Level outside depth (skipAnnotations rules) := by
  refine Level.first (.collect ?_) fun _ => .done
  refine (looks_atSymbol .at).passing fun found => .ite (fun _ => ?_) fun _ => .done
  exact (hrules.level .annotationUse rfl).first fun _ => .done

theorem level_readTypeArg : Level outside depth (readTypeArg rules) := by
  have hbounded (text : String) : Level outside depth (do return text ++ (← rules _ .type)) :=
    (hrules.level .type rfl).first fun _ => .done
  refine (level_acceptSymbol .question rfl).first fun wildcard => .ite (fun _ => ?_) fun _ =>
    hrules.level .type rfl
  refine (level_acceptKeyword .extends).first fun upper => .ite (fun _ => hbounded _) fun _ => ?_
  exact (level_acceptKeyword .super).first fun lower => .ite (fun _ => hbounded _) fun _ => .done

theorem level_readTypeArgs : Level outside depth (readTypeArgs rules) := by
  refine (level_expectSymbol .less rfl).first fun _ => (level_acceptSymbol .greater rfl).first fun empty =>
    .ite (fun _ => .done) fun _ => ?_
  exact (Level.separated .comma rfl (level_readTypeArg hrules)).first fun args =>
    (level_expectSymbol .greater rfl).first fun _ => .done

theorem level_readTypeName : Level outside depth (readTypeName rules) := by
  refine Level.first (Keeps.iterate (fun scan => ?_) _) fun _ => .done
  refine .ite (fun _ => .done) fun _ => level_expectName.first fun name => ?_
  have hnext (args : String) : Level outside depth (do
      if (← atSymbol .dot) && (← peek 1).isIdent then
        advance
        return some (scan.1 ++ name ++ args ++ ".", true)
      else return some (scan.1 ++ name ++ args, false)) := by
    refine (looks_atSymbol .dot).finding fun found => (looks_peek 1).passing fun next =>
      .ite (fun hfound => ?_) fun _ => .done
    exact .pass (fun _ => clear_of_seen rfl (Bool.and_eq_true_iff.mp hfound).1) .done
  exact (looks_atSymbol .less).passing fun found =>
    .ite (fun _ => (level_readTypeArgs hrules).first hnext) fun _ => hnext ""

theorem level_readType : Level outside depth (readType rules) := by
  have hname : Level outside depth (do
      let name ← readTypeName rules
      return name ++ (← readDims)) :=
    (level_readTypeName hrules).first fun name => level_readDims.first fun _ => .done
  exact (level_skipAnnotations hrules).first fun _ => looks_currentKind.passing fun kind =>
    .ite (fun _ => Level.first (keeps_failExpected _) fun _ => hname) fun _ => hname

theorem level_readTypeList : Level outside depth (readTypeList rules) :=
  .separated .comma rfl (hrules.level .type rfl)

theorem level_readTypeParam : Level outside depth (readTypeParam rules) := by
  refine (level_skipAnnotations hrules).first fun _ => level_expectName.first fun name =>
    (level_acceptKeyword .extends).first fun bounded => .ite (fun _ => ?_) fun _ => .done
  exact (Level.separated .amp rfl (hrules.level .type rfl)).first fun _ => .done

theorem level_readTypeParams : Level outside depth (readTypeParams rules) := by
  refine (level_acceptSymbol .less rfl).first fun found => .ite (fun _ => .done) fun _ => ?_
  exact (Level.separated .comma rfl (level_readTypeParam hrules)).first fun params =>
    (level_expectSymbol .greater rfl).first fun _ => .done

/-! ### Annotations -/

include hprogress

/-- Where no array begins, the value of an annotation argument is an expression or an annotation. -/
theorem keeps_readElementValue :
    Keeps outside depth (headKind · ≠ .symbol .leftBrace) (fun _ => Anywhere) (readElementValue rules) := by
  refine looks_currentStart.passing fun start => looks_currentKind.seeing fun kind => ?_
  split
  · have harray : Passes none 0 (readArrayItems (rules _ .elementValue) >>= fun items =>
        mkExpr (.arrayInit items) start) := fun _ _ hheld =>
      (consumes_readArrayItems (by decide) (hprogress .elementValue)).passes.first hheld fun items =>
        (passes_mkExpr _ start).last
    exact .of_not harray fun rest _ hrest => hrest.1 hrest.2
  · exact (hrules.level .annotationUse rfl).first fun _ => level_mkExpr .null start
  · exact Keeps.anywhere (hrules.level .ternary rfl)

omit hprogress

theorem level_readNamedArg : Level outside depth (readNamedArg rules) :=
  level_expectName.first fun _ => ((expects_expectSymbol .assign).behind rfl).bind fun _ =>
    ((hrules.keeps .elementValue depth).knowing fun _ _ hrest => hrest rfl).bind fun _ => .done

theorem keeps_readAnnotationArgs :
    Keeps outside depth (headKind · ≠ .symbol .leftBrace) (fun _ => Anywhere) (readAnnotationArgs rules) := by
  refine (looks_atSymbol .rightParen).passing fun empty => .ite (fun _ => .done) fun _ => ?_
  refine looks_currentKind.passing fun kind => (looks_peek 1).passing fun next =>
    .ite (fun _ => Keeps.anywhere (.separated .comma rfl (level_readNamedArg hrules))) fun _ => ?_
  exact (hrules.keeps .elementValue depth).bind fun _ => .done

theorem level_readAnnotationUse : Level outside depth (readAnnotationUse rules) := by
  refine (level_expectSymbol .at rfl).first fun span => level_readQualifiedName.first fun name => ?_
  refine (accepts_acceptSymbol .leftParen).branching rfl ?_ ((looks_spanFrom _).passing fun _ => .done)
  refine ((keeps_readAnnotationArgs hrules).knowing fun rest _ hrest => hrest rfl).bind fun args => ?_
  exact (level_expectSymbol .rightParen rfl).first fun _ => (looks_spanFrom _).passing fun _ => .done

theorem level_readModifiers : Level outside depth (readModifiers rules) := by
  refine Level.first (Keeps.iterate (fun modifiers => ?_) _) fun _ => .done
  refine looks_currentKind.finding fun kind => ?_
  split
  · refine (looks_peek 1).passing fun next => .ite (fun _ => .done) fun _ => ?_
    exact (hrules.level .annotationUse rfl).first fun _ => .done
  · exact .ite (fun _ => .pass (fun _ => clear_of_kind rfl) .done) fun _ => .done
  · exact .done

/-! ### Operators -/

theorem level_readExpr : Level outside depth (readExpr rules) := by
  refine looks_currentStart.passing fun start => (hrules.level .ternary rfl).first fun target =>
    looks_currentKind.finding fun kind => ?_
  cases hoperator : assignOperator? kind with
  | none => exact .done
  | some op =>
      exact .pass (fun _ => clear_of_kind (isBrace_of_some rfl rfl hoperator))
        ((hrules.level .expr rfl).first fun value => level_mkExpr _ start)

theorem level_readTernary : Level outside depth (readTernary rules) := by
  refine looks_currentStart.passing fun start => (hrules.level (.binary 0) rfl).first fun cond =>
    (level_acceptSymbol .question rfl).first fun found => .ite (fun _ => ?_) fun _ => .done
  exact (hrules.level .expr rfl).first fun whenTrue => (level_expectSymbol .colon rfl).first fun _ =>
    (hrules.level .ternary rfl).first fun whenFalse => level_mkExpr _ start

theorem keeps_readInstanceOf (operand : Expr) (start : Nat) :
    Keeps outside depth Clear (fun _ => Anywhere) (readInstanceOf rules operand start) := by
  refine .pass (fun _ => id) ((level_acceptKeyword .final).first fun _ =>
    (hrules.level .type rfl).first fun type => looks_currentKind.finding fun kind =>
      .ite (fun hident => ?_) fun _ => Keeps.anywhere (level_mkExpr _ start))
  exact .pass (fun _ => clear_of_kind (isBrace_of_isIdent hident)) (level_mkExpr _ start)

omit hrules in
/-- No brace is among a number of tokens ahead. -/
theorem level_advanceBy (count : Nat) : Keeps outside depth
    (fun rest => ∀ place < count, isBrace (kindAt place rest) = false) (fun _ => Anywhere)
    (advanceBy count) := by
  induction count with
  | zero => exact .done
  | succ count ih =>
      refine (Keeps.advance fun rest hrest => hrest 0 (Nat.succ_pos _)).bind fun _ =>
        ih.knowing fun rest _ hrest place hplace => ?_
      obtain ⟨token, hknown, -⟩ := hrest
      exact hknown (place + 1) (Nat.succ_lt_succ hplace)

omit hrules in
theorem kindAt_of_adjacentBrackets {tokens : List Token} {place : Nat}
    (h : place < adjacentBrackets tokens) : kindAt place tokens = .symbol .greater := by
  induction tokens generalizing place with
  | nil => cases h
  | cons first rest ih =>
      rw [adjacentBrackets.eq_def] at h
      dsimp only at h
      split at h
      case isFalse => cases h
      case isTrue hfirst =>
        cases place with
        | zero => exact hfirst
        | succ place =>
            cases rest with
            | nil => exact absurd h (by simp)
            | cons second rest =>
                dsimp only at h
                split at h
                · exact ih (by omega)
                · exact absurd h (by simp)

omit hrules in
theorem adjacentBrackets_pos {tokens : List Token} (h : headKind tokens = .symbol .greater) :
    0 < adjacentBrackets tokens := by
  cases tokens with
  | nil => cases h
  | cons first rest =>
      have hfirst : first.kind = .symbol .greater := h
      rw [adjacentBrackets.eq_def]
      dsimp only
      rw [if_pos hfirst]
      split
      · exact Nat.one_pos
      · split
        · exact Nat.lt_of_lt_of_le Nat.one_pos (Nat.le_add_right _ _)
        · exact Nat.one_pos

omit hrules in
/-- The tokens of an operator are no braces. -/
theorem isBrace_of_binaryOperator? {tokens : List Token} {op : BinaryOp} {width place : Nat}
    (h : binaryOperator? tokens = some (op, width)) (hplace : place < width) :
    isBrace (kindAt place tokens) = false := by
  rw [binaryOperator?] at h
  split at h
  · next hhead =>
    suffices hwidth : width ≤ adjacentBrackets tokens by
      rw [kindAt_of_adjacentBrackets (Nat.lt_of_lt_of_le hplace hwidth)]
      rfl
    have hpos := adjacentBrackets_pos hhead
    split at h
    · next hcount => exact hcount ▸ Nat.le_of_eq (congrArg Prod.snd (Option.some.inj h)).symm
    · next hcount => exact hcount ▸ Nat.le_of_eq (congrArg Prod.snd (Option.some.inj h)).symm
    · next hone htwo =>
      obtain ⟨-, rfl⟩ := Prod.mk.inj (Option.some.inj h)
      have hmany : adjacentBrackets tokens ≠ 1 ∧ adjacentBrackets tokens ≠ 2 := ⟨hone, htwo⟩
      omega
  · next sign _ hhead =>
    obtain ⟨op', hop, heq⟩ := Option.map_eq_some_iff.mp h
    obtain ⟨-, rfl⟩ := Prod.mk.inj heq
    obtain rfl : place = 0 := Nat.lt_one_iff.mp hplace
    rw [kindAt, List.drop_zero, hhead]
    cases sign <;> first | rfl | cases hop
  · cases h

theorem level_readBinary (least : Nat) : Level outside depth (readBinary rules least) := by
  refine looks_currentStart.passing fun start => (hrules.level .unary rfl).first fun first =>
    .iterate (fun operand => ?_) first
  refine (looks_atKeyword .instanceof).finding fun found => .ite (fun hfound => ?_) fun _ => ?_
  · exact .ite (fun _ => .done) fun _ => ((keeps_readInstanceOf hrules operand start).knowing
      fun _ _ => clear_of_seen rfl hfound).bind fun _ => .done
  · refine looks_get.finding fun cursor => ?_
    cases hoperator : binaryOperator? cursor.rest with
    | none => exact .done
    | some operator =>
        refine .ite (fun _ => .done) fun _ => Keeps.bind ((level_advanceBy operator.2).knowing ?_) fun _ =>
          (hrules.level (.binary _) rfl).first fun right => (level_mkExpr _ start).first fun _ => .done
        rintro rest - rfl place hplace
        exact isBrace_of_binaryOperator? hoperator hplace

/-! ### Operands -/

theorem level_readArgs : Level outside depth (readArgs rules) := by
  refine (level_expectSymbol .leftParen rfl).first fun _ => ?_
  exact (Level.enumerated .rightParen .comma rfl (hrules.level .expr rfl)).first fun args =>
    (level_expectSymbol .rightParen rfl).first fun _ => .done

omit hrules in
theorem keeps_requireTypeName (expr : Expr) :
    Keeps outside depth known (fun _ => known) (requireTypeName expr) := by
  rw [requireTypeName]
  cases expr.dottedName? with
  | some name => exact .pure fun _ => id
  | none => exact .throw _

theorem level_readAnonymousBody (superclass : String) (start : Nat) :
    Level outside depth (readAnonymousBody rules superclass start) := by
  refine level_freshId.first fun id => Keeps.bind ((hrules.keeps (.classBody "" false) depth).knowing ?_)
    fun members => (looks_spanFrom start).passing fun span => .done
  exact fun _ _ _ => rfl

/-- The dimensions of an array end before no array, since a bracket stands before what follows them. -/
theorem keeps_readArrayDims : Keeps outside depth (headKind · ≠ .symbol .leftBrace)
    (fun _ => (headKind · ≠ .symbol .leftBrace)) (readArrayDims rules) := by
  refine (Keeps.collect ?_).bind fun dims => .pure fun _ => id
  refine (accepts_acceptSymbol .leftBracket).branching rfl ?_ (.pure fun _ => And.left)
  refine (accepts_acceptSymbol .rightBracket).branching rfl (.pure fun _ hrest => hrest rfl) ?_
  refine (hrules.level .expr rfl).first fun dim =>
    Keeps.bind ((expects_expectSymbol .rightBracket).behind rfl) fun _ => .pure fun _ hrest => hrest rfl

include hprogress in
theorem level_readNew (start : Nat) : Level outside depth (readNew rules start) := by
  refine (level_expectKeyword .new).first fun _ => (level_skipAnnotations hrules).first fun _ =>
    (level_readTypeName hrules).first fun type => (looks_atSymbol .leftBracket).finding fun bracket =>
      .ite (fun hbracket => ?_) fun _ => ?_
  · refine Keeps.bind ((keeps_readArrayDims hrules).knowing fun rest _ hrest => ?_) fun dims =>
      (looks_atSymbol .leftBrace).seeing fun found => ?_
    · rw [eq_of_beq (hrest.trans hbracket)]
      decide
    · exact (Keeps.absent_when (consumes_readArrayItems (by decide) (hprogress .varInit)).passes found).bind
        fun init => level_mkExpr _ start
  · refine (level_readArgs hrules).first fun args => (looks_atSymbol .leftBrace).passing fun found => ?_
    exact ((level_readAnonymousBody hrules type start).readWhen found).first fun body => level_mkExpr _ start

/-! ### Operands with parts -/

/-- A lambda begins with a name or with parameters among which no brace is. -/
theorem keeps_readLambda (start : Nat) :
    Keeps outside depth (fun rest => (headKind rest).isIdent ∨ Unbraced rest) (fun _ => Anywhere)
      (readLambda rules start) := by
  have hbody (params : List String) : Level outside depth (do
      let _ ← expectSymbol .arrow
      let body ← if ← atSymbol .leftBrace then LambdaBody.block <$> rules _ .block
        else LambdaBody.expr <$> rules _ .expr
      mkExpr (.lambda params body) start) := by
    refine (level_expectSymbol .arrow rfl).first fun _ => (looks_atSymbol .leftBrace).passing fun brace =>
      .ite (fun _ => ?_) fun _ => ?_
    · exact Level.first (Keeps.map (hrules.level .block rfl)) fun _ => level_mkExpr _ start
    · exact Level.first (Keeps.map (hrules.level .expr rfl)) fun _ => level_mkExpr _ start
  refine looks_currentKind.seeing fun kind => ?_
  split
  · exact .pass (fun _ hrest => clear_of_kind rfl hrest.2) (hbody _)
  · next hname =>
    refine Keeps.bind ((expects_expectSymbol .leftParen).keeps rfl) fun _ =>
      (keeps_readLambdaParams.knowing ?_).bind fun names =>
        (level_expectSymbol .rightParen rfl).first fun _ => hbody names
    rintro rest - ⟨token, hparen, ⟨hunbraced, rfl⟩, -⟩
    have hunbraced := hunbraced.resolve_left fun hident => by
      rw [show headKind (token :: rest) = .symbol .leftParen from hparen] at hident
      cases hident
    exact hunbraced.later (hparen ▸ by decide)

theorem keeps_readSelf (name : String) (kind : ExprKind) (start : Nat) :
    Keeps outside depth Clear (fun _ => Anywhere) (readSelf rules name kind start) := by
  refine .pass (fun _ => id) ((looks_atSymbol .leftParen).passing fun call =>
    .ite (fun _ => ?_) fun _ => level_mkExpr _ start)
  exact (level_readArgs hrules).first fun args => level_mkExpr _ start

omit hrules in
theorem keeps_readLiteral (kind : ExprKind) (start : Nat) :
    Keeps outside depth Clear (fun _ => Anywhere) (readLiteral kind start) :=
  .pass (fun _ => id) (level_mkExpr kind start)

theorem keeps_readNameOrCall (name : String) (start : Nat) :
    Keeps outside depth (fun rest => (headKind rest).isIdent) (fun _ => Anywhere)
      (readNameOrCall rules name start) := by
  refine looks_get.passing fun cursor => (looks_peek 1).passing fun next => .ite (fun _ => ?_) fun _ => ?_
  · exact (keeps_readLambda hrules start).knowing fun rest _ => .inl
  · refine .pass (fun _ hident => isBrace_of_isIdent hident) ((looks_atSymbol .leftParen).passing fun call =>
      .ite (fun _ => ?_) fun _ => level_mkExpr _ start)
    exact (level_readArgs hrules).first fun args => level_mkExpr _ start

theorem keeps_readParenthesized (start : Nat) :
    Keeps outside depth (headKind · = .symbol .leftParen) (fun _ => Anywhere)
      (readParenthesized rules start) := by
  refine looks_get.passing fun cursor => (looks_ahead looksLikeLambda).seeing fun found =>
    .ite (fun hfound => ?_) fun _ => ?_
  · refine (keeps_readLambda hrules start).knowing fun rest hinside hrest => .inr ?_
    exact hinside.unbraced hrest.1 (hrest.2.trans (Bool.and_eq_true_iff.mp hfound).2)
  · exact .pass (fun _ hrest => clear_of_kind rfl hrest.1)
      (Level.first (Keeps.withLambdas true cursor.lambdas (hrules.level .expr rfl)) fun inner =>
        (level_expectSymbol .rightParen rfl).first fun _ => level_mkExpr _ start)

include hprogress

theorem level_readPrimary : Level outside depth (readPrimary rules) := by
  refine looks_currentStart.passing fun start => looks_currentKind.finding fun kind => ?_
  cases hliteral : literal? kind with
  | some literal =>
      exact (keeps_readLiteral literal start).knowing fun rest _ =>
        clear_of_kind (isBrace_of_some rfl rfl hliteral)
  | none =>
      dsimp only
      split
      · exact (keeps_readSelf hrules "this" .this start).knowing fun rest _ => clear_of_kind rfl
      · exact (keeps_readSelf hrules "super" .super start).knowing fun rest _ => clear_of_kind rfl
      · exact Keeps.anywhere (level_readNew hprogress hrules start)
      · exact (keeps_readNameOrCall hrules _ start).knowing fun rest _ hrest => congrArg _ hrest
      · exact keeps_readParenthesized hrules start
      · refine .pass (fun _ => clear_of_kind rfl) ((level_expectSymbol .dot rfl).first fun _ => ?_)
        exact (level_expectKeyword .class).first fun _ => level_mkExpr _ start
      · exact keeps_failExpected _

theorem level_readAfterDot (object : Expr) (start : Nat) :
    Level outside depth (readAfterDot rules object start) := by
  refine looks_currentKind.finding fun kind => ?_
  split
  · refine .pass (fun _ => clear_of_kind rfl) ((looks_atSymbol .leftParen).passing fun call =>
      .ite (fun _ => ?_) fun _ => level_mkExpr _ start)
    exact (level_readArgs hrules).first fun args => level_mkExpr _ start
  · exact (level_readTypeArgs hrules).first fun _ => level_expectName.first fun method =>
      (level_readArgs hrules).first fun args => level_mkExpr _ start
  · exact (keeps_requireTypeName object).bind fun qualifier =>
      .pass (fun _ => clear_of_kind rfl) (level_mkExpr _ start)
  · exact (keeps_requireTypeName object).bind fun type =>
      .pass (fun _ => clear_of_kind rfl) (level_mkExpr _ start)
  · exact .pass (fun _ => clear_of_kind rfl) (level_mkExpr _ start)
  · exact Keeps.anywhere (level_readNew hprogress hrules start)
  · exact keeps_failExpected _

theorem level_readSuffix? (expr : Expr) (start : Nat) :
    Level outside depth (readSuffix? rules expr start) := by
  have hnode (kind : ExprKind) : Level outside depth (do return some (← mkExpr kind start)) :=
    (level_mkExpr kind start).first fun _ => .done
  refine looks_currentKind.finding fun kind => ?_
  split
  · exact .pass (fun _ => clear_of_kind rfl)
      ((level_readAfterDot hprogress hrules expr start).first fun _ => .done)
  · refine (looks_peek 1).passing fun next => .ite (fun _ => ?_) fun _ => ?_
    · exact Keeps.anywhere ((keeps_requireTypeName expr).bind fun type => level_readDims.first fun dims =>
        (level_expectSymbol .dot rfl).first fun _ => (level_expectKeyword .class).first fun _ => hnode _)
    · exact .pass (fun _ => clear_of_kind rfl) ((hrules.level .expr rfl).first fun index =>
        (level_expectSymbol .rightBracket rfl).first fun _ => hnode _)
  · exact .pass (fun _ => clear_of_kind rfl) (hnode _)
  · exact .pass (fun _ => clear_of_kind rfl) (hnode _)
  · refine .pass (fun _ => clear_of_kind rfl) ((level_acceptKeyword .new).first fun found =>
      .ite (fun _ => hnode _) fun _ => level_expectName.first fun name => hnode _)
  · exact .done

theorem level_readPostfix : Level outside depth (readPostfix rules) := by
  refine looks_currentStart.passing fun start => (level_readPrimary hprogress hrules).first fun first => ?_
  split
  · exact .done
  · exact .iterate (fun expr => level_readSuffix? hprogress hrules expr start) first

theorem level_readUnary : Level outside depth (readUnary rules) := by
  refine looks_currentStart.passing fun start => looks_currentKind.finding fun kind => ?_
  cases hoperator : unaryOperator? kind with
  | some op =>
      exact .pass (fun _ => clear_of_kind (isBrace_of_some rfl rfl hoperator))
        ((hrules.level .unary rfl).first fun operand => level_mkExpr _ start)
  | none =>
      refine (looks_atSymbol .leftParen).finding fun found => (looks_ahead looksLikeCast).passing fun cast =>
        .ite (fun hfound => ?_) fun _ => Keeps.anywhere (level_readPostfix hprogress hrules)
      refine .pass (fun _ => clear_of_seen rfl (Bool.and_eq_true_iff.mp hfound).1) ?_
      exact (Level.separated .amp rfl (hrules.level .type rfl)).first fun types =>
        (level_expectSymbol .rightParen rfl).first fun _ => (hrules.level .unary rfl).first fun operand =>
          level_mkExpr _ start

/-- Where no array begins, an initial value is an expression. -/
theorem keeps_readVarInit :
    Keeps outside depth (headKind · ≠ .symbol .leftBrace) (fun _ => Anywhere) (readVarInit rules) := by
  refine (looks_atSymbol .leftBrace).seeing fun found => .ite (fun hfound => ?_) fun _ =>
    Keeps.anywhere (hrules.level .expr rfl)
  have harray : Passes none 0 (do
      let start ← currentStart
      let items ← readArrayItems (rules _ .varInit)
      mkExpr (.arrayInit items) start) := fun _ _ hheld =>
    looks_currentStart.skip fun start => (consumes_readArrayItems (by decide)
      (hprogress .varInit)).passes.first hheld fun items => (passes_mkExpr _ start).last
  exact .of_not harray fun rest _ hrest => hrest.1 (eq_of_beq (hrest.2.trans hfound))

end Readers

end LockDiscipline.Grammar
