import LockDiscipline.Proofs.Grammar.BasicProgress
/-!
# The switch for lambdas

A cursor carries a switch that tells whether an arrow may begin the body of a lambda. It is off in the labels of
a case, where an arrow ends the labels. `Grammar.Restores` says of a reader that it leaves the switch as it found
it, whether it fails or not, if the switch is on or no keyword of a case is consumed. This holds of all basic
readers, and readers in sequence and in loops keep it. Nothing is said of a switch that is off before a case.
-/

namespace LockDiscipline.Grammar

variable {α β : Type}

/-- The cursor that a reader leaves, whether it fails or not. -/
def cursorAfter (reader : Reader α) (cursor : Cursor) : Cursor :=
  match reader.run cursor with
  | .ok _ after => after
  | .error _ after => after

/-- From one cursor to the next tokens are consumed, and the switch is as it was if it was on or there is no
keyword of a case among them. -/
def Restored (before after : Cursor) : Prop :=
  ∃ read, before.rest = read ++ after.rest ∧
    (before.lambdas = true ∨ (∀ token ∈ read, token.kind ≠ .keyword .case) →
      after.lambdas = before.lambdas)

/-- A reader leaves the switch as it finds it, if that is on or the reader consumes no keyword of a case. -/
def Restores (reader : Reader α) : Prop :=
  ∀ cursor, Restored cursor (cursorAfter reader cursor)

/-! ### From one cursor to the next -/

theorem lambdas_advance (cursor : Cursor) : cursor.advance.lambdas = cursor.lambdas := by
  rw [Cursor.advance]
  split
  · rfl
  · split <;> rfl

namespace Restored

variable {before middle after : Cursor}

/-- Where only tokens are consumed, the switch is as it was. -/
theorem of_lambdas_eq (hread : ∃ read, before.rest = read ++ after.rest)
    (hlambdas : after.lambdas = before.lambdas) : Restored before after := by
  obtain ⟨read, hread⟩ := hread
  exact ⟨read, hread, fun _ => hlambdas⟩

theorem refl (cursor : Cursor) : Restored cursor cursor :=
  .of_lambdas_eq ⟨[], rfl⟩ rfl

theorem trans (hfirst : Restored before middle) (hsecond : Restored middle after) :
    Restored before after := by
  obtain ⟨read, hread, hlambdas⟩ := hfirst
  obtain ⟨read', hread', hlambdas'⟩ := hsecond
  refine ⟨read ++ read', by rw [hread, hread', List.append_assoc], fun hcondition => ?_⟩
  rw [List.forall_mem_append] at hcondition
  have hmiddle : middle.lambdas = before.lambdas := hlambdas (hcondition.imp_right And.left)
  have hcondition' := hcondition.imp hmiddle.trans And.right
  exact (hlambdas' hcondition').trans hmiddle

/-- A switch that is on stays on. -/
theorem lambdas_eq_true (h : Restored before after) (hbefore : before.lambdas = true) :
    after.lambdas = true := by
  obtain ⟨read, -, hlambdas⟩ := h
  exact (hlambdas (.inl hbefore)).trans hbefore

theorem advance (cursor : Cursor) : Restored cursor cursor.advance := by
  obtain ⟨read, hread, -⟩ := (Forward.advance cursor).read
  exact .of_lambdas_eq ⟨read, hread⟩ (lambdas_advance cursor)

end Restored

/-! ### Readers in sequence -/

theorem cursorAfter_of_run_ok {reader : Reader α} {cursor after : Cursor} {value : α}
    (h : reader.run cursor = .ok value after) : cursorAfter reader cursor = after := by
  rw [cursorAfter, h]

theorem cursorAfter_bind (reader : Reader α) (next : α → Reader β) (cursor : Cursor) :
    cursorAfter (reader >>= next) cursor = match reader.run cursor with
      | .ok value middle => cursorAfter (next value) middle
      | .error _ middle => middle := by
  rw [cursorAfter, EStateM.run_bind]
  cases reader.run cursor <;> rfl

/-- A sequence ends where its first reader fails, or else where the rest of it does. -/
theorem cursorAfter_bind_cases (reader : Reader α) (next : α → Reader β) (cursor : Cursor) :
    cursorAfter (reader >>= next) cursor = cursorAfter reader cursor ∨
      ∃ value, cursorAfter (reader >>= next) cursor =
        cursorAfter (next value) (cursorAfter reader cursor) := by
  rw [cursorAfter_bind]
  cases hrun : reader.run cursor with
  | ok value middle => exact .inr ⟨value, by rw [cursorAfter_of_run_ok hrun]⟩
  | error error middle => exact .inl (by rw [cursorAfter, hrun])

theorem cursorAfter_attempt (reader : Reader α) (cursor : Cursor) :
    cursorAfter (attempt reader) cursor = cursorAfter reader cursor := by
  rw [cursorAfter, cursorAfter, run_attempt]
  cases reader.run cursor <;> rfl

theorem cursorAfter_withLambdas (allowed restored : Bool) (reader : Reader α) (cursor : Cursor) :
    cursorAfter (withLambdas allowed restored reader) cursor =
      { cursorAfter reader { cursor with lambdas := allowed } with lambdas := restored } := by
  rw [cursorAfter, cursorAfter, run_withLambdas]
  cases reader.run { cursor with lambdas := allowed } <;> rfl

/-- A switch that is put back keeps its value as long as the readers behind do not change it. -/
theorem lambdas_cursorAfter_bind {reader : Reader α} {next : α → Reader β} {cursor : Cursor}
    {allowed : Bool} (h : (cursorAfter reader cursor).lambdas = allowed)
    (hnext : ∀ value middle, (cursorAfter (next value) middle).lambdas = middle.lambdas) :
    (cursorAfter (reader >>= next) cursor).lambdas = allowed := by
  rcases cursorAfter_bind_cases reader next cursor with hcursor | ⟨value, hcursor⟩
  · rw [hcursor, h]
  · rw [hcursor, hnext, h]

/-- What a reader leaves is passed on by those behind it. -/
theorem Restored.bind {reader : Reader α} {next : α → Reader β} {cursor : Cursor}
    (h : Restored cursor (cursorAfter reader cursor)) (hnext : ∀ value, Restores (next value)) :
    Restored cursor (cursorAfter (reader >>= next) cursor) := by
  rcases cursorAfter_bind_cases reader next cursor with hcursor | ⟨value, hcursor⟩
  · rw [hcursor]
    exact h
  · rw [hcursor]
    exact h.trans (hnext value _)

/-- From a cursor, a reader leaves the switch on, whether it was on or not. -/
def TurnsOn (reader : Reader α) (cursor : Cursor) : Prop :=
  Restored cursor (cursorAfter reader cursor) ∧ (cursorAfter reader cursor).lambdas = true

/-- A reader that stays where it is may come before. -/
theorem TurnsOn.behind {reader : Reader α} {next : α → Reader β} {cursor : Cursor} {value : α}
    (hrun : reader.run cursor = .ok value cursor) (h : TurnsOn (next value) cursor) :
    TurnsOn (reader >>= next) cursor := by
  rw [TurnsOn, cursorAfter_bind, hrun]
  exact h

theorem TurnsOn.bind {reader : Reader α} {next : α → Reader β} {cursor : Cursor}
    (h : TurnsOn reader cursor) (hnext : ∀ value, Restores (next value)) :
    TurnsOn (reader >>= next) cursor := by
  refine ⟨h.1.bind hnext, ?_⟩
  rcases cursorAfter_bind_cases reader next cursor with hcursor | ⟨value, hcursor⟩
  · rw [hcursor]
    exact h.2
  · rw [hcursor]
    exact (hnext value _).lambdas_eq_true h.2

namespace Restores

variable {reader : Reader α} {next : α → Reader β}

theorem bind (h : Restores reader) (hnext : ∀ value, Restores (next value)) :
    Restores (reader >>= next) :=
  fun cursor => (h cursor).bind hnext

theorem pure {value : α} : Restores (Pure.pure value) :=
  fun cursor => .refl cursor

theorem throw (error : SyntaxError) : Restores (MonadExcept.throw error : Reader α) :=
  fun cursor => .refl cursor

theorem ite {condition : Prop} [Decidable condition] {first second : Reader α}
    (hfirst : Restores first) (hsecond : Restores second) :
    Restores (if condition then first else second) := by
  split
  · exact hfirst
  · exact hsecond

theorem map {transform : α → β} (h : Restores reader) : Restores (transform <$> reader) := by
  rw [map_eq_pure_bind]
  exact h.bind fun _ => .pure

/-- A reader chosen by a test, with the same continuation either way. -/
theorem choose {found : Bool} {other : Reader α} (h : Restores reader) (hother : Restores other)
    (hnext : ∀ value, Restores (next value)) :
    Restores (if found then reader >>= next else other >>= next) :=
  .ite (h.bind hnext) (hother.bind hnext)

theorem attempt (h : Restores reader) : Restores (attempt reader) := by
  intro cursor
  rw [cursorAfter_attempt]
  exact h cursor

theorem readWhen (h : Restores reader) (found : Bool) : Restores (readWhen found reader) := by
  cases found with
  | true => exact h.map
  | false => exact .pure

/-- A switch that is put back is as it was. -/
theorem withLambdas (h : Restores reader) {cursor : Cursor} (allowed : Bool) {restored : Bool}
    (hrestored : restored = cursor.lambdas) :
    Restored cursor (cursorAfter (withLambdas allowed restored reader) cursor) := by
  rw [cursorAfter_withLambdas]
  obtain ⟨read, hread, -⟩ := h { cursor with lambdas := allowed }
  exact .of_lambdas_eq ⟨read, hread⟩ hrestored

end Restores

theorem Looks.restores {shows : List Token → α → Prop} {reader : Reader α} (h : Looks shows reader) :
    Restores reader := by
  intro cursor
  obtain ⟨value, hrun, -⟩ := h cursor
  rw [cursorAfter_of_run_ok hrun]
  exact .refl cursor

theorem restores_advance : Restores advance :=
  fun cursor => .advance cursor

theorem Accepts.restores {kind : TokenKind} {reader : Reader Bool} (h : Accepts kind reader) :
    Restores reader := by
  intro cursor
  by_cases hkind : headKind cursor.rest = kind
  · rw [cursorAfter, h cursor, if_pos hkind]
    exact .advance cursor
  · rw [cursorAfter, h cursor, if_neg hkind]
    exact .refl cursor

/-- The expected token is consumed, or the cursor is left where it is. -/
theorem Expects.cursorAfter_eq {kind : TokenKind} {reader : Reader α} (h : Expects kind reader)
    (cursor : Cursor) : cursorAfter reader cursor =
      if headKind cursor.rest = kind then cursor.advance else cursor := by
  by_cases hkind : headKind cursor.rest = kind
  · obtain ⟨value, hrun⟩ := (h cursor).1 hkind
    rw [cursorAfter, hrun, if_pos hkind]
  · obtain ⟨error, -, hrun⟩ := (h cursor).2 hkind
    rw [cursorAfter, hrun, if_neg hkind]

theorem Expects.lambdas_eq {kind : TokenKind} {reader : Reader α} (h : Expects kind reader)
    (cursor : Cursor) : (cursorAfter reader cursor).lambdas = cursor.lambdas := by
  rw [h.cursorAfter_eq]
  split
  · exact lambdas_advance cursor
  · rfl

theorem Expects.restores {kind : TokenKind} {reader : Reader α} (h : Expects kind reader) :
    Restores reader := by
  intro cursor
  rw [h.cursorAfter_eq]
  split
  · exact .advance cursor
  · exact .refl cursor

/-! ### The cursor -/

section Cursor

theorem restores_get : Restores get :=
  looks_get.restores

theorem restores_currentKind : Restores currentKind :=
  looks_currentKind.restores

theorem restores_currentStart : Restores currentStart :=
  looks_currentStart.restores

theorem restores_spanFrom (start : Nat) : Restores (spanFrom start) :=
  (looks_spanFrom start).restores

theorem restores_peek (count : Nat) : Restores (peek count) :=
  (looks_peek count).restores

theorem restores_ahead (test : List Token → Bool) : Restores (ahead test) :=
  (looks_ahead test).restores

theorem restores_atEnd : Restores atEnd :=
  looks_atEnd.restores

theorem restores_atSymbol (sign : Symbol) : Restores (atSymbol sign) :=
  (looks_atSymbol sign).restores

theorem restores_atKeyword (word : Keyword) : Restores (atKeyword word) :=
  (looks_atKeyword word).restores

theorem restores_acceptSymbol (sign : Symbol) : Restores (acceptSymbol sign) :=
  (accepts_acceptSymbol sign).restores

theorem restores_acceptKeyword (word : Keyword) : Restores (acceptKeyword word) :=
  (accepts_acceptKeyword word).restores

theorem restores_failExpected (expected : Expectation) :
    Restores (failExpected expected : Reader α) :=
  restores_get.bind fun _ => .throw _

theorem restores_failTooDeep : Restores (failTooDeep : Reader α) :=
  restores_get.bind fun _ => .throw _

theorem restores_expectSymbol (sign : Symbol) : Restores (expectSymbol sign) :=
  (expects_expectSymbol sign).restores

theorem restores_expectKeyword (word : Keyword) : Restores (expectKeyword word) :=
  (expects_expectKeyword word).restores

theorem restores_expectName : Restores expectName := by
  refine restores_currentKind.bind fun kind => ?_
  split
  · exact restores_advance.bind fun _ => .pure
  · exact restores_failExpected _

theorem restores_freshId : Restores freshId :=
  fun _ => .of_lambdas_eq ⟨[], rfl⟩ rfl

theorem restores_recordError (error : SyntaxError) : Restores (recordError error) :=
  fun _ => .of_lambdas_eq ⟨[], rfl⟩ rfl

theorem restores_mkExpr (kind : ExprKind) (start : Nat) : Restores (mkExpr kind start) :=
  restores_freshId.bind fun _ => (restores_spanFrom start).bind fun _ => .pure

theorem restores_mkStmt (kind : StmtKind) (start : Nat) : Restores (mkStmt kind start) :=
  restores_freshId.bind fun _ => (restores_spanFrom start).bind fun _ => .pure

theorem restores_mkMember (kind : MemberKind) (start : Nat) : Restores (mkMember kind start) :=
  restores_freshId.bind fun _ => (restores_spanFrom start).bind fun _ => .pure

end Cursor

/-! ### Loops -/

section Loops

/-- A loop leaves the switch as its steps do. -/
theorem restores_iterate {step : α → Reader (Option α)} {value : α}
    (hstep : ∀ value, Restores (step value)) : Restores (iterate step value) := by
  have hbounded (bound : Nat) (value : α) : Restores (iterateUpTo step bound value) := by
    induction bound generalizing value with
    | zero => exact restores_failTooDeep
    | succ bound ih =>
        refine (hstep value).bind fun next => ?_
        cases next with
        | some next => exact ih next
        | none => exact .pure
  exact looks_loopBound.restores.bind fun bound => hbounded bound value

theorem restores_collect {step : Reader (Option α)} (hstep : Restores step) : Restores (collect step) := by
  refine (restores_iterate fun values => ?_).bind fun values => .pure
  refine hstep.bind fun value => ?_
  cases value with
  | some value => exact .pure
  | none => exact .pure

theorem restores_separated (separator : Symbol) {item : Reader α} (h : Restores item) :
    Restores (separated separator item) := by
  refine h.bind fun first => (restores_collect ?_).bind fun others => .pure
  exact (restores_acceptSymbol separator).bind fun found => .ite (h.bind fun _ => .pure) .pure

theorem restores_enumerated (close separator : Symbol) {item : Reader α} (h : Restores item) :
    Restores (enumerated close separator item) := by
  refine (restores_iterate fun scan => ?_).bind fun scan => .pure
  refine (restores_atSymbol close).bind fun closing => restores_atEnd.bind fun ended => .ite .pure ?_
  exact h.bind fun value => (restores_acceptSymbol separator).bind fun more => .pure

end Loops

end LockDiscipline.Grammar
