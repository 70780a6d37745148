import LockDiscipline.Proofs.Grammar.DeclarationProgress
/-!
# Compilation units are read without failing

The readers outside of any recovery fail only where a bound is reached, and the accounts say that no bound
is. So reading a compilation unit yields a tree, whatever tokens it is given. The error of a package
declaration is the first one that is kept, since reading the declaration keeps none.
-/

namespace LockDiscipline.Grammar

variable {α β : Type} {depth : Nat}

/-! ### Readers that fail only by a bound -/

/-- A reader that fails only where a bound is reached. -/
def FailsOnlyDeep (reader : Reader α) : Prop :=
  ∀ cursor error after, reader.run cursor = .error error after → error.fault = .tooDeep

/-- A reader that fails only by a bound and gets by with what is held does not fail. -/
theorem Affords.exists_ok {known : List Token → Prop} {held : Allowance} {left : α → Allowance}
    {reader : Reader α} (h : Affords (some depth) known held left reader) (hdeep : FailsOnlyDeep reader)
    {cursor : Cursor} (hknown : known cursor.rest) (hdepth : cursor.worth + held.levels ≤ depth) :
    ∃ value after, reader.run cursor = .ok value after ∧
      Accounts (some depth) held (left value) cursor after := by
  have houtcome := h cursor hknown (suffices_some.mpr hdepth)
  cases hrun : reader.run cursor with
  | ok value after =>
      rw [hrun] at houtcome
      exact ⟨value, after, rfl, houtcome⟩
  | error error after =>
      rw [hrun] at houtcome
      exact (houtcome.1 rfl (hdeep cursor error after hrun)).elim

namespace FailsOnlyDeep

variable {reader : Reader α} {next : α → Reader β}

theorem of_ok (h : ∀ cursor, ∃ value after, reader.run cursor = .ok value after) :
    FailsOnlyDeep reader := by
  intro cursor error after hrun
  obtain ⟨value, after', hok⟩ := h cursor
  rw [hok] at hrun
  cases hrun

theorem of_looks {shows : List Token → α → Prop} (h : Looks shows reader) : FailsOnlyDeep reader :=
  of_ok fun cursor =>
    let ⟨value, hrun, _⟩ := h cursor
    ⟨value, cursor, hrun⟩

theorem of_accepts {kind : TokenKind} {reader : Reader Bool} (h : Accepts kind reader) :
    FailsOnlyDeep reader := by
  refine of_ok fun cursor => ?_
  rw [h cursor]
  split
  · exact ⟨true, _, rfl⟩
  · exact ⟨false, _, rfl⟩

theorem pure (value : α) : FailsOnlyDeep (Pure.pure value) :=
  of_ok fun cursor => ⟨value, cursor, rfl⟩

theorem advance : FailsOnlyDeep advance :=
  of_ok fun cursor => ⟨(), cursor.advance, rfl⟩

theorem recordError (error : SyntaxError) : FailsOnlyDeep (recordError error) :=
  of_ok fun _ => ⟨_, _, rfl⟩

theorem attempt (reader : Reader α) : FailsOnlyDeep (attempt reader) := by
  refine of_ok fun cursor => ?_
  rw [run_attempt]
  cases reader.run cursor with
  | ok value after => exact ⟨.ok value, after, rfl⟩
  | error error after => exact ⟨.error error, after, rfl⟩

theorem bind (hreader : FailsOnlyDeep reader) (hnext : ∀ value, FailsOnlyDeep (next value)) :
    FailsOnlyDeep (reader >>= next) := by
  intro cursor error after hrun
  rw [EStateM.run_bind] at hrun
  cases hfirst : reader.run cursor with
  | ok value middle =>
      rw [hfirst] at hrun
      exact hnext value middle error after hrun
  | error error' middle =>
      rw [hfirst] at hrun
      cases hrun
      exact hreader cursor error after hfirst

theorem ite {condition : Prop} [Decidable condition] {first second : Reader α}
    (hfirst : FailsOnlyDeep first) (hsecond : FailsOnlyDeep second) :
    FailsOnlyDeep (if condition then first else second) := by
  split
  · exact hfirst
  · exact hsecond

theorem iterateUpTo {step : α → Reader (Option α)} (hstep : ∀ value, FailsOnlyDeep (step value))
    (bound : Nat) (value : α) : FailsOnlyDeep (iterateUpTo step bound value) := by
  induction bound generalizing value with
  | zero =>
      intro cursor error after hrun
      cases hrun
      rfl
  | succ bound ih =>
      refine bind (hstep value) fun next => ?_
      cases next with
      | none => exact pure value
      | some next => exact ih next

theorem iterate {step : α → Reader (Option α)} (hstep : ∀ value, FailsOnlyDeep (step value))
    (value : α) : FailsOnlyDeep (iterate step value) :=
  bind (of_looks looks_loopBound) fun bound => iterateUpTo hstep bound value

end FailsOnlyDeep

open FailsOnlyDeep in
theorem failsOnlyDeep_skipPastSemicolon : FailsOnlyDeep skipPastSemicolon := by
  refine bind (FailsOnlyDeep.iterate (fun _ => ?_) ()) fun _ => .pure ()
  refine bind (of_looks looks_atEnd) fun ended => .ite (.pure none) ?_
  refine bind (of_accepts (accepts_acceptSymbol .semicolon)) fun found => .ite (.pure none) ?_
  exact bind .advance fun _ => .pure (some ())

open FailsOnlyDeep in
theorem failsOnlyDeep_skipToTypeDecl : FailsOnlyDeep skipToTypeDecl := by
  refine bind .advance fun _ => bind (FailsOnlyDeep.iterate (fun braces => ?_) 0) fun _ => .pure ()
  refine bind (of_looks looks_currentKind) fun kind => ?_
  split
  · exact .pure none
  · exact bind .advance fun _ => .pure _
  · exact bind .advance fun _ => .ite (.pure none) (.pure _)
  · exact .ite (.pure none) (bind .advance fun _ => .pure _)

open FailsOnlyDeep in
theorem failsOnlyDeep_readImports : FailsOnlyDeep readImports := by
  refine bind (FailsOnlyDeep.iterate (fun scan => ?_) _) fun _ => .pure _
  refine bind (of_looks (looks_atKeyword .import)) fun found => .ite (.pure none) ?_
  refine bind (.attempt readImport) fun outcome => ?_
  cases outcome with
  | ok decl => exact .pure _
  | error error =>
      refine bind (.recordError error) fun more => .ite ?_ (.pure _)
      exact bind failsOnlyDeep_skipPastSemicolon fun _ => .pure _

open FailsOnlyDeep in
theorem failsOnlyDeep_readTypeDecls (rules : Rules) : FailsOnlyDeep (readTypeDecls rules) := by
  refine bind (FailsOnlyDeep.iterate (fun scan => ?_) _) fun _ => .pure _
  refine bind (of_looks looks_atEnd) fun ended => .ite (.pure none) ?_
  refine bind (of_accepts (accepts_acceptSymbol .semicolon)) fun found => .ite (.pure _) ?_
  refine bind (.attempt (readTypeDecl rules)) fun outcome => ?_
  cases outcome with
  | ok decl => exact .pure _
  | error error =>
      refine bind (.recordError error) fun more => .ite ?_ (.pure _)
      exact bind failsOnlyDeep_skipToTypeDecl fun _ => .pure _

/-! ### Readers that keep no errors -/

/-- A reader that keeps no errors, whether it fails or not. -/
def Silent (reader : Reader α) : Prop :=
  ∀ cursor, match reader.run cursor with
    | .ok _ after => after.errors = cursor.errors
    | .error _ after => after.errors = cursor.errors

namespace Silent

variable {reader : Reader α} {next : α → Reader β}

theorem of_looks {shows : List Token → α → Prop} (h : Looks shows reader) : Silent reader := by
  intro cursor
  obtain ⟨value, hrun, -⟩ := h cursor
  rw [hrun]

theorem of_expects {kind : TokenKind} (h : Expects kind reader) : Silent reader := by
  intro cursor
  by_cases hkind : headKind cursor.rest = kind
  · obtain ⟨value, hrun⟩ := (h cursor).1 hkind
    rw [hrun]
    exact errors_advance cursor
  · obtain ⟨error, -, hrun⟩ := (h cursor).2 hkind
    rw [hrun]

theorem pure (value : α) : Silent (Pure.pure value) :=
  fun _ => rfl

theorem throw (error : SyntaxError) : Silent (MonadExcept.throw error : Reader α) :=
  fun _ => rfl

theorem advance : Silent advance :=
  errors_advance

theorem bind (hreader : Silent reader) (hnext : ∀ value, Silent (next value)) :
    Silent (reader >>= next) := by
  intro cursor
  have hfirst := hreader cursor
  rw [EStateM.run_bind]
  cases hrun : reader.run cursor with
  | ok value middle =>
      rw [hrun] at hfirst
      have hsecond := hnext value middle
      dsimp only at hfirst ⊢
      rwa [hfirst] at hsecond
  | error error middle =>
      rw [hrun] at hfirst
      exact hfirst

theorem ite {condition : Prop} [Decidable condition] {first second : Reader α} (hfirst : Silent first)
    (hsecond : Silent second) : Silent (if condition then first else second) := by
  split
  · exact hfirst
  · exact hsecond

theorem iterate {step : α → Reader (Option α)} (hstep : ∀ value, Silent (step value)) (value : α) :
    Silent (iterate step value) := by
  refine bind (of_looks looks_loopBound) fun bound => ?_
  induction bound generalizing value with
  | zero => exact bind (of_looks looks_get) fun cursor => .throw _
  | succ bound ih =>
      refine bind (hstep value) fun next => ?_
      cases next with
      | none => exact pure value
      | some next => exact ih next

end Silent

theorem silent_expectName : Silent expectName := by
  refine Silent.bind (.of_looks looks_currentKind) fun kind => ?_
  split
  · exact .bind .advance fun _ => .pure _
  · exact .bind (.of_looks looks_get) fun cursor => .throw _

theorem silent_readQualifiedName : Silent readQualifiedName := by
  refine Silent.bind silent_expectName fun first => .iterate (fun name => ?_) first
  refine .bind (.of_looks (looks_atSymbol .dot)) fun dot => .bind (.of_looks (looks_peek 1)) fun kind =>
    .ite ?_ (.pure none)
  exact .bind .advance fun _ => .bind silent_expectName fun _ => .pure _

theorem silent_readPackage : Silent readPackage := by
  refine Silent.bind (.of_expects (expects_expectKeyword .package)) fun _ => ?_
  refine .bind silent_readQualifiedName fun name => ?_
  exact .bind (.of_expects (expects_expectSymbol .semicolon)) fun _ => .pure name

/-! ### Compilation units -/

/-- The first error is kept without one to spare. -/
theorem accounts_first_error (held : Allowance) {error : SyntaxError}
    (hshallow : Shallow (some depth) error) {cursor : Cursor} (herrors : cursor.errors = []) :
    (recordError error).run cursor = .ok true { cursor with errors := [error] } ∧
      Accounts (some depth) held held cursor { cursor with errors := [error] } := by
  refine ⟨?_, .of_rest_eq rfl rfl (herrors ▸ List.nil_prefix), ?_, Nat.le_refl _, ?_⟩
  · obtain ⟨rest, lastEnd, lambdas, errors, nextId⟩ := cursor
    cases herrors
    rfl
  · intro error' hmem
    rw [List.mem_singleton.mp hmem]
    exact .inr hshallow
  · rw [Cursor.strain, Cursor.strain, herrors]
    exact Nat.le_refl _

/-- The package declaration of a file is read or its error kept, with nothing to spare. -/
theorem exists_readPackage? {held : Allowance} {cursor : Cursor} (herrors : cursor.errors = [])
    (hdepth : cursor.worth + held.levels ≤ depth) :
    ∃ package after, readPackage?.run cursor = .ok package after ∧
      Accounts (some depth) held held cursor after := by
  obtain ⟨found, hfound, -⟩ := looks_atKeyword .package cursor
  rw [readPackage?, EStateM.run_bind, hfound]
  cases found with
  | false => exact ⟨none, cursor, rfl, .refl held cursor⟩
  | true =>
      have houtcome := @consumes_readPackage (some depth) Anywhere held (Nat.zero_le _) cursor trivial
        (suffices_some.mpr hdepth)
      have hsilent := silent_readPackage cursor
      dsimp only
      rw [if_neg (by decide), EStateM.run_bind, run_attempt]
      cases hrun : readPackage.run cursor with
      | ok package middle =>
          rw [hrun] at houtcome
          exact ⟨some package, middle, rfl, Accounts.weaken houtcome (Allowance.within_gain held)⟩
      | error error middle =>
          rw [hrun] at houtcome hsilent
          dsimp only at hsilent
          have hfailed : Accounts (some depth) held held cursor middle :=
            .moves held houtcome.2.forward hsilent
          obtain ⟨hrecord, hkept⟩ := accounts_first_error held houtcome.1 (hsilent.trans herrors)
          obtain ⟨_, after, hskip, hskipped⟩ := (@passes_skipPastSemicolon _ Anywhere held
            (Nat.zero_le _)).exists_ok failsOnlyDeep_skipPastSemicolon trivial
              (Nat.le_trans (hfailed.trans hkept).levels hdepth)
          refine ⟨none, after, ?_, (hfailed.trans hkept).trans hskipped⟩
          dsimp only
          rw [EStateM.run_bind, hrecord]
          dsimp only
          rw [EStateM.run_bind, hskip]
          rfl

/-- Where few enough tokens are ahead for the depth of the rules, a compilation unit is read. -/
theorem exists_readUnit {rules : Rules} (hrules : rules.Consuming (some depth)) {held : Allowance}
    (hheld : 1 ≤ held.levels) {cursor : Cursor} (herrors : cursor.errors = [])
    (hdepth : cursor.worth + held.levels ≤ depth) :
    ∃ unit after, (readUnit rules).run cursor = .ok unit after ∧
      Accounts (some depth) held.spare held cursor after := by
  obtain ⟨package, middle, hrun, hfirst⟩ := @exists_readPackage? _ held.spare _ herrors hdepth
  have hrest : Affords (some depth) Anywhere held.spare (fun _ => held) (do
      let imports ← readImports
      let types ← if imports.more then readTypeDecls rules else pure []
      return (⟨package, imports.decls, types⟩ : CompilationUnit)) := by
    refine affords_readImports.bind fun imports => ?_
    cases imports.more with
    | true => exact (affords_readTypeDecls hrules hheld).bind fun types => .done
    | false => exact .done
  have hdeep : FailsOnlyDeep (do
      let imports ← readImports
      let types ← if imports.more then readTypeDecls rules else pure []
      return (⟨package, imports.decls, types⟩ : CompilationUnit)) := by
    refine failsOnlyDeep_readImports.bind fun imports => .ite ?_ (.pure _)
    exact (failsOnlyDeep_readTypeDecls rules).bind fun types => .pure _
  obtain ⟨unit, after, hlast, hsecond⟩ :=
    hrest.exists_ok hdeep trivial (Nat.le_trans hfirst.levels hdepth)
  refine ⟨unit, after, ?_, hfirst.trans hsecond⟩
  rw [readUnit, EStateM.run_bind, hrun]
  exact hlast

end LockDiscipline.Grammar

/-! ### The number of errors that are kept

Each list with recovery stops at the limit for itself only: what contains it goes on, and may keep an error
of its own behind it. So the number of errors exceeds the limit by at most the number of tokens that open
such a list, and there are token lists where it does. -/

namespace LockDiscipline

open Grammar

/-- Every token that opens a list with recovery allows for one error beyond the limit. -/
theorem ParsedUnit.length_errors_ofTokens_le (tokens : List Token) :
    (ofTokens tokens).errors.length ≤ errorLimit + tokens.countP opensList := by
  obtain ⟨unit, after, hrun, haccounts⟩ := @exists_readUnit _ _
    (consuming_rules (depthFor tokens)) ⟨8, 0⟩ (by decide) (.start tokens) rfl (Nat.le_refl _)
  rw [ofTokens, hrun]
  have hstrain := haccounts.errors
  rw [Cursor.strain, Cursor.strain, Cursor.start] at hstrain
  dsimp only [List.length_nil] at hstrain ⊢
  rw [errorLimit] at hstrain ⊢
  omega

/-- A class with an initializer of twenty statements that break off, a member that is none, and something
that is no class behind it. -/
def overfullTokens : List Token :=
  let opening : List TokenKind :=
    [.keyword .class, .ident "A", .symbol .leftBrace, .symbol .leftBrace]
  let closing : List TokenKind :=
    [.symbol .rightBrace, .symbol .rightParen, .symbol .rightBrace, .symbol .rightParen]
  (opening ++ List.replicate errorLimit (TokenKind.keyword .if) ++ closing).map (⟨·, default⟩)

/-- The block keeps as many errors as may be kept, and then the class and the file keep one each. -/
theorem errorLimit_lt_length_errors_overfullTokens :
    errorLimit < (ParsedUnit.ofTokens overfullTokens).errors.length := by
  decide +kernel

-- Here every list with recovery keeps the error that it allows for.
example : (ParsedUnit.ofTokens overfullTokens).errors.length =
    errorLimit + overfullTokens.countP opensList := by
  decide +kernel

end LockDiscipline
