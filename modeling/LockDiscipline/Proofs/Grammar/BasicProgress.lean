import LockDiscipline.Proofs.Grammar.Progress
/-!
# Progress of the basic readers

What the readers below the rules of the grammar need and leave: looking at a token, consuming it, numbering
a node, keeping an error, and the loops. A loop is bounded by the tokens ahead of it, so each of its steps
but the last has to consume one.
-/

namespace LockDiscipline.Grammar

variable {α β : Type} {depth : Option Nat} {level : Nat} {known : List Token → Prop} {held : Allowance}
  {left : β → Allowance}

/-! ### Looking -/

theorem looks_get : Looks (fun rest (cursor : Cursor) => cursor.rest = rest) get :=
  fun cursor => ⟨cursor, rfl, rfl⟩

theorem looks_currentKind : Looks (headKind · = ·) currentKind :=
  fun cursor => ⟨cursor.current.kind, rfl, (kind_current cursor).symm⟩

theorem looks_currentStart : Looks (fun _ _ => True) currentStart :=
  fun cursor => ⟨cursor.current.span.start, rfl, trivial⟩

theorem looks_spanFrom (start : Nat) : Looks (fun _ _ => True) (spanFrom start) :=
  fun cursor => ⟨⟨start, cursor.lastEnd⟩, rfl, trivial⟩

theorem looks_peek (count : Nat) : Looks (fun rest kind => kindAt count rest = kind) (peek count) :=
  fun cursor => ⟨kindAt count cursor.rest, rfl, rfl⟩

theorem looks_ahead (test : List Token → Bool) :
    Looks (fun rest found => test rest = found) (ahead test) :=
  fun cursor => ⟨test cursor.rest, rfl, rfl⟩

theorem looks_atEnd : Looks (fun rest found => (headKind rest == .eof) = found) atEnd :=
  fun cursor => ⟨_, rfl, by rw [kind_current]⟩

theorem looks_atSymbol (sign : Symbol) :
    Looks (fun rest found => (headKind rest == .symbol sign) = found) (atSymbol sign) :=
  fun cursor => ⟨_, rfl, by rw [kind_current]⟩

theorem looks_atKeyword (word : Keyword) :
    Looks (fun rest found => (headKind rest == .keyword word) = found) (atKeyword word) :=
  fun cursor => ⟨_, rfl, by rw [kind_current]⟩

theorem looks_loopBound : Looks (fun rest bound => bound = rest.length + 1) loopBound :=
  fun cursor => ⟨cursor.rest.length + 1, rfl, rfl⟩

/-! ### Consuming -/

/-- A reader that begins by moving over the next token, so it consumes one where the file does not end. -/
def Moves {α : Type} (depth : Option Nat) (reader : Reader α) : Prop :=
  ∀ held, Affords depth (headKind · ≠ .eof) held (fun _ => held.gain) reader

theorem moves_advance : Moves depth advance :=
  fun held _ hcursor _ => accounts_advance held hcursor

namespace Moves

variable {reader : Reader α} {kind : TokenKind}

/-- Where the file is known not to end, the reader consumes a token. -/
theorem given (h : Moves depth reader) (hknown : ∀ rest, known rest → headKind rest ≠ .eof) :
    Affords depth known held (fun _ => held.gain) reader :=
  (h held).weaken hknown fun _ => .refl _

theorem at_kind (h : Moves depth reader) (hkind : kind ≠ .eof) :
    Affords depth (headKind · = kind) held (fun _ => held.gain) reader :=
  h.given fun _ hrest => hrest ▸ hkind

/-- At a token that was seen, the reader consumes it. -/
theorem at_seen (h : Moves depth reader) (hkind : kind ≠ .eof) {found : Bool} (hfound : found) :
    Affords depth (fun rest => (headKind rest == kind) = found) held (fun _ => held.gain) reader := by
  refine h.given fun rest hrest => ?_
  rw [hfound] at hrest
  exact eq_of_beq hrest ▸ hkind

/-- Behind the token every rule can be read. -/
theorem advance_first {next : Unit → Reader β}
    (hnext : ∀ held : Allowance, Affords depth Anywhere held.gain (fun _ => held.gain) (next ())) :
    Moves depth (advance >>= next) :=
  fun held => (moves_advance held).bind fun _ => hnext held

end Moves

theorem passes_advance : Passes depth 0 advance :=
  fun _ _ _ before _ _ => Accounts.moves _ (.advance before) (errors_advance before)

/-- A token in front opens a list with recovery. -/
theorem accounts_opened {cursor : Cursor} {kind : TokenKind} (hcursor : headKind cursor.rest = kind)
    (hopens : opensList ⟨kind, default⟩) :
    Accounts depth held held.gain.spare cursor cursor.advance := by
  cases hrest : cursor.rest with
  | nil =>
      rw [hrest] at hcursor
      cases hcursor
      cases hopens
  | cons token rest =>
      rw [hrest] at hcursor
      cases hcursor
      exact accounts_advance_spare held hrest hopens

/-- A reader consumes the next token if it is of a kind, and says whether it was. -/
def Accepts (kind : TokenKind) (reader : Reader Bool) : Prop :=
  ∀ cursor : Cursor, reader.run cursor =
    if headKind cursor.rest = kind then .ok true cursor.advance else .ok false cursor

theorem accepts_acceptSymbol (sign : Symbol) : Accepts (.symbol sign) (acceptSymbol sign) := by
  intro cursor
  obtain ⟨found, hrun, hfound⟩ := looks_atSymbol sign cursor
  rw [acceptSymbol, EStateM.run_bind, hrun]
  by_cases hkind : headKind cursor.rest = .symbol sign
  · obtain rfl : found = true := by rw [← hfound, hkind]; exact beq_self_eq_true _
    rw [if_pos hkind]
    rfl
  · obtain rfl : found = false := by rw [← hfound]; exact beq_false_of_ne hkind
    rw [if_neg hkind]
    rfl

theorem accepts_acceptKeyword (word : Keyword) : Accepts (.keyword word) (acceptKeyword word) := by
  intro cursor
  obtain ⟨found, hrun, hfound⟩ := looks_atKeyword word cursor
  rw [acceptKeyword, EStateM.run_bind, hrun]
  by_cases hkind : headKind cursor.rest = .keyword word
  · obtain rfl : found = true := by rw [← hfound, hkind]; exact beq_self_eq_true _
    rw [if_pos hkind]
    rfl
  · obtain rfl : found = false := by rw [← hfound]; exact beq_false_of_ne hkind
    rw [if_neg hkind]
    rfl

namespace Accepts

variable {kind : TokenKind} {reader : Reader Bool} {next : Bool → Reader β} {mid : Allowance}

/-- Either the token is consumed, or the reader stays where it is. -/
private theorem branchWith (h : Accepts kind reader)
    (hmid : ∀ cursor : Cursor, headKind cursor.rest = kind → Accounts depth held mid cursor cursor.advance)
    (hfound : Affords depth Anywhere mid left (next true))
    (hnot : Affords depth (fun rest => known rest ∧ headKind rest ≠ kind) held left (next false)) :
    Affords depth known held left (reader >>= next) := by
  intro cursor hknown hdepth
  rw [EStateM.run_bind, h cursor]
  by_cases hkind : headKind cursor.rest = kind
  · rw [if_pos hkind]
    have hfirst := hmid cursor hkind
    exact (hfound cursor.advance trivial (hdepth.of_le hfirst.levels)).behind hfirst
  · rw [if_neg hkind]
    exact hnot cursor ⟨hknown, hkind⟩ hdepth

theorem branch (h : Accepts kind reader) (hkind : kind ≠ .eof)
    (hfound : Affords depth Anywhere held.gain left (next true))
    (hnot : Affords depth (fun rest => known rest ∧ headKind rest ≠ kind) held left (next false)) :
    Affords depth known held left (reader >>= next) :=
  h.branchWith (fun _ hcursor => accounts_advance held (hcursor ▸ hkind)) hfound hnot

/-- A token that is found may open a list with recovery. -/
theorem branch_opened (h : Accepts kind reader) (hopens : opensList ⟨kind, default⟩)
    (hfound : Affords depth Anywhere held.gain.spare left (next true))
    (hnot : Affords depth (fun rest => known rest ∧ headKind rest ≠ kind) held left (next false)) :
    Affords depth known held left (reader >>= next) :=
  h.branchWith (fun _ hcursor => accounts_opened hcursor hopens) hfound hnot

theorem passes (h : Accepts kind reader) : Passes depth 0 reader := by
  intro known held _ cursor _ _
  rw [h cursor]
  split
  · exact Accounts.moves held (.advance cursor) (errors_advance cursor)
  · exact Accounts.refl held cursor

/-- Behind a token it does not matter whether another one is consumed. -/
theorem behind (h : Accepts kind reader) (hkind : kind ≠ .eof)
    (hfound : Affords depth Anywhere held.gain left (next true))
    (hnot : Affords depth Anywhere held.gain left (next false)) :
    Affords depth known held.gain left (reader >>= next) :=
  h.branchWith (fun _ hcursor => (accounts_advance _ (hcursor ▸ hkind)).weaken
    (Allowance.within_gain _)) hfound (hnot.weaken (fun _ _ => trivial) fun _ => .refl _)

end Accepts

/-- A reader consumes the next token if it is of a kind, and else fails. -/
def Expects {α : Type} (kind : TokenKind) (reader : Reader α) : Prop :=
  ∀ cursor : Cursor, (headKind cursor.rest = kind → ∃ value, reader.run cursor = .ok value cursor.advance) ∧
    (headKind cursor.rest ≠ kind →
      ∃ error, error.fault ≠ .tooDeep ∧ reader.run cursor = .error error cursor)

theorem expects_expectSymbol (sign : Symbol) : Expects (.symbol sign) (expectSymbol sign) := by
  intro cursor
  rw [← kind_current, expectSymbol, EStateM.run_bind]
  constructor
  · intro hkind
    exact ⟨cursor.current.span, by dsimp only [EStateM.run_get]; rw [if_pos hkind]; rfl⟩
  · intro hkind
    refine ⟨⟨cursor.current.span, .unmet (.symbol sign) cursor.current.kind⟩, nofun, ?_⟩
    dsimp only [EStateM.run_get]
    rw [if_neg hkind]
    rfl

theorem expects_expectKeyword (word : Keyword) : Expects (.keyword word) (expectKeyword word) := by
  intro cursor
  rw [← kind_current, expectKeyword, EStateM.run_bind]
  constructor
  · intro hkind
    exact ⟨cursor.current.span, by dsimp only [EStateM.run_get]; rw [if_pos hkind]; rfl⟩
  · intro hkind
    refine ⟨⟨cursor.current.span, .unmet (.keyword word) cursor.current.kind⟩, nofun, ?_⟩
    dsimp only [EStateM.run_get]
    rw [if_neg hkind]
    rfl

namespace Expects

variable {kind : TokenKind} {reader : Reader α} {mid : Allowance}

theorem affords (h : Expects kind reader)
    (hmid : ∀ cursor : Cursor, headKind cursor.rest = kind → Accounts depth held mid cursor cursor.advance) :
    Affords depth known held (fun _ => mid) reader := by
  intro cursor _ _
  by_cases hkind : headKind cursor.rest = kind
  · obtain ⟨value, hrun⟩ := (h cursor).1 hkind
    rw [hrun]
    exact hmid cursor hkind
  · obtain ⟨error, hfault, hrun⟩ := (h cursor).2 hkind
    rw [hrun]
    exact ⟨fun _ => hfault, (Accounts.refl held cursor).weaken ⟨Nat.zero_le _, Nat.zero_le _⟩⟩

theorem consumes (h : Expects kind reader) (hkind : kind ≠ .eof) : Consumes depth 0 reader :=
  fun _ held _ => h.affords fun _ hcursor => accounts_advance held (hcursor ▸ hkind)

/-- A token that is consumed may open a list with recovery. -/
theorem opened (h : Expects kind reader) (hopens : opensList ⟨kind, default⟩) :
    Affords depth known held (fun _ => held.gain.spare) reader :=
  h.affords fun _ hcursor => accounts_opened hcursor hopens

end Expects

theorem consumes_expectSymbol (sign : Symbol) : Consumes depth 0 (expectSymbol sign) :=
  (expects_expectSymbol sign).consumes nofun

theorem consumes_expectKeyword (word : Keyword) : Consumes depth 0 (expectKeyword word) :=
  (expects_expectKeyword word).consumes nofun

theorem affords_failExpected {α : Type} {left : α → Allowance} (expected : Expectation) :
    Affords depth known held left (failExpected expected : Reader α) :=
  looks_get.skip fun _ => .throw nofun

theorem consumes_expectName : Consumes depth 0 expectName := by
  intro known held _
  refine looks_currentKind.learn fun kind => ?_
  split
  · exact (moves_advance.at_kind (by nofun)).bind fun _ => .done
  · exact affords_failExpected _

/-! ### Numbers and errors -/

theorem passes_freshId : Passes depth 0 freshId :=
  fun _ held _ _ _ _ => Accounts.stay held rfl rfl rfl

theorem passes_mkExpr (kind : ExprKind) (start : Nat) : Passes depth 0 (mkExpr kind start) :=
  fun _ _ hheld => passes_freshId.first hheld fun _ => (looks_spanFrom start).skip fun _ => .done

theorem passes_mkStmt (kind : StmtKind) (start : Nat) : Passes depth 0 (mkStmt kind start) :=
  fun _ _ hheld => passes_freshId.first hheld fun _ => (looks_spanFrom start).skip fun _ => .done

theorem passes_mkMember (kind : MemberKind) (start : Nat) : Passes depth 0 (mkMember kind start) :=
  fun _ _ hheld => passes_freshId.first hheld fun _ => (looks_spanFrom start).skip fun _ => .done

/-- A reader at the end makes a node of what was read. -/
theorem Passes.last {reader : Reader α} (h : Passes depth 0 reader) :
    Affords depth known held (fun _ => held) reader :=
  h (Nat.zero_le _)

/-- An error is kept within the limit, or it is the one to spare. -/
theorem accounts_recordError (held : Allowance) {error : SyntaxError} (herror : Shallow depth error)
    (cursor : Cursor) :
    ∃ more after, (recordError error).run cursor = .ok more after ∧ after.rest = cursor.rest ∧
      Accounts depth held.spare (held.spareIf more) cursor after := by
  refine ⟨decide ((cursor.errors ++ [error]).length < errorLimit), _, rfl, rfl, ?_⟩
  refine ⟨.of_rest_eq rfl rfl (List.prefix_append _ _), fun error' hmem => ?_, ?_, ?_⟩
  · refine (List.mem_append.mp hmem).imp id fun hlast => ?_
    rw [List.mem_singleton.mp hlast]
    exact herror
  · rw [Allowance.levels_spareIf]
    exact Nat.le_refl _
  · rw [Cursor.strain, Cursor.strain, List.length_append, List.length_singleton, errorLimit]
    by_cases hmore : cursor.errors.length + 1 < 20
    · rw [decide_eq_true hmore, Allowance.spareIf]
      dsimp only
      omega
    · rw [decide_eq_false hmore, Allowance.spareIf]
      dsimp only
      omega

/-- Recovery goes on behind an error within the limit, and an error beyond it takes the one to spare. -/
theorem Affords.record {error : SyntaxError} {next : Bool → Reader β} {levels errors : Nat}
    (herror : Shallow depth error)
    (hmore : Affords depth known ⟨levels, errors + 1⟩ left (next true))
    (hlast : Affords depth known ⟨levels, errors⟩ left (next false)) :
    Affords depth known ⟨levels, errors + 1⟩ left (recordError error >>= next) := by
  intro cursor hknown hdepth
  obtain ⟨more, middle, hrun, hrest, hfirst⟩ :=
    accounts_recordError ⟨levels, errors⟩ herror cursor
  have hsecond : Affords depth known (Allowance.spareIf ⟨levels, errors⟩ more) left (next more) := by
    cases more with
    | true => exact hmore
    | false => exact hlast
  rw [EStateM.run_bind, hrun]
  exact (hsecond middle (hrest ▸ hknown) (hdepth.of_le hfirst.levels)).behind hfirst

/-- Whether lambdas are allowed does not matter for what a reader needs. -/
theorem run_withLambdas (allowed restored : Bool) (reader : Reader α) (cursor : Cursor) :
    (withLambdas allowed restored reader).run cursor =
      match reader.run { cursor with lambdas := allowed } with
      | .ok value after => .ok value { after with lambdas := restored }
      | .error error after => .error error { after with lambdas := restored } := by
  have hmodify : (modify ({ · with lambdas := allowed }) : Reader Unit).run cursor =
      .ok () { cursor with lambdas := allowed } := rfl
  rw [withLambdas, EStateM.run_bind, hmodify]
  dsimp only
  rw [EStateM.run_bind, run_attempt]
  cases reader.run { cursor with lambdas := allowed } <;> rfl

theorem Accounts.withLambdas {held left : Allowance} {before after : Cursor} {allowed restored : Bool}
    (h : Accounts depth held left { before with lambdas := allowed } after) :
    Accounts depth held left before { after with lambdas := restored } :=
  ⟨⟨h.forward.read, h.forward.errors⟩, h.shallow, h.levels, h.errors⟩

theorem Consumes.withLambdas (allowed restored : Bool) {reader : Reader α}
    (h : Consumes depth level reader) : Consumes depth level (withLambdas allowed restored reader) := by
  intro known held hheld cursor hknown hdepth
  have houtcome := @h known held hheld { cursor with lambdas := allowed } hknown hdepth
  rw [run_withLambdas]
  cases hrun : reader.run { cursor with lambdas := allowed } with
  | ok value after =>
      rw [hrun] at houtcome
      exact Accounts.withLambdas houtcome
  | error error after =>
      rw [hrun] at houtcome
      exact ⟨houtcome.1, houtcome.2.withLambdas⟩

theorem Consumes.readWhen {reader : Reader α} (h : Consumes depth level reader) (found : Bool) :
    Passes depth level (readWhen found reader) := by
  cases found with
  | true => exact h.passes.map
  | false => exact fun _ _ _ => .done

/-! ### Loops -/

/-- What the state of a loop holds, when it goes on and when it ends. -/
def Allowance.afterStep (levels : Nat) (credit : α → Nat) (value : α) : Option α → Allowance
  | some next => ⟨levels, credit next⟩
  | none => ⟨levels, credit value⟩

/-- A loop gets by with what its state holds, as long as every step but the last makes the state smaller. -/
theorem affords_iterateUpTo {levels : Nat} {credit : α → Nat} {step : α → Reader (Option α)}
    (hstep : ∀ value, Affords depth Anywhere ⟨levels, credit value⟩
      (Allowance.afterStep levels credit value) (step value))
    (size : α → List Token → Nat)
    (hsize : ∀ value cursor next after, Suffices depth (cursor.worth + levels) →
      (step value).run cursor = .ok (some next) after → size next after.rest < size value cursor.rest)
    (bound : Nat) (value : α) :
    Affords depth (size value · < bound) ⟨levels, credit value⟩ (fun last => ⟨levels, credit last⟩)
      (iterateUpTo step bound value) := by
  intro cursor hbound hdepth
  induction bound generalizing value cursor with
  | zero => exact absurd hbound (Nat.not_lt_zero _)
  | succ bound ih =>
      have hfirst := hstep value cursor trivial hdepth
      rw [iterateUpTo, EStateM.run_bind]
      cases hrun : (step value).run cursor with
      | error error middle =>
          rw [hrun] at hfirst
          exact hfirst
      | ok next middle =>
          rw [hrun] at hfirst
          cases next with
          | none => exact hfirst
          | some next =>
              have hsmaller := hsize value cursor next middle hdepth hrun
              exact (ih next middle (by omega) (hdepth.of_le hfirst.levels)).behind hfirst

theorem affords_iterate {levels : Nat} {credit : α → Nat} {step : α → Reader (Option α)} {value : α}
    (hstep : ∀ value, Affords depth Anywhere ⟨levels, credit value⟩
      (Allowance.afterStep levels credit value) (step value))
    (size : α → List Token → Nat) (hinit : ∀ rest, size value rest ≤ rest.length)
    (hsize : ∀ value cursor next after, Suffices depth (cursor.worth + levels) →
      (step value).run cursor = .ok (some next) after → size next after.rest < size value cursor.rest) :
    Affords depth known ⟨levels, credit value⟩ (fun last => ⟨levels, credit last⟩)
      (iterate step value) := by
  refine looks_loopBound.learn fun bound => ?_
  refine (affords_iterateUpTo hstep size hsize bound value).weaken ?_ fun _ => .refl _
  rintro rest rfl
  exact Nat.lt_succ_of_le (hinit rest)

/-- Every step from which a loop goes on consumes a token. -/
def Advances {α : Type} (depth : Option Nat) (level : Nat) (step : α → Reader (Option α)) : Prop :=
  ∀ value {held : Allowance}, level ≤ held.levels → Affords depth Anywhere held held.gainFor (step value)

namespace Advances

variable {step : α → Reader (Option α)} {value : α}

theorem length_lt (h : Advances depth level step) {held : Allowance} (hheld : level ≤ held.levels)
    {cursor after : Cursor} {next : α} (hdepth : Suffices depth (cursor.worth + held.levels))
    (hrun : (step value).run cursor = .ok (some next) after) :
    after.rest.length < cursor.rest.length := by
  have houtcome := h value hheld cursor trivial hdepth
  rw [hrun] at houtcome
  exact Accounts.length_lt houtcome (Nat.le_refl _)

theorem afterStep (h : Advances depth level step) {held : Allowance} (hheld : level ≤ held.levels)
    (value : α) : Affords depth Anywhere held
      (Allowance.afterStep held.levels (fun _ => held.errors) value) (step value) := by
  refine (h value hheld).weaken (fun _ => id) fun next => ?_
  cases next with
  | some next => exact Allowance.within_gain _
  | none => exact .refl _

theorem loopUpTo (h : Advances depth level step) (bound : Nat) (value : α) {held : Allowance}
    (hheld : level ≤ held.levels) : Affords depth (·.length < bound) held (fun _ => held)
      (iterateUpTo step bound value) :=
  affords_iterateUpTo (h.afterStep hheld) (fun _ rest => rest.length)
    (fun _ _ _ _ hdepth hrun => h.length_lt hheld hdepth hrun) bound value

theorem loop (h : Advances depth level step) (value : α) :
    Passes depth level (iterate step value) :=
  fun _ _ hheld => affords_iterate (h.afterStep hheld) (fun _ rest => rest.length)
    (fun _ => Nat.le_refl _) fun _ _ _ _ hdepth hrun => h.length_lt hheld hdepth hrun

/-- A loop whose first step consumes a token consumes one. -/
theorem loop_of_first (h : Advances depth level step) (hheld : level ≤ held.levels)
    (hfirst : Affords depth known held (fun _ => held.gain) (step value)) :
    Affords depth known held (fun _ => held.gain) (iterate step value) := by
  intro cursor hknown hdepth
  have hstep := hfirst cursor hknown hdepth
  have hloop : (iterate step value).run cursor =
      (iterateUpTo step (cursor.rest.length + 1) value).run cursor := rfl
  rw [hloop, iterateUpTo, EStateM.run_bind]
  cases hrun : (step value).run cursor with
  | error error middle =>
      rw [hrun] at hstep
      exact hstep
  | ok next middle =>
      rw [hrun] at hstep
      cases next with
      | none => exact hstep
      | some next =>
          -- What is left of the bound is enough for the tokens that are left.
          have hbound : middle.rest.length < cursor.rest.length :=
            Accounts.length_lt hstep (Nat.le_refl _)
          exact (h.loopUpTo cursor.rest.length next (Nat.le_trans hheld (Nat.le_add_right _ 8)) middle
            hbound (hdepth.of_le hstep.levels)).behind hstep

end Advances

/-! ### Lists with recovery -/

/-- What a step of a list with recovery leaves, the list having an error to spare: the error is kept as
long as the list goes on, and then a token was consumed. -/
def Allowance.recovered (held : Allowance) (more : α → Bool) : Option α → Allowance
  | some next => if more next then held.gain.spare else held
  | none => held.spare

theorem Allowance.within_recovered {held : Allowance} {more : α → Bool} {next : α} (h : more next) :
    (held.recovered more (some next)).Within held.gain.spare := by
  rw [recovered, if_pos h]
  exact .refl _

/-- The steps of a list with recovery. None is made at the end of the file or once the list is not to go
on, whatever that is read from. -/
structure Recovers {α : Type} (depth : Option Nat) (level : Nat) (more : α → Bool)
    (step : α → Reader (Option α)) : Prop where
  goes : ∀ value {held : Allowance}, level ≤ held.levels →
    Affords depth Anywhere held.spare (held.recovered more) (step value)
  ends : ∀ value cursor, more value = false ∨ headKind cursor.rest = .eof →
    (step value).run cursor = .ok none cursor

namespace Recovers

variable {more : α → Bool} {step : α → Reader (Option α)} {value : α}

/-- From step to step the list has fewer tokens ahead, or it goes on no more. -/
theorem size_lt (h : Recovers depth level more step) {held : Allowance} (hheld : level ≤ held.levels)
    {cursor after : Cursor} {next : α} (hdepth : Suffices depth (cursor.worth + held.levels))
    (hrun : (step value).run cursor = .ok (some next) after) :
    (if more next then after.rest.length else 0) < if more value then cursor.rest.length else 0 := by
  have hgoes : more value = true ∧ headKind cursor.rest ≠ .eof := by
    constructor
    · by_contra hmore
      rw [h.ends value cursor (.inl (Bool.eq_false_iff.mpr hmore))] at hrun
      cases hrun
    · intro heof
      rw [h.ends value cursor (.inr heof)] at hrun
      cases hrun
  have hstep := h.goes value hheld cursor trivial hdepth
  rw [hrun] at hstep
  rw [if_pos hgoes.1]
  cases hnext : more next with
  | true =>
      have houtcome : Accounts depth held.spare held.gain.spare cursor after := by
        simpa only [Afforded, Allowance.recovered, hnext, if_true] using hstep
      rw [if_pos rfl]
      exact houtcome.length_lt (Nat.le_refl _)
  | false =>
      have := length_advance hgoes.2
      rw [if_neg Bool.false_ne_true]
      omega

/-- A list with recovery uses no other error than the one that it has to spare, and that one only if it is
not to go on. -/
theorem loop (h : Recovers depth level more step) (hmore : more value) (hheld : level ≤ held.levels) :
    Affords depth known held.spare (fun last => held.spareIf (more last)) (iterate step value) := by
  have hcredit : held.spare = ⟨held.levels, held.errors + (more value).toNat⟩ := by
    rw [hmore, Bool.toNat_true]
  have hstep (value : α) :
      Affords depth Anywhere ⟨held.levels, held.errors + (more value).toNat⟩
        (Allowance.afterStep held.levels (fun value => held.errors + (more value).toNat) value)
        (step value) := by
    cases hvalue : more value with
    | true =>
        refine (h.goes value hheld).weaken (fun _ => id) fun next => ?_
        cases next with
        | none => exact ⟨Nat.le_refl _, by rw [Allowance.afterStep, hvalue]; exact Nat.le_refl _⟩
        | some next =>
            rw [Allowance.recovered, Allowance.afterStep]
            cases more next with
            | true => exact ⟨Nat.le_add_right _ _, Nat.le_refl _⟩
            | false => exact .refl _
    | false =>
        intro cursor _ _
        rw [h.ends value cursor (.inl hvalue)]
        refine (Accounts.refl _ cursor).weaken ?_
        rw [Allowance.afterStep, hvalue]
        exact .refl _
  rw [hcredit]
  refine (affords_iterate hstep (fun value rest => if more value then rest.length else 0)
    (fun rest => Nat.le_of_eq (if_pos hmore)) fun _ _ _ _ hdepth hrun =>
      h.size_lt hheld hdepth hrun).weaken (fun _ => id) fun last => ?_
  cases more last with
  | true => exact .refl _
  | false => exact .refl _

end Recovers

/-- An item of a list with recovery: behind an error within the limit it is recovered and the list goes
on, and behind any other error the list goes on no more. Where the item consumed nothing, recovery does. -/
theorem affords_item {reader : Reader β} {outcome : Except SyntaxError β → Reader (Option α)}
    {recovery : Reader Unit} {more : α → Bool} {next : α} {last : Reader (Option α)}
    (hreader : Consumes depth level reader) (hheld : level ≤ held.levels)
    (herror : ∀ error, outcome (.error error) = do
      if ← recordError error then
        recovery
        return some next
      else last)
    (hnext : more next)
    (hok : ∀ value, Affords depth Anywhere held.gain.spare (held.recovered more) (outcome (.ok value)))
    (hmoved : Passes depth 0 recovery)
    (hstayed : Affords depth known held.spare (fun _ => held.gain.spare) recovery)
    (hlast : ∀ {known hand}, held.Within hand → Affords depth known hand (held.recovered more) last) :
    Affords depth known held.spare (held.recovered more) (attempt reader >>= outcome) := by
  refine Affords.recover hreader hheld hok (fun error hshallow => ?_) fun error hshallow => ?_
  · rw [herror]
    refine Affords.record hshallow ?_ ?_
    · exact hmoved.last.bind fun _ => .pure (Allowance.within_recovered hnext)
    · exact hlast (Allowance.within_gain held)
  · rw [herror]
    refine Affords.record hshallow ?_ ?_
    · exact hstayed.bind fun _ => .pure (Allowance.within_recovered hnext)
    · exact hlast (.refl held)

theorem advances_collectStep {step : Reader (Option α)}
    (hstep : ∀ {held : Allowance}, level ≤ held.levels →
      Affords depth Anywhere held held.gainFor step) : Advances depth level (collectStep step) := by
  intro values held hheld
  refine (hstep hheld).bind fun value => ?_
  cases value <;> exact .pure (.refl _)

theorem passes_collect {step : Reader (Option α)}
    (hstep : ∀ {held : Allowance}, level ≤ held.levels →
      Affords depth Anywhere held held.gainFor step) : Passes depth level (collect step) :=
  fun _ _ hheld => ((advances_collectStep hstep).loop []).first hheld fun _ => .done

theorem consumes_separated (separator : Symbol) {item : Reader α} (hlevel : level ≤ 8)
    (h : Consumes depth level item) : Consumes depth level (separated separator item) := by
  intro known held hheld
  refine h.first hheld fun first => ?_
  refine Passes.behind (passes_collect ?_) (Nat.zero_le 8) fun others => .done
  intro held _
  refine (accepts_acceptSymbol separator).branch nofun ?_ (.pure (.refl _))
  exact h.behind hlevel fun value => .pure (.refl _)

theorem passes_enumerated (close separator : Symbol) {item : Reader α} (h : Consumes depth level item) :
    Passes depth level (enumerated close separator item) := by
  intro known held hheld
  refine Passes.first (Advances.loop ?_ ([], true)) hheld fun scan => .done
  intro scan held hheld
  refine (looks_atSymbol close).skip fun closing => looks_atEnd.skip fun ended =>
    .ite (fun _ => .pure (.refl _)) fun _ => ?_
  refine h.first hheld fun value => ?_
  exact (accepts_acceptSymbol separator).branch nofun (.pure (Allowance.within_gain _))
    (.pure (.refl _))

end LockDiscipline.Grammar
