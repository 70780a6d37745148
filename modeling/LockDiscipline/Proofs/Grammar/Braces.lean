import LockDiscipline.Proofs.Grammar.UnitOutcome
/-!
# Braces and recovery

Recovery in a block counts the braces that it passes, from zero on. So it ends in the block only if what
failed did so outside of all braces that were opened in it. `Grammar.Keeps` says of a reader that it stands
inside of as many braces behind what it read as before, whether it failed or not. Blocks and the bodies of
classes do this, since they recover from errors themselves; arrays, the cases of a `switch` statement and the
constants of an enum do not, and neither do parameters of a lambda that run past a brace. In tokens that pass
`Grammar.opensBlocks` none of these occurs.

A bound on the rules could end a reader anywhere, so nothing is said once a bound was met.
-/

namespace LockDiscipline.Grammar

/-! ### Tokens inside of braces -/

/-- The number of braces open behind tokens, if `depth` of them are open before. There is none if a brace
is closed that is not open, or the file ends. -/
def openBraces? (depth : Nat) : List Token → Option Nat
  | [] => some depth
  | token :: rest =>
      match token.kind with
      | .symbol .leftBrace => openBraces? (depth + 1) rest
      | .symbol .rightBrace => if depth = 0 then none else openBraces? (depth - 1) rest
      | .eof => none
      | _ => openBraces? depth rest

/-- Whether a token is a brace. -/
def isBrace : TokenKind → Bool
  | .symbol .leftBrace | .symbol .rightBrace => true
  | _ => false

theorem isBrace_eq_false {kind : TokenKind} (hleft : kind ≠ .symbol .leftBrace)
    (hright : kind ≠ .symbol .rightBrace) : isBrace kind = false := by
  refine Bool.eq_false_iff.mpr fun hbrace => ?_
  rw [isBrace.eq_def] at hbrace
  split at hbrace
  · exact hleft rfl
  · exact hright rfl
  · cases hbrace

/-- The tokens behind which a brace opens an array, if it opens anything: the sign before an initial value or
a named argument, the parenthesis before the argument of an annotation, the dimensions of an array, and the
keyword before the default value of an element. -/
def announcesArray : TokenKind → Bool
  | .symbol .assign | .symbol .leftParen | .symbol .rightBracket | .keyword .default => true
  | _ => false

/-- Whether what lies ahead is taken for the parameters of a lambda, with a closing brace among them. -/
def spansBrace (tokens : List Token) : Bool :=
  looksLikeLambda tokens &&
    (tokens.takeWhile (·.kind != .symbol .rightParen)).any (·.kind == .symbol .rightBrace)

/-- Whether braces only open blocks and bodies of classes in tokens that others follow. -/
def opensBlocks (outside : List Token) : List Token → Bool
  | [] => true
  | token :: rest =>
      token.kind != .keyword .switch && token.kind != .keyword .enum &&
        !(announcesArray token.kind && headKind rest == .symbol .leftBrace) &&
        !spansBrace (token :: rest ++ outside) && opensBlocks outside rest

/-- A place before the brace at the head of `outside`, where `depth` of the braces are open that are closed up
to there. -/
structure Inside (outside : List Token) (depth : Nat) (rest : List Token) : Prop where
  closing : headKind outside = .symbol .rightBrace
  balanced : ∃ inside, rest = inside ++ outside ∧ openBraces? depth inside = some 0 ∧
    opensBlocks outside inside

/-- What is known behind a token inside of braces. -/
def Behind (kind : TokenKind) (rest : List Token) : Prop :=
  announcesArray kind → headKind rest ≠ .symbol .leftBrace

namespace Inside

/-- What a token inside of braces has to do with the tokens behind it. -/
structure Step (outside : List Token) (depth : Nat) (token : Token) (later : List Token) : Prop where
  ne_eof : token.kind ≠ .eof
  ne_switch : token.kind ≠ .keyword .switch
  ne_enum : token.kind ≠ .keyword .enum
  spans : spansBrace (token :: later) = false
  behind : Behind token.kind later
  opens : token.kind = .symbol .leftBrace → Inside outside (depth + 1) later
  closes : token.kind = .symbol .rightBrace → ∃ less, depth = less + 1 ∧ Inside outside less later
  stays : isBrace token.kind = false → Inside outside depth later

variable {outside rest : List Token} {depth : Nat}

/-- A place inside of braces is at the end of them or before a token inside. -/
theorem cases (h : Inside outside depth rest) :
    (depth = 0 ∧ rest = outside) ∨ ∃ token later, rest = token :: later ∧ Step outside depth token later := by
  obtain ⟨hclosing, inside, rfl, hopen, hblocks⟩ := h
  cases inside with
  | nil => exact .inl ⟨Option.some.inj hopen, rfl⟩
  | cons token inside =>
      refine .inr ⟨token, inside ++ outside, rfl, ?_⟩
      simp only [opensBlocks, Bool.and_eq_true, bne_iff_ne, ne_eq, Bool.not_eq_true'] at hblocks
      obtain ⟨⟨⟨⟨hswitch, henum⟩, harray⟩, hspans⟩, hblocks⟩ := hblocks
      rw [openBraces?] at hopen
      refine ⟨fun hkind => ?_, hswitch, henum, hspans, fun hannounces hbrace => ?_, fun hkind => ?_,
        fun hkind => ?_, fun hkind => ?_⟩
      · rw [hkind] at hopen
        cases hopen
      · cases inside with
        | nil =>
            rw [List.nil_append, hclosing] at hbrace
            cases hbrace
        | cons next inside =>
            have hnext : headKind (next :: inside) = .symbol .leftBrace := hbrace
            rw [hannounces, hnext] at harray
            cases harray
      · rw [hkind] at hopen
        exact ⟨hclosing, inside, rfl, hopen, hblocks⟩
      · rw [hkind] at hopen
        cases depth with
        | zero => cases hopen
        | succ depth => exact ⟨depth, rfl, hclosing, inside, rfl, hopen, hblocks⟩
      · refine ⟨hclosing, inside, rfl, ?_, hblocks⟩
        split at hopen
        case h_1 hopens =>
          rw [hopens] at hkind
          cases hkind
        case h_2 hcloses =>
          rw [hcloses] at hkind
          cases hkind
        case h_3 => cases hopen
        case h_4 => exact hopen

theorem kind_ne (h : Inside outside depth rest) :
    headKind rest ≠ .eof ∧ headKind rest ≠ .keyword .switch ∧ headKind rest ≠ .keyword .enum := by
  obtain ⟨-, rfl⟩ | ⟨token, later, rfl, hstep⟩ := h.cases
  · rw [h.closing]
    decide
  · exact ⟨hstep.ne_eof, hstep.ne_switch, hstep.ne_enum⟩

/-- Before a token that is not the brace which ends all. -/
theorem step {token : Token} {later : List Token} (h : Inside outside depth (token :: later))
    (hkind : token.kind ≠ .symbol .rightBrace) : Step outside depth token later := by
  obtain ⟨-, rfl⟩ | ⟨token', later', heq, hstep⟩ := h.cases
  · exact absurd h.closing hkind
  · obtain ⟨rfl, rfl⟩ := List.cons.inj heq
    exact hstep

/-- A token that is no brace leaves all braces open. -/
theorem pass {token : Token} {later : List Token} (h : Inside outside depth (token :: later))
    (hkind : isBrace token.kind = false) : Inside outside depth later :=
  (h.step fun hcloses => absurd (hcloses ▸ hkind) (by decide)).stays hkind

/-- A brace that opens is open behind it. -/
theorem enter {token : Token} {later : List Token} (h : Inside outside depth (token :: later))
    (hkind : token.kind = .symbol .leftBrace) : Inside outside (depth + 1) later :=
  (h.step (hkind ▸ by decide)).opens hkind

/-- A brace that closes one of several leaves the others open. -/
theorem close {token : Token} {later : List Token} (h : Inside outside (depth + 1) (token :: later))
    (hkind : token.kind = .symbol .rightBrace) : Inside outside depth later := by
  obtain ⟨hzero, -⟩ | ⟨token', later', heq, hstep⟩ := h.cases
  · exact absurd hzero (Nat.succ_ne_zero depth)
  · obtain ⟨rfl, rfl⟩ := List.cons.inj heq
    obtain ⟨less, hless, hinside⟩ := hstep.closes hkind
    rwa [Nat.succ.inj hless]

/-- The brace that closes the last open one ends all. -/
theorem eq_outside (h : Inside outside 0 rest) (hkind : headKind rest = .symbol .rightBrace) :
    rest = outside := by
  obtain ⟨-, rfl⟩ | ⟨token, later, rfl, hstep⟩ := h.cases
  · rfl
  · obtain ⟨less, hless, -⟩ := hstep.closes hkind
    exact absurd hless.symm (Nat.succ_ne_zero less)

end Inside

/-- A place inside of braces before one that opens. -/
abbrev Opening (outside : List Token) (depth : Nat) (rest : List Token) : Prop :=
  Inside outside depth rest ∧ headKind rest = .symbol .leftBrace

/-- A place inside of braces before one that closes. -/
abbrev Closing (outside : List Token) (depth : Nat) (rest : List Token) : Prop :=
  Inside outside depth rest ∧ headKind rest = .symbol .rightBrace

/-! ### What readers leave -/

variable {α β : Type}

/-- A bound was met, and its error kept. -/
def Spoiled (cursor : Cursor) : Prop :=
  ∃ error ∈ cursor.errors, error.fault = .tooDeep

theorem Spoiled.of_prefix {before after : Cursor} (h : Spoiled before)
    (herrors : before.errors <+: after.errors) : Spoiled after := by
  obtain ⟨error, hmem, hfault⟩ := h
  exact ⟨error, herrors.subset hmem, hfault⟩

/-- Of the tokens that a reader leaves one thing is known if it yields a value and another if it fails. -/
def Ensured (left : α → List Token → Prop) (failed : List Token → Prop) :
    EStateM.Result SyntaxError Cursor α → Prop
  | .ok value after => Spoiled after ∨ left value after.rest
  | .error error after => error.fault = .tooDeep ∨ Spoiled after ∨ failed after.rest

/-- Where something is known of the tokens ahead, something is known of those that a reader leaves. -/
def Ensures (known : List Token → Prop) (left : α → List Token → Prop) (failed : List Token → Prop)
    (reader : Reader α) : Prop :=
  ∀ cursor : Cursor, Spoiled cursor ∨ known cursor.rest → Ensured left failed (reader.run cursor)

/-- What is known behind a step of a loop: that the loop goes on from a value, or that it ends. -/
def afterStep (known left : α → List Token → Prop) (value : α) : Option α → List Token → Prop
  | some next => known next
  | none => left value

section Combinators

variable {known known' failed failed' : List Token → Prop} {left left' mid : α → List Token → Prop}
  {last : β → List Token → Prop} {reader : Reader α} {next : α → Reader β}

namespace Ensures

theorem weaken (h : Ensures known left failed reader) (hknown : ∀ rest, known' rest → known rest)
    (hleft : ∀ value rest, left value rest → left' value rest) : Ensures known' left' failed reader := by
  intro cursor hcursor
  have houtcome := h cursor (hcursor.imp_right (hknown _))
  cases hrun : reader.run cursor with
  | ok value after =>
      rw [hrun] at houtcome
      exact Or.imp_right (hleft value _) houtcome
  | error error after =>
      rw [hrun] at houtcome
      exact houtcome

theorem bind (h : Ensures known mid failed reader)
    (hnext : ∀ value, Ensures (mid value) last failed (next value)) :
    Ensures known last failed (reader >>= next) := by
  intro cursor hcursor
  have houtcome := h cursor hcursor
  rw [EStateM.run_bind]
  cases hrun : reader.run cursor with
  | ok value after =>
      rw [hrun] at houtcome
      exact hnext value after houtcome
  | error error after =>
      rw [hrun] at houtcome
      exact houtcome

theorem pure {value : α} (h : ∀ rest, known rest → left value rest) :
    Ensures known left failed (Pure.pure value) :=
  fun _ hcursor => hcursor.imp_right (h _)

theorem throw (error : SyntaxError) (h : ∀ rest, known rest → failed rest) :
    Ensures known left failed (MonadExcept.throw error : Reader α) :=
  fun _ hcursor => .inr (hcursor.imp_right (h _))

theorem ite {condition : Prop} [Decidable condition] {first second : Reader α}
    (hfirst : condition → Ensures known left failed first)
    (hsecond : ¬condition → Ensures known left failed second) :
    Ensures known left failed (if condition then first else second) := by
  split
  · next h => exact hfirst h
  · next h => exact hsecond h

/-- The next token is consumed. -/
theorem advance {later : List Token → Prop} (hend : ∀ rest, known rest → headKind rest ≠ .eof)
    (hlater : ∀ token rest, known (token :: rest) → later rest) :
    Ensures known (fun _ => later) failed advance := by
  rintro cursor (hspoiled | hknown)
  · exact .inl (hspoiled.of_prefix (Forward.advance cursor).errors)
  · have hkind := hend _ hknown
    cases hrest : cursor.rest with
    | nil => exact absurd (by rw [hrest]; rfl) hkind
    | cons token rest =>
        rw [hrest] at hkind hknown
        have hadvance : cursor.advance = { cursor with rest, lastEnd := token.span.stop } := by
          rw [Cursor.advance, hrest]
          exact if_neg hkind
        refine .inr ?_
        rw [hadvance]
        exact hlater token rest hknown

/-- A reader that fails only by a bound fails with whatever is asked for. -/
theorem of_failsOnlyDeep (h : Ensures known left failed reader) (hdeep : FailsOnlyDeep reader) :
    Ensures known left failed' reader := by
  intro cursor hcursor
  have houtcome := h cursor hcursor
  cases hrun : reader.run cursor with
  | ok value after =>
      rw [hrun] at houtcome
      exact houtcome
  | error error after => exact .inl (hdeep cursor error after hrun)

/-- Where nothing can be known of the tokens ahead, it is enough that errors are only added. -/
theorem of_not {level : Nat} (h : Passes none level reader) (hknown : ∀ rest, ¬known rest) :
    Ensures known left failed reader := by
  intro cursor hcursor
  have hspoiled := hcursor.resolve_right (hknown _)
  have houtcome := @h Anywhere ⟨level, 0⟩ (Nat.le_refl _) cursor trivial (suffices_none _)
  cases hrun : reader.run cursor with
  | ok value after =>
      rw [hrun] at houtcome
      exact .inl (hspoiled.of_prefix (Accounts.forward houtcome).errors)
  | error error after =>
      rw [hrun] at houtcome
      exact .inr (.inl (hspoiled.of_prefix houtcome.2.forward.errors))

/-- An error that is kept leaves the tokens where they are, and spoils the rest if it tells of a bound. -/
theorem recover {outcome : Except SyntaxError α → Reader β} {recovery : SyntaxError → Bool → Reader β}
    (h : Ensures known mid failed reader)
    (hok : ∀ value, Ensures (mid value) last failed' (outcome (.ok value)))
    (herror : ∀ error, outcome (.error error) = recordError error >>= recovery error)
    (hrecovery : ∀ error more, Ensures failed last failed' (recovery error more)) :
    Ensures known last failed' (attempt reader >>= outcome) := by
  intro cursor hcursor
  have houtcome := h cursor hcursor
  rw [EStateM.run_bind, run_attempt]
  cases hrun : reader.run cursor with
  | ok value after =>
      rw [hrun] at houtcome
      exact hok value after houtcome
  | error error after =>
      rw [hrun] at houtcome
      let kept : Cursor := { after with errors := after.errors ++ [error] }
      have hkept : Spoiled kept ∨ failed kept.rest := by
        rcases houtcome with hdeep | hspoiled | hfailed
        · exact .inl ⟨error, List.mem_append_right _ (List.mem_singleton_self _), hdeep⟩
        · exact .inl (hspoiled.of_prefix (List.prefix_append _ _))
        · exact .inr hfailed
      dsimp only
      rw [herror]
      exact hrecovery error _ kept hkept

theorem withLambdas (allowed restored : Bool) (h : Ensures known left failed reader) :
    Ensures known left failed (withLambdas allowed restored reader) := by
  intro cursor hcursor
  have houtcome := h { cursor with lambdas := allowed } hcursor
  rw [run_withLambdas]
  cases hrun : reader.run { cursor with lambdas := allowed } with
  | ok value after =>
      rw [hrun] at houtcome
      exact houtcome
  | error error after =>
      rw [hrun] at houtcome
      exact houtcome

/-- What every step of a loop keeps is known as long as the loop runs. -/
theorem iterate {known left : α → List Token → Prop} {step : α → Reader (Option α)}
    (hstep : ∀ value, Ensures (known value) (afterStep known left value) failed (step value)) (value : α) :
    Ensures (known value) left failed (iterate step value) := by
  intro cursor hcursor
  have hloop : (Grammar.iterate step value).run cursor =
      (iterateUpTo step (cursor.rest.length + 1) value).run cursor := rfl
  rw [hloop]
  generalize cursor.rest.length + 1 = bound
  induction bound generalizing value cursor with
  | zero => exact .inl rfl
  | succ bound ih =>
      have houtcome := hstep value cursor hcursor
      rw [iterateUpTo, EStateM.run_bind]
      cases hrun : (step value).run cursor with
      | error error after =>
          rw [hrun] at houtcome
          exact houtcome
      | ok next after =>
          rw [hrun] at houtcome
          cases next with
          | some next => exact ih next after houtcome rfl
          | none => exact houtcome

end Ensures

theorem Looks.ensures {shows : List Token → α → Prop} (h : Looks shows reader)
    (hnext : ∀ value, Ensures (fun rest => known rest ∧ shows rest value) last failed (next value)) :
    Ensures known last failed (reader >>= next) := by
  intro cursor hcursor
  obtain ⟨value, hrun, hshows⟩ := h cursor
  rw [EStateM.run_bind, hrun]
  exact hnext value cursor (hcursor.imp_right fun hknown => ⟨hknown, hshows⟩)

/-- What is seen is what is known to be there. -/
theorem Looks.ensures_at {shows : List Token → α → Prop} {shown : α} {level : Nat} (h : Looks shows reader)
    (hshown : ∀ rest value, known rest → shows rest value → value = shown)
    (hpasses : Passes none level (reader >>= next)) (hnext : Ensures known last failed (next shown)) :
    Ensures known last failed (reader >>= next) := by
  rintro cursor (hspoiled | hknown)
  · exact Ensures.of_not hpasses (fun _ => id) cursor (.inl hspoiled)
  · obtain ⟨value, hrun, hshows⟩ := h cursor
    obtain rfl := hshown _ _ hknown hshows
    rw [EStateM.run_bind, hrun]
    exact hnext cursor (.inr hknown)

/-- A token that is known to be the expected one is consumed. -/
theorem Expects.ensures {kind : TokenKind} {later : List Token → Prop} (h : Expects kind reader)
    (hkind : kind ≠ .eof) (hknown : ∀ rest, known rest → headKind rest = kind)
    (hlater : ∀ token rest, known (token :: rest) → later rest) :
    Ensures known (fun _ => later) failed reader := by
  intro cursor hcursor
  by_cases hhead : headKind cursor.rest = kind
  · obtain ⟨value, hrun⟩ := (h cursor).1 hhead
    rw [hrun]
    have hadvance : Ensures known (fun _ => later) failed advance :=
      .advance (fun rest hrest => hknown rest hrest ▸ hkind) hlater
    exact hadvance cursor hcursor
  · obtain ⟨error, -, hrun⟩ := (h cursor).2 hhead
    rw [hrun]
    exact .inr (.inl (hcursor.resolve_right fun hrest => hhead (hknown _ hrest)))

end Combinators

/-! ### Readers inside of braces -/

/-- Inside of braces, a reader leaves as many of them open as there were, whether it fails or not. -/
def Keeps (outside : List Token) (depth : Nat) (known : List Token → Prop) (left : α → List Token → Prop)
    (reader : Reader α) : Prop :=
  Ensures (fun rest => Inside outside depth rest ∧ known rest)
    (fun value rest => Inside outside depth rest ∧ left value rest) (Inside outside depth) reader

/-- A reader that leaves as many braces open wherever it begins. -/
abbrev Level (outside : List Token) (depth : Nat) (reader : Reader α) : Prop :=
  Keeps outside depth Anywhere (fun _ => Anywhere) reader

/-- No brace lies ahead. -/
def Clear (rest : List Token) : Prop :=
  isBrace (headKind rest) = false

theorem Behind.of_exists {kind : TokenKind} {later : List Token}
    (h : ∃ token, headKind (token :: later) = kind ∧ Behind token.kind later) : Behind kind later := by
  obtain ⟨token, rfl, hbehind⟩ := h
  exact hbehind

theorem clear_of_kind {kind : TokenKind} (hkind : isBrace kind = false) {rest : List Token}
    (h : headKind rest = kind) : Clear rest := by
  rwa [Clear, h]

section Inside

variable {outside : List Token} {depth levels : Nat} {known known' : List Token → Prop}
  {left mid : α → List Token → Prop} {last : β → List Token → Prop} {reader : Reader α}
  {next : α → Reader β} {kind : TokenKind}

namespace Keeps

theorem weaken {left' : α → List Token → Prop} (h : Keeps outside depth known left reader)
    (hknown : ∀ rest, known' rest → known rest) (hleft : ∀ value rest, left value rest → left' value rest) :
    Keeps outside depth known' left' reader :=
  Ensures.weaken h (fun rest => And.imp_right (hknown rest)) fun value rest =>
    And.imp_right (hleft value rest)

/-- What is known may be forgotten. -/
theorem anywhere (h : Level outside depth reader) : Keeps outside depth known (fun _ => Anywhere) reader :=
  h.weaken (fun _ _ => trivial) fun _ _ => id

theorem bind (h : Keeps outside depth known mid reader)
    (hnext : ∀ value, Keeps outside depth (mid value) last (next value)) :
    Keeps outside depth known last (reader >>= next) :=
  Ensures.bind h hnext

theorem pure {value : α} (h : ∀ rest, known rest → left value rest) :
    Keeps outside depth known left (Pure.pure value) :=
  Ensures.pure fun rest => And.imp_right (h rest)

theorem done {value : α} : Keeps outside depth known (fun _ => Anywhere) (Pure.pure value) :=
  .pure fun _ _ => trivial

theorem throw (error : SyntaxError) : Keeps outside depth known left (MonadExcept.throw error : Reader α) :=
  Ensures.throw error fun _ => And.left

theorem ite {condition : Prop} [Decidable condition] {first second : Reader α}
    (hfirst : condition → Keeps outside depth known left first)
    (hsecond : ¬condition → Keeps outside depth known left second) :
    Keeps outside depth known left (if condition then first else second) :=
  Ensures.ite hfirst hsecond

theorem map {transform : α → β} (h : Keeps outside depth known (fun _ => Anywhere) reader) :
    Keeps outside depth known (fun _ => Anywhere) (transform <$> reader) := by
  rw [map_eq_pure_bind]
  exact h.bind fun _ => .done

/-- Where nothing is known that can be, there is nothing to keep. -/
theorem of_not (h : Passes none levels reader) (hknown : ∀ rest, Inside outside depth rest → ¬known rest) :
    Keeps outside depth known left reader :=
  Ensures.of_not h fun rest hrest => hknown rest hrest.1 hrest.2

/-- A token that is no brace is consumed. -/
theorem advance (hclear : ∀ rest, known rest → Clear rest) :
    Keeps outside depth known
      (fun _ later => ∃ token, known (token :: later) ∧ Behind token.kind later) advance := by
  refine Ensures.advance (fun rest hrest => hrest.1.kind_ne.1) fun token later hrest => ?_
  have hkind : isBrace token.kind = false := hclear _ hrest.2
  have hstep := hrest.1.step fun hclosing => by
    rw [hclosing] at hkind
    cases hkind
  exact ⟨hstep.stays hkind, token, hrest.2, hstep.behind⟩

/-- Behind a token that is no brace. -/
theorem pass {next : Unit → Reader β} (hclear : ∀ rest, known rest → Clear rest)
    (hnext : Keeps outside depth Anywhere last (next ())) :
    Keeps outside depth known last (Grammar.advance >>= next) :=
  (Keeps.advance hclear).bind fun _ => hnext.weaken (fun _ _ => trivial) fun _ _ => id

end Keeps

/-- A reader that leaves as many braces open comes before another one. -/
theorem Level.first (h : Level outside depth reader)
    (hnext : ∀ value, Keeps outside depth Anywhere last (next value)) :
    Keeps outside depth known last (reader >>= next) :=
  Keeps.bind (Keeps.anywhere h) hnext

theorem Level.readWhen (h : Level outside depth reader) (found : Bool) :
    Level outside depth (readWhen found reader) := by
  cases found with
  | true => exact h.map
  | false => exact .done

namespace Looks

variable {shows : List Token → α → Prop}

/-- What is seen is known besides. -/
theorem seeing (h : Looks shows reader)
    (hnext : ∀ value, Keeps outside depth (fun rest => known rest ∧ shows rest value) last (next value)) :
    Keeps outside depth known last (reader >>= next) :=
  h.ensures fun value => Ensures.weaken (hnext value) (fun _ hrest => ⟨hrest.1.1, hrest.1.2, hrest.2⟩)
    fun _ _ => id

/-- What is seen is all that is known. -/
theorem finding (h : Looks shows reader)
    (hnext : ∀ value, Keeps outside depth (shows · value) last (next value)) :
    Keeps outside depth known last (reader >>= next) :=
  h.seeing fun value => (hnext value).weaken (fun _ => And.right) fun _ _ => id

/-- What is seen does not matter. -/
theorem passing (h : Looks shows reader) (hnext : ∀ value, Keeps outside depth known last (next value)) :
    Keeps outside depth known last (reader >>= next) :=
  h.seeing fun value => (hnext value).weaken (fun _ => And.left) fun _ _ => id

end Looks

namespace Accepts

variable {reader : Reader Bool} {next : Bool → Reader β}

/-- Either a token that is no brace is consumed, or the reader stays where it is. -/
theorem branching (h : Accepts kind reader) (hkind : isBrace kind = false)
    (hfound : Keeps outside depth (Behind kind) last (next true))
    (hnot : Keeps outside depth (fun rest => known rest ∧ headKind rest ≠ kind) last (next false)) :
    Keeps outside depth known last (reader >>= next) := by
  intro cursor hcursor
  rw [EStateM.run_bind, h cursor]
  by_cases hhead : headKind cursor.rest = kind
  · rw [if_pos hhead]
    have hbefore : Spoiled cursor ∨ Inside outside depth cursor.rest ∧ headKind cursor.rest = kind :=
      hcursor.imp_right fun hrest => ⟨hrest.1, hhead⟩
    have hbehind := Keeps.advance (fun _ => clear_of_kind hkind) cursor hbefore
    exact hfound cursor.advance (hbehind.imp_right (And.imp_right (Behind.of_exists)))
  · rw [if_neg hhead]
    exact hnot cursor (hcursor.imp_right fun hrest => ⟨hrest.1, hrest.2, hhead⟩)

theorem level (h : Accepts kind reader) (hkind : isBrace kind = false) : Level outside depth reader := by
  rw [← bind_pure reader]
  exact h.branching hkind (.pure fun _ _ => trivial) (.pure fun _ _ => trivial)

end Accepts

namespace Expects

/-- A token that is expected and is no brace is consumed. -/
theorem keeps (h : Expects kind reader) (hkind : isBrace kind = false) :
    Keeps outside depth known
      (fun _ later => ∃ token, token.kind = kind ∧ known (token :: later) ∧ Behind kind later) reader := by
  intro cursor hcursor
  by_cases hhead : headKind cursor.rest = kind
  · obtain ⟨value, hrun⟩ := (h cursor).1 hhead
    rw [hrun]
    have hclear : ∀ rest, known rest ∧ headKind rest = kind → Clear rest :=
      fun _ hrest => clear_of_kind hkind hrest.2
    have hbehind := Keeps.advance hclear cursor (hcursor.imp_right fun hrest => ⟨hrest.1, hrest.2, hhead⟩)
    refine hbehind.imp_right (And.imp_right ?_)
    rintro ⟨token, ⟨hknown, rfl⟩, hlater⟩
    exact ⟨token, rfl, hknown, hlater⟩
  · obtain ⟨error, -, hrun⟩ := (h cursor).2 hhead
    rw [hrun]
    exact .inr (hcursor.imp_right And.left)

theorem behind (h : Expects kind reader) (hkind : isBrace kind = false) :
    Keeps outside depth known (fun _ => Behind kind) reader :=
  (h.keeps hkind).weaken (fun _ => id) fun _ _ hlater => hlater.elim fun _ h => h.2.2

theorem level (h : Expects kind reader) (hkind : isBrace kind = false) : Level outside depth reader :=
  (h.keeps hkind).weaken (fun _ => id) fun _ _ _ => trivial

end Expects

/-! ### Basic readers -/

theorem level_expectSymbol (sign : Symbol) (hsign : isBrace (.symbol sign) = false) :
    Level outside depth (expectSymbol sign) :=
  (expects_expectSymbol sign).level hsign

theorem level_expectKeyword (word : Keyword) : Level outside depth (expectKeyword word) :=
  (expects_expectKeyword word).level rfl

theorem level_acceptSymbol (sign : Symbol) (hsign : isBrace (.symbol sign) = false) :
    Level outside depth (acceptSymbol sign) :=
  (accepts_acceptSymbol sign).level hsign

theorem level_acceptKeyword (word : Keyword) : Level outside depth (acceptKeyword word) :=
  (accepts_acceptKeyword word).level rfl

theorem keeps_failExpected (expected : Expectation) :
    Keeps outside depth known left (failExpected expected : Reader α) :=
  looks_get.passing fun _ => .throw _

theorem keeps_expectName :
    Keeps outside depth known (fun _ later => ∃ token, known (token :: later)) expectName := by
  refine looks_currentKind.seeing fun kind => ?_
  split
  · refine (Keeps.advance fun _ hrest => clear_of_kind rfl hrest.2).bind fun _ => .pure fun _ hrest => ?_
    exact hrest.imp fun _ h => h.1.1
  · exact keeps_failExpected _

theorem level_expectName : Level outside depth expectName :=
  keeps_expectName.weaken (fun _ => id) fun _ _ _ => trivial

theorem level_freshId : Level outside depth freshId :=
  fun _ hcursor => hcursor

theorem level_mkExpr (kind : ExprKind) (start : Nat) : Level outside depth (mkExpr kind start) :=
  level_freshId.first fun _ => (looks_spanFrom start).passing fun _ => .done

theorem level_mkStmt (kind : StmtKind) (start : Nat) : Level outside depth (mkStmt kind start) :=
  level_freshId.first fun _ => (looks_spanFrom start).passing fun _ => .done

theorem level_mkMember (kind : MemberKind) (start : Nat) : Level outside depth (mkMember kind start) :=
  level_freshId.first fun _ => (looks_spanFrom start).passing fun _ => .done

/-! ### Loops -/

/-- What every step of a loop keeps is known behind the loop. -/
theorem Keeps.iterate {step : α → Reader (Option α)}
    (hstep : ∀ value, Keeps outside depth known (fun _ => known) (step value)) (value : α) :
    Keeps outside depth known (fun _ => known) (Grammar.iterate step value) := by
  have hloop (value : α) : Ensures (fun rest => Inside outside depth rest ∧ known rest)
      (afterStep (fun _ rest => Inside outside depth rest ∧ known rest)
        (fun _ rest => Inside outside depth rest ∧ known rest) value)
      (Inside outside depth) (step value) := by
    refine Ensures.weaken (hstep value) (fun _ => id) fun next rest h => ?_
    cases next <;> exact h
  exact Ensures.iterate hloop value

theorem Keeps.collect {step : Reader (Option α)} (h : Keeps outside depth known (fun _ => known) step) :
    Keeps outside depth known (fun _ => known) (Grammar.collect step) := by
  refine (Keeps.iterate (fun values => h.bind fun value => ?_) []).bind fun values => .pure fun _ => id
  cases value <;> exact .pure fun _ => id

theorem Level.collect {step : Reader (Option α)} (h : Level outside depth step) :
    Level outside depth (Grammar.collect step) :=
  Keeps.collect h

theorem Level.separated (separator : Symbol) (hsign : isBrace (.symbol separator) = false) {item : Reader α}
    (h : Level outside depth item) : Level outside depth (Grammar.separated separator item) := by
  have hothers : Level outside depth (Grammar.collect do
      if ← acceptSymbol separator then return some (← item) else return none) :=
    .collect <| (level_acceptSymbol separator hsign).first fun found =>
      .ite (fun _ => h.first fun _ => .done) fun _ => .done
  exact h.first fun first => hothers.first fun others => .done

theorem Level.enumerated (close separator : Symbol) (hsign : isBrace (.symbol separator) = false)
    {item : Reader α} (h : Level outside depth item) :
    Level outside depth (Grammar.enumerated close separator item) := by
  refine Level.first (Keeps.iterate (fun scan => ?_) _) fun scan => .done
  refine (looks_atSymbol close).passing fun closing => looks_atEnd.passing fun ended =>
    .ite (fun _ => .done) fun _ => ?_
  exact h.first fun value => (level_acceptSymbol separator hsign).first fun more => .done

theorem Keeps.withLambdas (allowed restored : Bool) (h : Keeps outside depth known left reader) :
    Keeps outside depth known left (withLambdas allowed restored reader) :=
  Ensures.withLambdas allowed restored h

end Inside

end LockDiscipline.Grammar
