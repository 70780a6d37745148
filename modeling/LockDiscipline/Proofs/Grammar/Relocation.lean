import LockDiscipline.Proofs.Grammar.Laying
import LockDiscipline.Proofs.Tree.Retouch
/-!
# Reading tokens that stand elsewhere

What is read depends on the kinds of the tokens and not on where they stand, but for one thing: two angle
brackets that close are a shift only if they are adjacent. `Grammar.Relocates` says of two readers that they go
along with a map of positions that keeps to this: from relocated tokens the second one reads the relocated
value that the first one reads from the tokens, leaves the same tokens behind, and fails where the first one
fails with the relocated error. Most readers are compared with themselves; the second reader is another one
where it is given a tree or a position that was read before. Starts and ends of tokens are moved by two maps,
for one token may end where the next one starts and come apart from it.
-/

namespace LockDiscipline

/-- New positions for the starts of tokens and for their ends. -/
structure Relocation where
  start : Nat → Nat
  stop : Nat → Nat

/-- A span between the new positions of its ends. -/
def Span.relocate (move : Relocation) (span : Span) : Span :=
  ⟨move.start span.start, move.stop span.stop⟩

/-- A tree with all its spans relocated. -/
def Retouch.relocate (move : Relocation) : Retouch where
  span := Span.relocate move
  keywords _ keywords := keywords

instance Retouch.keepsNames_relocate (move : Relocation) : (relocate move).KeepsNames :=
  ⟨fun _ _ => rfl⟩

@[simp] theorem Retouch.span_relocate (move : Relocation) (span : Span) :
    (Retouch.relocate move).span span = span.relocate move := rfl

@[simp] theorem Retouch.keywords_relocate (move : Relocation) (id : NodeId) (keywords : List Keyword) :
    (Retouch.relocate move).keywords id keywords = keywords := rfl

/-- A token at its new position. -/
def Token.relocate (move : Relocation) (token : Token) : Token :=
  { token with span := token.span.relocate move }

@[simp] theorem Token.kind_relocate (move : Relocation) (token : Token) :
    (token.relocate move).kind = token.kind := rfl

@[simp] theorem Token.span_relocate (move : Relocation) (token : Token) :
    (token.relocate move).span = token.span.relocate move := rfl

/-- An error at its new position. -/
def SyntaxError.relocate (move : Relocation) (error : SyntaxError) : SyntaxError :=
  { error with span := error.span.relocate move }

/-- A range that starts where a token starts and ends where a token ends. -/
structure Span.Placed (tokens : List Token) (span : Span) : Prop where
  start : ∃ token ∈ tokens, token.span.start = span.start
  stop : ∃ token ∈ tokens, token.span.stop = span.stop

theorem Span.Placed.of_mem {tokens : List Token} {token : Token} (h : token ∈ tokens) :
    token.span.Placed tokens :=
  ⟨⟨token, h, rfl⟩, token, h, rfl⟩

theorem Span.Covers.placed {tokens : List Token} {span : Span} (h : span.Covers tokens) :
    span.Placed tokens := by
  obtain ⟨first, hfirst, -, hstart⟩ := h.start
  obtain ⟨last, hlast, -, hstop⟩ := h.stop
  exact ⟨⟨first, hfirst, hstart⟩, last, hlast, hstop⟩

namespace Grammar

/-- A cursor in relocated tokens. -/
def Cursor.relocate (move : Relocation) (cursor : Cursor) : Cursor :=
  { cursor with
    rest := cursor.rest.map (·.relocate move)
    lastEnd := move.stop cursor.lastEnd
    errors := cursor.errors.map (·.relocate move) }

/-- Neither do angle brackets that are adjacent come apart nor others together. -/
def Faithful (move : Relocation) (tokens : List Token) : Prop :=
  tokens.IsChain fun first second => first.kind = .symbol .greater → second.kind = .symbol .greater →
    (move.stop first.span.stop = move.start second.span.start ↔ first.span.stop = second.span.start)

theorem Faithful.tail {move : Relocation} {token : Token} {rest : List Token}
    (h : Faithful move (token :: rest)) : Faithful move rest :=
  List.IsChain.of_cons h

variable {tokens : List Token} {move : Relocation}

/-! ### Tokens that lie ahead -/

@[simp] theorem headKind_relocate (tokens : List Token) :
    headKind (tokens.map (·.relocate move)) = headKind tokens := by
  cases tokens <;> rfl

@[simp] theorem kindAt_relocate (count : Nat) (tokens : List Token) :
    kindAt count (tokens.map (·.relocate move)) = kindAt count tokens := by
  rw [kindAt, ← List.map_drop, headKind_relocate, kindAt]

@[simp] theorem scanTypeArgs_relocate (depth : Nat) (tokens : List Token) :
    scanTypeArgs depth (tokens.map (·.relocate move)) =
      (scanTypeArgs depth tokens).map (List.map (·.relocate move)) := by
  induction tokens generalizing depth with
  | nil => rfl
  | cons token rest ih =>
      simp only [List.map_cons, scanTypeArgs, Token.kind_relocate, ih]
      by_cases hless : token.kind = .symbol .less
      · rw [if_pos hless, if_pos hless]
      · rw [if_neg hless, if_neg hless]
        by_cases hgreater : token.kind = .symbol .greater
        · rw [if_pos hgreater, if_pos hgreater]
          split <;> rfl
        · rw [if_neg hgreater, if_neg hgreater]
          split <;> rfl

@[simp] theorem scanDims_relocate (tokens : List Token) :
    scanDims (tokens.map (·.relocate move)) = (scanDims tokens).map (·.relocate move) := by
  fun_induction scanDims tokens with
  | case1 first second rest hkinds ih =>
      simp only [List.map_cons, scanDims, Token.kind_relocate, if_pos hkinds, ih]
  | case2 first second rest hkinds =>
      rw [List.map_cons, List.map_cons, scanDims]
      exact if_neg hkinds
  | case3 tokens hshort =>
      match tokens with
      | [] => rfl
      | [token] => rfl
      | first :: second :: rest => exact absurd rfl (hshort first second rest)

@[simp] theorem scanTypeSegments_relocate (bound : Nat) (tokens : List Token) :
    scanTypeSegments bound (tokens.map (·.relocate move)) =
      (scanTypeSegments bound tokens).map (List.map (·.relocate move)) := by
  induction bound generalizing tokens with
  | zero => rfl
  | succ bound ih =>
      cases tokens with
      | nil => rfl
      | cons token rest =>
          have hargs : (if headKind rest = .symbol .less then
                scanTypeArgs 0 (rest.map (·.relocate move)) else some (rest.map (·.relocate move))) =
              (if headKind rest = .symbol .less then scanTypeArgs 0 rest else some rest).map
                (List.map (·.relocate move)) := by
            split
            · exact scanTypeArgs_relocate 0 rest
            · rfl
          simp only [List.map_cons, scanTypeSegments, headKind_relocate, hargs, Token.kind_relocate]
          by_cases hident : token.kind.isIdent
          · rw [if_pos hident, if_pos hident]
            cases (if headKind rest = .symbol .less then scanTypeArgs 0 rest else some rest) with
            | none => rfl
            | some after =>
                simp only [Option.map_some, headKind_relocate, kindAt_relocate, ← List.map_drop, ih]
                split <;> rfl
          · rw [if_neg hident, if_neg hident]
            rfl

@[simp] theorem scanType_relocate (tokens : List Token) :
    scanType (tokens.map (·.relocate move)) = (scanType tokens).map (List.map (·.relocate move)) := by
  simp only [scanType, List.length_map, scanTypeSegments_relocate, Option.map_map]
  congr 1
  funext after
  exact scanDims_relocate after

@[simp] theorem looksLikeLocalDecl_relocate (tokens : List Token) :
    looksLikeLocalDecl (tokens.map (·.relocate move)) = looksLikeLocalDecl tokens := by
  simp only [looksLikeLocalDecl, scanType_relocate]
  cases scanType tokens with
  | none => rfl
  | some rest => simp only [Option.map_some, headKind_relocate, kindAt_relocate]

@[simp] theorem scanBounds_relocate (bound : Nat) (tokens : List Token) :
    scanBounds bound (tokens.map (·.relocate move)) =
      (scanBounds bound tokens).map (List.map (·.relocate move)) := by
  induction bound generalizing tokens with
  | zero => rfl
  | succ bound ih =>
      simp only [scanBounds, headKind_relocate, ← List.map_drop, scanType_relocate]
      split
      · cases scanType (tokens.drop 1) with
        | none => rfl
        | some rest => exact ih rest
      · rfl

@[simp] theorem looksLikeCast_relocate (tokens : List Token) :
    looksLikeCast (tokens.map (·.relocate move)) = looksLikeCast tokens := by
  simp only [looksLikeCast, ← List.map_drop, headKind_relocate, scanType_relocate, List.length_map]
  cases scanType (tokens.drop 1) with
  | none => rfl
  | some rest =>
      simp only [Option.map_some, Option.bind_some, scanBounds_relocate]
      cases scanBounds ((tokens.drop 1).length + 1) rest with
      | none => rfl
      | some after => simp only [Option.map_some, headKind_relocate, kindAt_relocate]

@[simp] theorem arrowFollows_relocate (depth : Nat) (tokens : List Token) :
    arrowFollows depth (tokens.map (·.relocate move)) = arrowFollows depth tokens := by
  induction tokens generalizing depth with
  | nil => rfl
  | cons token rest ih =>
      simp only [List.map_cons, arrowFollows, Token.kind_relocate, headKind_relocate, ih]

@[simp] theorem looksLikeLambda_relocate (tokens : List Token) :
    looksLikeLambda (tokens.map (·.relocate move)) = looksLikeLambda tokens :=
  arrowFollows_relocate 0 tokens

theorem adjacentBrackets_relocate {tokens : List Token} (h : Faithful move tokens) :
    adjacentBrackets (tokens.map (·.relocate move)) = adjacentBrackets tokens := by
  induction tokens with
  | nil => rfl
  | cons first rest ih =>
      have hrest := ih h.tail
      cases rest with
      | nil => rfl
      | cons second rest =>
          have hpair := (List.isChain_cons_cons.mp h).1
          simp only [List.map_cons, adjacentBrackets, Token.kind_relocate, Token.span_relocate,
            Span.relocate] at hrest ⊢
          by_cases hfirst : first.kind = .symbol .greater
          · by_cases hsecond : second.kind = .symbol .greater
            · simp only [hfirst, hsecond, hpair hfirst hsecond, true_and, if_true] at hrest ⊢
              rw [hrest]
            · simp only [hfirst, hsecond, false_and, if_false, if_true]
          · simp only [hfirst, if_false]

theorem binaryOperator?_relocate {tokens : List Token} (h : Faithful move tokens) :
    binaryOperator? (tokens.map (·.relocate move)) = binaryOperator? tokens := by
  simp only [binaryOperator?, headKind_relocate, adjacentBrackets_relocate h]

/-! ### Cursors -/

/-- A cursor that may be come to in tokens that go along with a relocation: the end of the file lies ahead, and
the errors kept are at tokens. -/
structure Reached (tokens : List Token) (move : Relocation) (cursor : Cursor) : Prop where
  forward : Forward (.start tokens) cursor
  ended : ∃ token ∈ cursor.rest, token.kind = .eof
  faithful : Faithful move cursor.rest
  errors : ∀ error ∈ cursor.errors, error.span.Placed tokens

namespace Reached

variable {cursor : Cursor} (h : Reached tokens move cursor)
include h

theorem mem_of_rest {token : Token} (htoken : token ∈ cursor.rest) : token ∈ tokens := by
  obtain ⟨read, hread, -⟩ := h.forward.read
  have htokens : tokens = read ++ cursor.rest := hread
  rw [htokens]
  exact List.mem_append_right _ htoken

theorem exists_rest : ∃ rest, cursor.rest = cursor.current :: rest := by
  obtain ⟨token, htoken, -⟩ := h.ended
  obtain ⟨first, rest, hrest⟩ := List.exists_cons_of_ne_nil (List.ne_nil_of_mem htoken)
  exact ⟨rest, by rw [Cursor.current, hrest]; rfl⟩

theorem placed_current : cursor.current.span.Placed tokens := by
  obtain ⟨rest, hrest⟩ := h.exists_rest
  exact .of_mem (h.mem_of_rest (by rw [hrest]; exact List.mem_cons_self))

theorem current_relocate : (cursor.relocate move).current = cursor.current.relocate move := by
  obtain ⟨rest, hrest⟩ := h.exists_rest
  simp only [Cursor.relocate, Cursor.current] at hrest ⊢
  rw [hrest]
  rfl

theorem advance : Reached tokens move cursor.advance := by
  have hforward := h.forward.trans (Forward.advance cursor)
  obtain ⟨rest, hrest⟩ := h.exists_rest
  obtain ⟨last, hlast, hkind⟩ := h.ended
  have hfaithful := h.faithful
  rw [Cursor.advance, hrest] at hforward ⊢
  dsimp only at hforward ⊢
  split at hforward
  · next heof => rwa [if_pos heof]
  · next heof =>
      rw [if_neg heof]
      rw [hrest] at hlast hfaithful
      refine ⟨hforward, ⟨last, ?_, hkind⟩, hfaithful.tail, h.errors⟩
      exact (List.mem_cons.mp hlast).resolve_left fun heq => heof (heq ▸ hkind)

/-- A cursor at the same tokens is reached as well. -/
theorem of_rest_eq {after : Cursor} (hrest : after.rest = cursor.rest) (hend : after.lastEnd = cursor.lastEnd)
    (herrors : after.errors = cursor.errors) : Reached tokens move after where
  forward := h.forward.trans (.of_rest_eq hrest hend (herrors ▸ List.prefix_refl _))
  ended := hrest ▸ h.ended
  faithful := hrest ▸ h.faithful
  errors := herrors ▸ h.errors

/-- An error at tokens may be kept. -/
theorem record {error : SyntaxError} (herror : error.span.Placed tokens) :
    Reached tokens move { cursor with errors := cursor.errors ++ [error] } where
  forward := h.forward.trans (.of_rest_eq rfl rfl (List.prefix_append _ _))
  ended := h.ended
  faithful := h.faithful
  errors kept hkept := (List.mem_append.mp hkept).elim (h.errors kept) fun hlast =>
    List.mem_singleton.mp hlast ▸ herror

end Reached

theorem Cursor.advance_relocate (cursor : Cursor) :
    (cursor.relocate move).advance = cursor.advance.relocate move := by
  obtain ⟨rest, lastEnd, lambdas, errors, nextId⟩ := cursor
  cases rest with
  | nil => rfl
  | cons token rest =>
      simp only [Cursor.relocate, Cursor.advance, List.map_cons, Token.relocate]
      split <;> rfl

/-! ### Two readers -/

/-- The outcome of a reader with its value, its error and its cursor relocated. -/
def relocateResult {α : Type} (move : Relocation) (change : α → α) :
    EStateM.Result SyntaxError Cursor α → EStateM.Result SyntaxError Cursor α
  | .ok value cursor => .ok (change value) (cursor.relocate move)
  | .error error cursor => .error (error.relocate move) (cursor.relocate move)

/-- The cursor that a reader leaves is reached, and an error that it meets is at tokens. -/
def ReachedBy {α : Type} (tokens : List Token) (move : Relocation) :
    EStateM.Result SyntaxError Cursor α → Prop
  | .ok _ cursor => Reached tokens move cursor
  | .error error cursor => Reached tokens move cursor ∧ error.span.Placed tokens

/-- Where the first reader reads from a cursor, the second one reads from the relocated cursor. -/
structure RelocatesAt {α : Type} (tokens : List Token) (move : Relocation) (change : α → α)
    (reader reader' : Reader α) (cursor : Cursor) : Prop where
  run : reader'.run (cursor.relocate move) = relocateResult move change (reader.run cursor)
  reached : ReachedBy tokens move (reader.run cursor)

/-- From relocated tokens the second reader reads what the first one reads, relocated. -/
def Relocates {α : Type} (tokens : List Token) (move : Relocation) (change : α → α)
    (reader reader' : Reader α) : Prop :=
  ∀ cursor, Reached tokens move cursor → RelocatesAt tokens move change reader reader' cursor

/-- A reader of something without positions. -/
abbrev Steady {α : Type} (tokens : List Token) (move : Relocation) (reader : Reader α) : Prop :=
  Relocates tokens move (fun value => value) reader reader

/-- What a reader returns, if it returns at all. -/
def Grants {α : Type} (tokens : List Token) (move : Relocation) (post : α → Prop) (reader : Reader α) : Prop :=
  ∀ cursor value after, Reached tokens move cursor → reader.run cursor = .ok value after → post value

section Combinators

variable {α β : Type} {change : α → α} {change' : β → β} {reader reader' : Reader α}
  {next next' : α → Reader β}

theorem RelocatesAt.bind {cursor : Cursor} (h : RelocatesAt tokens move change reader reader' cursor)
    (hnext : ∀ value after, reader.run cursor = .ok value after → Reached tokens move after →
      RelocatesAt tokens move change' (next value) (next' (change value)) after) :
    RelocatesAt tokens move change' (reader >>= next) (reader' >>= next') cursor := by
  obtain ⟨hrun, hreached⟩ := h
  cases houtcome : reader.run cursor with
  | ok value after =>
      rw [houtcome] at hrun hreached
      have hafter := hnext value after houtcome hreached
      constructor
      · rw [EStateM.run_bind, EStateM.run_bind, hrun, houtcome]
        exact hafter.run
      · rw [EStateM.run_bind, houtcome]
        exact hafter.reached
  | error error after =>
      rw [houtcome] at hrun hreached
      constructor
      · rw [EStateM.run_bind, EStateM.run_bind, hrun, houtcome]
        rfl
      · rw [EStateM.run_bind, houtcome]
        exact hreached

namespace Relocates

theorem bind (h : Relocates tokens move change reader reader')
    (hnext : ∀ value, Relocates tokens move change' (next value) (next' (change value))) :
    Relocates tokens move change' (reader >>= next) (reader' >>= next') :=
  fun cursor hcursor => (h cursor hcursor).bind fun value after _ => hnext value after

/-- Where more is known of a value, it may be used. -/
theorem bind_of {post : α → Prop} (h : Relocates tokens move change reader reader')
    (hpost : Grants tokens move post reader)
    (hnext : ∀ value, post value → Relocates tokens move change' (next value) (next' (change value))) :
    Relocates tokens move change' (reader >>= next) (reader' >>= next') :=
  fun cursor hcursor => (h cursor hcursor).bind fun value after hrun =>
    hnext value (hpost cursor value after hcursor hrun) after

/-- A reader of something without positions may go first. -/
theorem skip (h : Steady tokens move reader)
    (hnext : ∀ value, Relocates tokens move change' (next value) (next' value)) :
    Relocates tokens move change' (reader >>= next) (reader >>= next') :=
  h.bind hnext

theorem pure {value value' : α} (h : value' = change value) :
    Relocates tokens move change (Pure.pure value) (Pure.pure value') := by
  intro cursor hcursor
  rw [h]
  exact ⟨rfl, hcursor⟩

theorem throw {error error' : SyntaxError} (h : error' = error.relocate move)
    (hplaced : error.span.Placed tokens) :
    Relocates tokens move change (MonadExcept.throw error) (MonadExcept.throw error') := by
  intro cursor hcursor
  rw [h]
  exact ⟨rfl, hcursor, hplaced⟩

theorem ite {condition : Prop} [Decidable condition] {other other' : Reader α}
    (htrue : Relocates tokens move change reader reader')
    (hfalse : Relocates tokens move change other other') :
    Relocates tokens move change (if condition then reader else other)
      (if condition then reader' else other') := by
  split
  · exact htrue
  · exact hfalse

/-- A reader chosen by a test, with the same continuation either way. -/
theorem choose {found : Bool} {other other' : Reader α} (h : Relocates tokens move change reader reader')
    (hother : Relocates tokens move change other other')
    (hnext : ∀ value, Relocates tokens move change' (next value) (next' (change value))) :
    Relocates tokens move change' (if found then reader >>= next else other >>= next)
      (if found then reader' >>= next' else other' >>= next') := by
  cases found with
  | true => exact h.bind hnext
  | false => exact hother.bind hnext

/-- What a value is made into afterwards may be relocated too. -/
theorem map (h : Relocates tokens move change reader reader') {make : α → β}
    (hmake : ∀ value, make (change value) = change' (make value)) :
    Relocates tokens move change' (make <$> reader) (make <$> reader') := by
  rw [map_eq_pure_bind, map_eq_pure_bind]
  apply h.bind
  intro value
  exact .pure (hmake value)

end Relocates

/-! ### Looking at the cursor -/

/-- What goes on from a look at the cursor. -/
theorem relocates_get {next next' : Cursor → Reader α}
    (hnext : ∀ cursor, Reached tokens move cursor →
      Relocates tokens move change (next cursor) (next' (cursor.relocate move))) :
    Relocates tokens move change (get >>= next) (get >>= next') := by
  intro cursor hcursor
  exact ⟨(hnext cursor hcursor cursor hcursor).run, (hnext cursor hcursor cursor hcursor).reached⟩

theorem steady_look {look : Cursor → α}
    (h : ∀ cursor, Reached tokens move cursor → look (cursor.relocate move) = look cursor) :
    Steady tokens move (do return look (← get) : Reader α) :=
  relocates_get fun cursor hcursor => .pure (h cursor hcursor)

theorem steady_modify {f : Cursor → Cursor}
    (h : ∀ cursor : Cursor, f (cursor.relocate move) = (f cursor).relocate move)
    (hreached : ∀ cursor, Reached tokens move cursor → Reached tokens move (f cursor)) :
    Steady tokens move (modify f : Reader Unit) :=
  fun cursor hcursor => ⟨congrArg (EStateM.Result.ok ()) (h cursor), hreached cursor hcursor⟩

theorem steady_currentKind : Steady tokens move currentKind :=
  steady_look fun _ hcursor => congrArg (·.kind) hcursor.current_relocate

theorem relocates_currentStart : Relocates tokens move move.start currentStart currentStart :=
  relocates_get fun _ hcursor => .pure (congrArg (·.span.start) hcursor.current_relocate)

theorem steady_peek (count : Nat) : Steady tokens move (peek count) :=
  steady_look fun cursor _ => kindAt_relocate count cursor.rest

theorem steady_ahead {test : List Token → Bool}
    (h : ∀ tokens, test (tokens.map (·.relocate move)) = test tokens) :
    Steady tokens move (ahead test) :=
  steady_look fun cursor _ => h cursor.rest

theorem steady_atEnd : Steady tokens move atEnd :=
  steady_currentKind.skip fun _ => .pure rfl

theorem steady_advance : Steady tokens move advance :=
  steady_modify (·.advance_relocate) fun _ hcursor => hcursor.advance

theorem steady_atSymbol (sign : Symbol) : Steady tokens move (atSymbol sign) :=
  steady_currentKind.skip fun _ => .pure rfl

theorem steady_atKeyword (word : Keyword) : Steady tokens move (atKeyword word) :=
  steady_currentKind.skip fun _ => .pure rfl

theorem steady_acceptSymbol (sign : Symbol) : Steady tokens move (acceptSymbol sign) := by
  apply (steady_atSymbol sign).skip
  intro found
  cases found with
  | true => exact steady_advance.skip fun _ => .pure rfl
  | false => exact .pure rfl

theorem steady_acceptKeyword (word : Keyword) : Steady tokens move (acceptKeyword word) := by
  apply (steady_atKeyword word).skip
  intro found
  cases found with
  | true => exact steady_advance.skip fun _ => .pure rfl
  | false => exact .pure rfl

theorem relocates_failExpected (expected : Expectation) :
    Relocates tokens move change (failExpected expected) (failExpected expected) := by
  apply relocates_get
  intro cursor hcursor
  rw [hcursor.current_relocate]
  exact .throw rfl hcursor.placed_current

theorem relocates_failTooDeep : Relocates tokens move change failTooDeep failTooDeep := by
  apply relocates_get
  intro cursor hcursor
  rw [hcursor.current_relocate]
  exact .throw rfl hcursor.placed_current

theorem relocates_expectSymbol (sign : Symbol) :
    Relocates tokens move (Span.relocate move) (expectSymbol sign) (expectSymbol sign) := by
  apply relocates_get
  intro cursor hcursor
  rw [hcursor.current_relocate]
  exact .ite (steady_advance.skip fun _ => .pure rfl) (relocates_failExpected _)

theorem relocates_expectKeyword (word : Keyword) :
    Relocates tokens move (Span.relocate move) (expectKeyword word) (expectKeyword word) := by
  apply relocates_get
  intro cursor hcursor
  rw [hcursor.current_relocate]
  exact .ite (steady_advance.skip fun _ => .pure rfl) (relocates_failExpected _)

theorem steady_expectName : Steady tokens move expectName := by
  apply steady_currentKind.skip
  intro kind
  split
  · exact steady_advance.skip fun _ => .pure rfl
  · exact relocates_failExpected _

theorem steady_freshId : Steady tokens move freshId :=
  fun _ hcursor => ⟨rfl, hcursor.of_rest_eq rfl rfl rfl⟩

theorem relocates_spanFrom (start : Nat) :
    Relocates tokens move (Span.relocate move) (spanFrom start) (spanFrom (move.start start)) :=
  relocates_get fun _ _ => .pure rfl

/-! ### Recovery -/

theorem relocates_recordError {error error' : SyntaxError} (h : error' = error.relocate move)
    (hplaced : error.span.Placed tokens) :
    Relocates tokens move (fun value => value) (recordError error) (recordError error') := by
  intro cursor hcursor
  subst h
  refine ⟨?_, hcursor.record hplaced⟩
  have hrun (error : SyntaxError) (cursor : Cursor) : (recordError error).run cursor =
      .ok (decide ((cursor.errors ++ [error]).length < errorLimit))
        { cursor with errors := cursor.errors ++ [error] } := rfl
  rw [hrun, hrun]
  simp [relocateResult, Cursor.relocate]

/-- An error of a reader that failed is at tokens. -/
theorem Relocates.attempt {next next' : Except SyntaxError α → Reader β}
    (h : Relocates tokens move change reader reader')
    (hok : ∀ value, Relocates tokens move change' (next (.ok value)) (next' (.ok (change value))))
    (herror : ∀ error, error.span.Placed tokens →
      Relocates tokens move change' (next (.error error)) (next' (.error (error.relocate move)))) :
    Relocates tokens move change' (attempt reader >>= next) (attempt reader' >>= next') := by
  intro cursor hcursor
  obtain ⟨hrun, hreached⟩ := h cursor hcursor
  cases houtcome : reader.run cursor with
  | ok value after =>
      rw [houtcome] at hrun hreached
      have hafter := hok value after hreached
      constructor
      · rw [EStateM.run_bind, EStateM.run_bind, run_attempt, run_attempt, hrun, houtcome]
        exact hafter.run
      · rw [EStateM.run_bind, run_attempt, houtcome]
        exact hafter.reached
  | error error after =>
      rw [houtcome] at hrun hreached
      have hafter := herror error hreached.2 after hreached.1
      constructor
      · rw [EStateM.run_bind, EStateM.run_bind, run_attempt, run_attempt, hrun, houtcome]
        exact hafter.run
      · rw [EStateM.run_bind, run_attempt, houtcome]
        exact hafter.reached

theorem Relocates.readWhen (found : Bool) (h : Relocates tokens move change reader reader') :
    Relocates tokens move (Option.map change) (readWhen found reader) (readWhen found reader') := by
  cases found with
  | true => exact h.map fun _ => rfl
  | false => exact .pure rfl

theorem Relocates.withLambdas (allowed restored : Bool) (h : Relocates tokens move change reader reader') :
    Relocates tokens move change (withLambdas allowed restored reader)
      (withLambdas allowed restored reader') := by
  have hmodify (lambdas : Bool) : Steady tokens move (modify ({ · with lambdas }) : Reader Unit) :=
    steady_modify (fun _ => rfl) fun _ hcursor => hcursor.of_rest_eq rfl rfl rfl
  apply (hmodify allowed).skip
  intro _
  apply h.attempt
  · intro value
    exact (hmodify restored).skip fun _ => .pure rfl
  · intro error hplaced
    exact (hmodify restored).skip fun _ => .throw rfl hplaced

/-! ### Loops -/

theorem steady_loopBound : Steady tokens move loopBound :=
  steady_look fun _ _ => congrArg (· + 1) (List.length_map ..)

/-- A loop may keep an invariant of its values and cursors. -/
theorem RelocatesAt.iterate (inv : α → Cursor → Prop) {step step' : α → Reader (Option α)}
    (hstep : ∀ value cursor, Reached tokens move cursor → inv value cursor →
      RelocatesAt tokens move (Option.map change) (step value) (step' (change value)) cursor ∧
        ∀ next after, (step value).run cursor = .ok (some next) after → inv next after)
    {value : α} {cursor : Cursor} (hcursor : Reached tokens move cursor) (hvalue : inv value cursor) :
    RelocatesAt tokens move change (iterate step value) (iterate step' (change value)) cursor := by
  have hbounded (bound : Nat) (value : α) (cursor : Cursor) (hcursor : Reached tokens move cursor)
      (hvalue : inv value cursor) :
      RelocatesAt tokens move change (iterateUpTo step bound value)
        (iterateUpTo step' bound (change value)) cursor := by
    induction bound generalizing value cursor with
    | zero => exact relocates_failTooDeep cursor hcursor
    | succ bound ih =>
        obtain ⟨hone, hinv⟩ := hstep value cursor hcursor hvalue
        apply hone.bind
        intro next after hrun hafter
        cases next with
        | some next => exact ih next after hafter (hinv next after hrun)
        | none => exact Relocates.pure rfl after hafter
  apply (steady_loopBound cursor hcursor).bind
  intro bound after hrun hafter
  obtain rfl : cursor = after := by
    cases hrun
    rfl
  exact hbounded bound value cursor hafter hvalue

theorem relocates_iterate (change : α → α) {step step' : α → Reader (Option α)} {value value' : α}
    (hvalue : value' = change value)
    (hstep : ∀ value, Relocates tokens move (Option.map change) (step value) (step' (change value))) :
    Relocates tokens move change (iterate step value) (iterate step' value') := by
  intro cursor hcursor
  subst hvalue
  have hinv (value : α) (cursor : Cursor) (hcursor : Reached tokens move cursor) (_ : True) :
      RelocatesAt tokens move (Option.map change) (step value) (step' (change value)) cursor ∧
        ∀ next after, (step value).run cursor = .ok (some next) after → True :=
    ⟨hstep value cursor hcursor, fun _ _ _ => trivial⟩
  exact RelocatesAt.iterate (fun _ _ => True) hinv hcursor trivial

theorem steady_iterate {step : α → Reader (Option α)} {value : α}
    (hstep : ∀ value, Steady tokens move (step value)) : Steady tokens move (iterate step value) := by
  apply relocates_iterate _ rfl
  intro value
  rw [Option.map_id_fun']
  exact hstep value

theorem relocates_collect {step step' : Reader (Option α)}
    (hstep : Relocates tokens move (Option.map change) step step') :
    Relocates tokens move (List.map change) (collect step) (collect step') := by
  have hloop : Relocates tokens move (List.map change) (iterate (collectStep step) [])
      (iterate (collectStep step') []) := by
    apply relocates_iterate _ rfl
    intro values
    apply hstep.bind
    intro value
    cases value <;> exact .pure rfl
  apply hloop.bind
  intro values
  exact .pure (List.map_reverse ..).symm

theorem relocates_separated (separator : Symbol) (h : Relocates tokens move change reader reader') :
    Relocates tokens move (List.map change) (separated separator reader) (separated separator reader') := by
  apply h.bind
  intro first
  apply (relocates_collect _).bind
  · intro others
    exact .pure rfl
  · apply (steady_acceptSymbol separator).skip
    intro found
    cases found with
    | true => exact h.bind fun _ => .pure rfl
    | false => exact .pure rfl

theorem steady_separated (separator : Symbol) (h : Steady tokens move reader) :
    Steady tokens move (separated separator reader) := by
  have hvalues := relocates_separated separator h
  rwa [List.map_id_fun'] at hvalues

theorem relocates_enumerated (close separator : Symbol) (h : Relocates tokens move change reader reader') :
    Relocates tokens move (List.map change) (enumerated close separator reader)
      (enumerated close separator reader') := by
  apply (relocates_iterate (Prod.map (List.map change) fun more => more) rfl _).bind
  · intro scan
    exact .pure (List.map_reverse ..).symm
  · intro scan
    apply (steady_atSymbol close).skip
    intro closing
    apply steady_atEnd.skip
    intro ended
    apply Relocates.ite
    · exact .pure rfl
    · apply h.bind
      intro value
      exact (steady_acceptSymbol separator).skip fun _ => .pure rfl

end Combinators

end Grammar
end LockDiscipline
