import LockDiscipline.Proofs.Grammar.Numbering
/-!
# Progress of readers

Two things about reading are bounded by what lies ahead: how deep the rules refer to each other before a
token is consumed, and how many errors are kept once there are as many as may be kept. Both are told by
amortised accounts. A cursor has a worth in levels, eight for every token ahead, and a strain of errors,
in which every token that opens a list with recovery counts in advance for the error that this list may
keep beyond the limit. A reader runs on an `Allowance`, part of which it leaves: it leaves more levels than
it was given when it consumes a token, and it needs an error of its allowance for each one beyond the limit.

`Grammar.Affords` states that a reader gets by with an allowance, as long as the rules are tied deeply
enough for what lies ahead. Readers in sequence pass on what they leave.
-/

namespace LockDiscipline.Grammar

/-! ### Movement of the cursor -/

/-- The cursor after `after` was come to from another one by consuming tokens, none of which marks the end
of the file. The end of the last one is known, and errors are only added. -/
structure Forward (before after : Cursor) : Prop where
  read : ∃ read, before.rest = read ++ after.rest ∧ (∀ token ∈ read, token.kind ≠ .eof) ∧
    after.lastEnd = (read.getLast?.map (·.span.stop)).getD before.lastEnd
  errors : before.errors <+: after.errors

namespace Forward

variable {before middle after : Cursor}

/-- A cursor at the same tokens has not moved. -/
theorem of_rest_eq (hrest : after.rest = before.rest) (hend : after.lastEnd = before.lastEnd)
    (herrors : before.errors <+: after.errors) : Forward before after :=
  ⟨⟨[], hrest.symm, fun _ hmem => absurd hmem List.not_mem_nil, hend⟩, herrors⟩

theorem refl (cursor : Cursor) : Forward cursor cursor :=
  of_rest_eq rfl rfl (List.prefix_refl _)

theorem trans (hfirst : Forward before middle) (hsecond : Forward middle after) :
    Forward before after := by
  obtain ⟨read, hread, hkinds, hend⟩ := hfirst.read
  obtain ⟨read', hread', hkinds', hend'⟩ := hsecond.read
  refine ⟨⟨read ++ read', ?_, ?_, ?_⟩, hfirst.errors.trans hsecond.errors⟩
  · rw [hread, hread', List.append_assoc]
  · intro token htoken
    exact (List.mem_append.mp htoken).elim (hkinds token) (hkinds' token)
  · rw [hend', hend, List.getLast?_append]
    cases read'.getLast? <;> rfl

theorem length_le (h : Forward before after) : after.rest.length ≤ before.rest.length := by
  obtain ⟨read, hread, -⟩ := h.read
  rw [hread, List.length_append]
  exact Nat.le_add_left _ _

/-- A cursor with as many tokens ahead as before has not moved. -/
theorem rest_eq (h : Forward before after) (hlength : before.rest.length ≤ after.rest.length) :
    after.rest = before.rest := by
  obtain ⟨read, hread, -⟩ := h.read
  have hnil : read = [] := by
    rw [hread, List.length_append] at hlength
    exact List.eq_nil_of_length_eq_zero (by omega)
  rw [hread, hnil, List.nil_append]

theorem advance (cursor : Cursor) : Forward cursor cursor.advance := by
  rw [Cursor.advance]
  split
  · exact refl cursor
  · next token rest hrest =>
    split
    · exact refl cursor
    · next hkind =>
      exact ⟨⟨[token], hrest, List.forall_mem_singleton.mpr hkind, rfl⟩, List.prefix_refl _⟩

end Forward

theorem kind_current (cursor : Cursor) : cursor.current.kind = headKind cursor.rest := by
  rw [Cursor.current]
  cases cursor.rest <;> rfl

/-- A token that does not mark the end of the file is consumed. -/
theorem length_advance {cursor : Cursor} (h : headKind cursor.rest ≠ .eof) :
    cursor.advance.rest.length + 1 = cursor.rest.length := by
  rw [Cursor.advance]
  split
  · next hrest => exact absurd (by rw [hrest]; rfl) h
  · next token rest hrest =>
    have hkind : token.kind ≠ .eof := by rwa [hrest] at h
    rw [if_neg hkind, hrest]
    rfl

/-! ### Allowances -/

/-- What a reader may use: levels of rules before it consumes a token, and errors beyond the limit. -/
structure Allowance where
  levels : Nat
  errors : Nat

namespace Allowance

/-- What is left when a token was consumed: the levels of that token are gained. -/
abbrev gain (held : Allowance) : Allowance :=
  ⟨held.levels + 8, held.errors⟩

/-- The allowance with an error to spare, which a list with recovery may keep beyond the limit. -/
abbrev spare (held : Allowance) : Allowance :=
  ⟨held.levels, held.errors + 1⟩

/-- The allowance with an error to spare, if it is still there. -/
def spareIf (held : Allowance) : Bool → Allowance
  | true => held.spare
  | false => held

/-- What is left when a token was consumed for every value. -/
def gainFor {α : Type} (held : Allowance) : Option α → Allowance
  | some _ => held.gain
  | none => held

/-- One allowance is contained in another. -/
def Within (less more : Allowance) : Prop :=
  less.levels ≤ more.levels ∧ less.errors ≤ more.errors

theorem Within.refl (held : Allowance) : held.Within held :=
  ⟨Nat.le_refl _, Nat.le_refl _⟩

theorem within_gain (held : Allowance) : held.Within held.gain :=
  ⟨Nat.le_add_right _ _, Nat.le_refl _⟩

theorem within_spare (held : Allowance) : held.Within held.spare :=
  ⟨Nat.le_refl _, Nat.le_add_right _ _⟩

theorem levels_spareIf (held : Allowance) (found : Bool) : (held.spareIf found).levels = held.levels := by
  cases found <;> rfl

theorem within_spareIf (held : Allowance) (found : Bool) : held.Within (held.spareIf found) := by
  cases found with
  | true => exact within_spare held
  | false => exact .refl _

/-- Every rule can be read when a token was consumed. -/
theorem le_levels_gain (held : Allowance) {level : Nat} (h : level ≤ 8) : level ≤ held.gain.levels :=
  Nat.le_trans h (Nat.le_add_left _ _)

end Allowance

/-- The tokens that open a list in which reading recovers from errors. -/
def opensList (token : Token) : Bool :=
  match token.kind with
  | .symbol .leftBrace | .keyword .case | .keyword .default => true
  | _ => false

namespace Cursor

/-- The levels that a cursor is worth. -/
def worth (cursor : Cursor) : Nat :=
  8 * cursor.rest.length

/-- The errors that there may come to be, apart from what is allowed beyond. -/
def strain (cursor : Cursor) : Nat :=
  max cursor.errors.length (errorLimit - 1) + cursor.rest.countP opensList

end Cursor

/-- The rules are tied deeply enough for a number of levels. Without a depth this is not asked, and the
bound on the rules may be met. -/
def Suffices (depth : Option Nat) (levels : Nat) : Prop :=
  ∀ limit ∈ depth, levels ≤ limit

theorem Suffices.of_le {depth : Option Nat} {levels fewer : Nat} (h : Suffices depth levels)
    (hle : fewer ≤ levels) : Suffices depth fewer :=
  fun limit hlimit => Nat.le_trans hle (h limit hlimit)

theorem suffices_some {depth levels : Nat} : Suffices (some depth) levels ↔ levels ≤ depth :=
  ⟨fun h => h depth rfl, fun h _ hlimit => Option.some.inj hlimit ▸ h⟩

/-- Without a depth it is not asked whether it suffices. -/
theorem suffices_none (levels : Nat) : Suffices none levels :=
  fun _ hlimit => absurd hlimit.symm (Option.some_ne_none _)

/-- An error that does not tell of the bound on the rules, where there is a depth that suffices. -/
def Shallow (depth : Option Nat) (error : SyntaxError) : Prop :=
  depth.isSome → error.fault ≠ .tooDeep

/-- From one cursor to the next, what is left was held before, and only shallow errors were kept. -/
structure Accounts (depth : Option Nat) (held left : Allowance) (before after : Cursor) : Prop where
  forward : Forward before after
  shallow : ∀ error ∈ after.errors, error ∈ before.errors ∨ Shallow depth error
  levels : after.worth + left.levels ≤ before.worth + held.levels
  errors : after.strain + left.errors ≤ before.strain + held.errors

namespace Accounts

variable {depth : Option Nat} {held mid left : Allowance} {before middle after : Cursor}

theorem trans (hfirst : Accounts depth held mid before middle)
    (hsecond : Accounts depth mid left middle after) : Accounts depth held left before after where
  forward := hfirst.forward.trans hsecond.forward
  shallow error hmem := (hsecond.shallow error hmem).elim (hfirst.shallow error) .inr
  levels := Nat.le_trans hsecond.levels hfirst.levels
  errors := Nat.le_trans hsecond.errors hfirst.errors

/-- Less may be left than there is. -/
theorem weaken {less : Allowance} (h : Accounts depth held left before after) (hless : less.Within left) :
    Accounts depth held less before after :=
  { h with
    levels := Nat.le_trans (Nat.add_le_add_left hless.1 _) h.levels
    errors := Nat.le_trans (Nat.add_le_add_left hless.2 _) h.errors }

/-- Where the cursor stays, what is held is left. -/
theorem stay (held : Allowance) {before after : Cursor} (hrest : after.rest = before.rest)
    (hend : after.lastEnd = before.lastEnd) (herrors : after.errors = before.errors) :
    Accounts depth held held before after where
  forward := .of_rest_eq hrest hend (herrors ▸ List.prefix_refl _)
  shallow error hmem := .inl (herrors ▸ hmem)
  levels := Nat.le_of_eq (by rw [Cursor.worth, Cursor.worth, hrest])
  errors := Nat.le_of_eq (by rw [Cursor.strain, Cursor.strain, hrest, herrors])

theorem refl (held : Allowance) (cursor : Cursor) : Accounts depth held held cursor cursor :=
  stay held rfl rfl rfl

/-- What is left beside a token of the file is not used by moving over it. -/
theorem moves (held : Allowance) {before after : Cursor} (h : Forward before after)
    (herrors : after.errors = before.errors) : Accounts depth held held before after where
  forward := h
  shallow error hmem := .inl (herrors ▸ hmem)
  levels := Nat.add_le_add_right (Nat.mul_le_mul_left 8 h.length_le) _
  errors := by
    obtain ⟨read, hread, -⟩ := h.read
    rw [Cursor.strain, Cursor.strain, herrors, hread, List.countP_append]
    omega

theorem length_lt {gained : Allowance} (h : Accounts depth held gained before after)
    (hlevels : held.levels + 8 ≤ gained.levels) : after.rest.length < before.rest.length := by
  have := h.levels
  rw [Cursor.worth, Cursor.worth] at this
  omega

end Accounts

theorem errors_advance (cursor : Cursor) : cursor.advance.errors = cursor.errors := by
  rw [Cursor.advance]
  split
  · rfl
  · split <;> rfl

/-- Moving over a token gains its levels. -/
theorem accounts_advance {depth : Option Nat} (held : Allowance) {cursor : Cursor}
    (h : headKind cursor.rest ≠ .eof) : Accounts depth held held.gain cursor cursor.advance :=
  { Accounts.moves held (.advance cursor) (errors_advance cursor) with
    levels := by
      have := length_advance h
      rw [Cursor.worth, Cursor.worth]
      dsimp only
      omega }

/-- Moving over a token that opens a list gains the error that the list may keep. -/
theorem accounts_advance_spare {depth : Option Nat} (held : Allowance) {cursor : Cursor} {token : Token}
    {rest : List Token} (hrest : cursor.rest = token :: rest) (hopens : opensList token) :
    Accounts depth held held.gain.spare cursor cursor.advance := by
  have hkind : token.kind ≠ .eof := by
    intro heof
    rw [opensList, heof] at hopens
    cases hopens
  have hadvance : cursor.advance = { cursor with rest, lastEnd := token.span.stop } := by
    rw [Cursor.advance, hrest]
    exact if_neg hkind
  have hmoves : Accounts depth held held.gain cursor cursor.advance :=
    accounts_advance held (by rw [hrest]; exact hkind)
  refine { hmoves with errors := ?_ }
  rw [Cursor.strain, Cursor.strain, hadvance, hrest, List.countP_cons_of_pos hopens]
  dsimp only
  omega

/-! ### Readers that get by with an allowance -/

/-- A reader got by with what was held and left something of it for its value. If it failed, the error is
shallow. -/
def Afforded {α : Type} (depth : Option Nat) (held : Allowance) (left : α → Allowance) (before : Cursor) :
    EStateM.Result SyntaxError Cursor α → Prop
  | .ok value after => Accounts depth held (left value) before after
  | .error error after => Shallow depth error ∧ Accounts depth held ⟨0, 0⟩ before after

/-- What was left for the rest of a computation is all that the rest needs. -/
theorem Afforded.behind {α : Type} {depth : Option Nat} {held mid : Allowance} {left : α → Allowance}
    {before middle : Cursor} {result : EStateM.Result SyntaxError Cursor α}
    (hrest : Afforded depth mid left middle result)
    (hfirst : Accounts depth held mid before middle) : Afforded depth held left before result := by
  cases result with
  | ok value after => exact hfirst.trans hrest
  | error error after => exact ⟨hrest.1, hfirst.trans hrest.2⟩

/-- Where something is known of the tokens ahead and the rules are tied deeply enough for them, a reader
gets by with what is held. -/
def Affords {α : Type} (depth : Option Nat) (known : List Token → Prop) (held : Allowance)
    (left : α → Allowance) (reader : Reader α) : Prop :=
  ∀ cursor : Cursor, known cursor.rest → Suffices depth (cursor.worth + held.levels) →
    Afforded depth held left cursor (reader.run cursor)

/-- Nothing is known of the tokens ahead. -/
abbrev Anywhere : List Token → Prop :=
  fun _ => True

/-- A reader that needs some levels and leaves what it is given. -/
def Passes {α : Type} (depth : Option Nat) (level : Nat) (reader : Reader α) : Prop :=
  ∀ ⦃known held⦄, level ≤ held.levels → Affords depth known held (fun _ => held) reader

/-- A reader that needs some levels and consumes a token. -/
def Consumes {α : Type} (depth : Option Nat) (level : Nat) (reader : Reader α) : Prop :=
  ∀ ⦃known held⦄, level ≤ held.levels → Affords depth known held (fun _ => held.gain) reader

/-- A reader that only looks at the tokens ahead, and what its value shows of them. -/
def Looks {α : Type} (shows : List Token → α → Prop) (reader : Reader α) : Prop :=
  ∀ cursor : Cursor, ∃ value, reader.run cursor = .ok value cursor ∧ shows cursor.rest value

section Combinators

variable {α β : Type} {depth : Option Nat} {level : Nat} {known known' : List Token → Prop}
  {held mid : Allowance} {left left' : α → Allowance} {left'' : β → Allowance}
  {reader : Reader α} {next : α → Reader β}

namespace Affords

/-- Readers in sequence pass on what they leave. -/
theorem bind (hreader : Affords depth known held left reader)
    (hnext : ∀ value, Affords depth Anywhere (left value) left'' (next value)) :
    Affords depth known held left'' (reader >>= next) := by
  intro cursor hknown hdepth
  have hfirst := hreader cursor hknown hdepth
  rw [EStateM.run_bind]
  cases hrun : reader.run cursor with
  | error error middle =>
      rw [hrun] at hfirst
      exact hfirst
  | ok value middle =>
      rw [hrun] at hfirst
      exact (hnext value middle trivial (hdepth.of_le hfirst.levels)).behind hfirst

/-- What is known may be forgotten, and less may be left. -/
theorem weaken (h : Affords depth known held left reader) (hknown : ∀ rest, known' rest → known rest)
    (hleft : ∀ value, (left' value).Within (left value)) :
    Affords depth known' held left' reader := by
  intro cursor hcursor hdepth
  have houtcome := h cursor (hknown _ hcursor) hdepth
  cases hrun : reader.run cursor with
  | ok value after =>
      rw [hrun] at houtcome
      exact Accounts.weaken houtcome (hleft value)
  | error error after =>
      rw [hrun] at houtcome
      exact houtcome

/-- Where nothing can be true of the tokens ahead, there is nothing to afford. -/
theorem absurd (h : ∀ rest, ¬known rest) : Affords depth known held left reader :=
  fun _ hknown _ => False.elim (h _ hknown)

theorem pure {value : α} (h : (left value).Within held) :
    Affords depth known held left (Pure.pure value) :=
  fun cursor _ _ => (Accounts.refl held cursor).weaken h

/-- A value is returned, and all that is held is left. -/
theorem done {value : α} : Affords depth known held (fun _ => held) (Pure.pure value) :=
  .pure (.refl _)

theorem throw {error : SyntaxError} (h : error.fault ≠ .tooDeep) :
    Affords depth known held left (MonadExcept.throw error : Reader α) :=
  fun cursor _ _ => ⟨fun _ => h, (Accounts.refl held cursor).weaken ⟨Nat.zero_le _, Nat.zero_le _⟩⟩

theorem ite {condition : Prop} [Decidable condition] {first second : Reader α}
    (hfirst : condition → Affords depth known held left first)
    (hsecond : ¬condition → Affords depth known held left second) :
    Affords depth known held left (if condition then first else second) := by
  split
  · next h => exact hfirst h
  · next h => exact hsecond h

theorem map {transform : α → β} (h : Affords depth known held (fun _ => mid) reader) :
    Affords depth known held (fun _ => mid) (transform <$> reader) := by
  rw [map_eq_pure_bind]
  exact h.bind fun _ => .done

/-- The outcome of a reader as a value: with a failure goes what was held, and if the reader failed where
it began, what was known there is known still. -/
theorem recover {next : Except SyntaxError α → Reader β}
    (hreader : Consumes depth level reader)
    (hheld : level ≤ held.levels)
    (hok : ∀ value, Affords depth Anywhere held.gain left'' (next (.ok value)))
    (hmoved : ∀ error, Shallow depth error →
      Affords depth Anywhere held.gain left'' (next (.error error)))
    (hstayed : ∀ error, Shallow depth error →
      Affords depth known held left'' (next (.error error))) :
    Affords depth known held left'' (attempt reader >>= next) := by
  intro cursor hknown hdepth
  -- The errors that are held are not given to the reader, so they are left when it fails.
  have hfirst := @hreader known ⟨held.levels, 0⟩ hheld cursor hknown hdepth
  rw [EStateM.run_bind, run_attempt]
  cases hrun : reader.run cursor with
  | ok value middle =>
      rw [hrun] at hfirst
      have hframed : Accounts depth held held.gain cursor middle :=
        { hfirst with errors := by have := hfirst.errors; dsimp only at this ⊢; omega }
      exact (hok value middle trivial (hdepth.of_le hframed.levels)).behind hframed
  | error error middle =>
      rw [hrun] at hfirst
      obtain ⟨hfault, hfirst⟩ := hfirst
      have hframed : middle.strain + held.errors ≤ cursor.strain + held.errors := by
        have := hfirst.errors
        dsimp only at this
        omega
      by_cases hlength : middle.rest.length < cursor.rest.length
      · have hgained : Accounts depth held held.gain cursor middle :=
          { hfirst with
            levels := by rw [Cursor.worth, Cursor.worth]; dsimp only; omega
            errors := hframed }
        exact (hmoved error hfault middle trivial (hdepth.of_le hgained.levels)).behind hgained
      · have hrest := hfirst.forward.rest_eq (Nat.le_of_not_lt hlength)
        have hkept : Accounts depth held held cursor middle :=
          { hfirst with
            levels := Nat.le_of_eq (by rw [Cursor.worth, Cursor.worth, hrest])
            errors := hframed }
        exact (hstayed error hfault middle (hrest ▸ hknown)
          (hdepth.of_le hkept.levels)).behind hkept

end Affords

namespace Passes

/-- A reader that passes its allowance on comes before another one. -/
theorem first (h : Passes depth level reader) (hheld : level ≤ held.levels)
    (hnext : ∀ value, Affords depth Anywhere held left'' (next value)) :
    Affords depth known held left'' (reader >>= next) :=
  (h hheld).bind hnext

/-- A reader that passes its allowance on comes behind a token. -/
theorem behind (h : Passes depth level reader) (hlevel : level ≤ 8)
    (hnext : ∀ value, Affords depth Anywhere held.gain left'' (next value)) :
    Affords depth known held.gain left'' (reader >>= next) :=
  h.first (held.le_levels_gain hlevel) hnext

theorem map {transform : α → β} (h : Passes depth level reader) :
    Passes depth level (transform <$> reader) :=
  fun _ _ hheld => (h hheld).map

end Passes

namespace Consumes

/-- The first reader that consumes a token gains its levels for those behind it. -/
theorem first (h : Consumes depth level reader) (hheld : level ≤ held.levels)
    (hnext : ∀ value, Affords depth Anywhere held.gain left'' (next value)) :
    Affords depth known held left'' (reader >>= next) :=
  (h hheld).bind hnext

theorem passes (h : Consumes depth level reader) : Passes depth level reader :=
  fun _ _ hheld => (h hheld).weaken (fun _ => id) fun _ => Allowance.within_gain _

/-- Behind a token every rule can be read, and no more levels are needed. -/
theorem behind (h : Consumes depth level reader) (hlevel : level ≤ 8)
    (hnext : ∀ value, Affords depth Anywhere held.gain left'' (next value)) :
    Affords depth known held.gain left'' (reader >>= next) :=
  h.passes.behind hlevel hnext

end Consumes

namespace Looks

variable {shows : List Token → α → Prop}

/-- What is seen is known where the next reader begins. -/
theorem note (h : Looks shows reader)
    (hnext : ∀ value, Affords depth (fun rest => known rest ∧ shows rest value) held left'' (next value)) :
    Affords depth known held left'' (reader >>= next) := by
  intro cursor hknown hdepth
  obtain ⟨value, hrun, hshows⟩ := h cursor
  rw [EStateM.run_bind, hrun]
  exact hnext value cursor ⟨hknown, hshows⟩ hdepth

/-- What is seen does not matter. -/
theorem skip (h : Looks shows reader) (hnext : ∀ value, Affords depth known held left'' (next value)) :
    Affords depth known held left'' (reader >>= next) :=
  h.note fun value => (hnext value).weaken (fun _ hknown => hknown.1) fun _ => .refl _

/-- What is seen is all that matters. -/
theorem learn (h : Looks shows reader)
    (hnext : ∀ value, Affords depth (shows · value) held left'' (next value)) :
    Affords depth known held left'' (reader >>= next) :=
  h.note fun value => (hnext value).weaken (fun _ hknown => hknown.2) fun _ => .refl _

end Looks

end Combinators

end LockDiscipline.Grammar
