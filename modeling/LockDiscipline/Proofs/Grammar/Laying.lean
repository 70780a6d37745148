import LockDiscipline.Proofs.Grammar.BasicProgress
import LockDiscipline.Proofs.Tree.Spans
/-!
# Spans of what is read

A reader keeps the byte where its first token starts and makes a span of it when the last one is consumed.
`Grammar.Lays` says of a reader that what it returns is laid out between that first byte and the end of the
last token consumed. Readers in sequence lay out what they return side by side, a new node goes around all
that was read since its first byte, and what is read may be dropped. A stage tells how much is known of the
tokens consumed since the first byte: a span is only made where there is at least one, or it would be empty.
-/

namespace LockDiscipline.Grammar

/-! ### Positions of the cursor -/

/-- Tokens that stand in the order of their spans, each with some bytes unless it marks the end of the file. -/
structure InOrder (tokens : List Token) : Prop where
  lt : ∀ token ∈ tokens, token.kind ≠ .eof → token.span.start < token.span.stop
  apart : tokens.Pairwise fun first second => first.span.stop ≤ second.span.start

/-- A byte where the next token starts, or from which on tokens were consumed. -/
def Here (tokens : List Token) (low : Nat) (cursor : Cursor) : Prop :=
  low = cursor.current.span.start ∨ Span.Covers tokens ⟨low, cursor.lastEnd⟩

section Positions

variable {tokens : List Token} (htokens : InOrder tokens) {low : Nat} {before after : Cursor}
include htokens

/-- What lies ahead starts behind what was consumed. -/
theorem lastEnd_le_of_mem {cursor : Cursor} (hat : Forward (.start tokens) cursor) {token : Token}
    (htoken : token ∈ cursor.rest) : cursor.lastEnd ≤ token.span.start := by
  obtain ⟨read, hread, -, hend⟩ := hat.read
  rw [hend]
  cases hlast : read.getLast? with
  | none => exact Nat.zero_le _
  | some last =>
      have hapart := htokens.apart
      rw [show tokens = read ++ cursor.rest from hread, List.pairwise_append] at hapart
      exact hapart.2.2 last (List.mem_of_getLast? hlast) token htoken

theorem lastEnd_le_start {cursor : Cursor} (hat : Forward (.start tokens) cursor) :
    cursor.lastEnd ≤ cursor.current.span.start := by
  have hmem := @lastEnd_le_of_mem tokens htokens cursor hat
  rw [Cursor.current]
  cases hrest : cursor.rest with
  | nil => exact Nat.le_refl _
  | cons token rest => exact hmem (by rw [hrest]; exact List.mem_cons_self)

/-- A token that is consumed is one of the file and has some bytes. -/
theorem mem_and_lt_of_read (hat : Forward (.start tokens) before) {read : List Token}
    (hread : before.rest = read ++ after.rest) (hkinds : ∀ token ∈ read, token.kind ≠ .eof)
    {token : Token} (htoken : token ∈ read) :
    token ∈ tokens ∧ token.kind ≠ .eof ∧ token.span.start < token.span.stop := by
  obtain ⟨read', hread', -⟩ := hat.read
  have hmem : token ∈ tokens := by
    rw [show tokens = read' ++ before.rest from hread', hread]
    exact List.mem_append_right _ (List.mem_append_left _ htoken)
  exact ⟨hmem, hkinds token htoken, htokens.lt token hmem (hkinds token htoken)⟩

omit htokens in
/-- A name that lies ahead is one of the identifiers of the file. -/
theorem isIdentOf_current {cursor : Cursor} (hat : Forward (.start tokens) cursor) {name : String}
    (hkind : cursor.current.kind = .ident name) : IsIdentOf tokens name := by
  obtain ⟨read, hread, -⟩ := hat.read
  rw [Cursor.current] at hkind
  cases hrest : cursor.rest with
  | nil =>
      rw [hrest] at hkind
      cases hkind
  | cons token rest =>
      rw [hrest] at hkind
      have hmem : token ∈ cursor.rest := by rw [hrest]; exact List.mem_cons_self
      refine ⟨token, ?_, hkind⟩
      rw [show tokens = read ++ cursor.rest from hread]
      exact List.mem_append_right _ hmem

theorem lastEnd_le (hat : Forward (.start tokens) before) (h : Forward before after) :
    before.lastEnd ≤ after.lastEnd := by
  obtain ⟨read, hread, hkinds, hend⟩ := h.read
  cases hlast : read.getLast? with
  | none =>
      rw [hend, hlast]
      exact Nat.le_refl _
  | some last =>
      have hmem := List.mem_of_getLast? hlast
      rw [hend, hlast]
      calc before.lastEnd
        _ ≤ last.span.start :=
          lastEnd_le_of_mem htokens hat (by rw [hread]; exact List.mem_append_left _ hmem)
        _ ≤ last.span.stop := Nat.le_of_lt (mem_and_lt_of_read htokens hat hread hkinds hmem).2.2

/-- From the token that was next on, at least one token was consumed. -/
theorem covers_of_length_lt (hat : Forward (.start tokens) before) (h : Forward before after)
    (hlength : after.rest.length < before.rest.length) :
    Span.Covers tokens ⟨before.current.span.start, after.lastEnd⟩ := by
  obtain ⟨read, hread, hkinds, hend⟩ := h.read
  have hne : read ≠ [] := by
    rintro rfl
    rw [hread, List.nil_append] at hlength
    exact Nat.lt_irrefl _ hlength
  obtain ⟨first, others, rfl⟩ := List.exists_cons_of_ne_nil hne
  have hcurrent : before.current = first := by
    rw [Cursor.current, hread]
    rfl
  have hlast := List.getLast?_eq_some_getLast hne
  generalize (first :: others).getLast hne = last at hlast
  have hmem := List.mem_of_getLast? hlast
  obtain ⟨hfirstMem, hfirstKind, hfirstLt⟩ :=
    mem_and_lt_of_read htokens hat hread hkinds List.mem_cons_self
  obtain ⟨hlastMem, hlastKind, hlastLt⟩ := mem_and_lt_of_read htokens hat hread hkinds hmem
  rw [hend, hlast, hcurrent]
  refine ⟨?_, ⟨first, hfirstMem, hfirstKind, rfl⟩, ⟨last, hlastMem, hlastKind, rfl⟩⟩
  rcases List.mem_cons.mp hmem with rfl | hmem
  · exact hlastLt
  · obtain ⟨read', hread', -⟩ := hat.read
    have hapart := htokens.apart
    rw [show tokens = read' ++ before.rest from hread', hread] at hapart
    have hinner := (List.pairwise_append.mp (List.pairwise_append.mp hapart).2.1).1
    calc first.span.start
      _ < first.span.stop := hfirstLt
      _ ≤ last.span.start := (List.pairwise_cons.mp hinner).1 last hmem
      _ ≤ last.span.stop := Nat.le_of_lt hlastLt

/-- What covers tokens goes on to do so when more are consumed. -/
theorem covers_forward (hcovers : Span.Covers tokens ⟨low, before.lastEnd⟩)
    (hat : Forward (.start tokens) before) (h : Forward before after) :
    Span.Covers tokens ⟨low, after.lastEnd⟩ := by
  have hle := lastEnd_le htokens hat h
  obtain ⟨read, hread, hkinds, hend⟩ := h.read
  refine ⟨Nat.lt_of_lt_of_le hcovers.lt hle, hcovers.start, ?_⟩
  cases hlast : read.getLast? with
  | none =>
      rw [hend, hlast]
      exact hcovers.stop
  | some last =>
      obtain ⟨hmem, hkind, -⟩ :=
        mem_and_lt_of_read htokens hat hread hkinds (List.mem_of_getLast? hlast)
      exact ⟨last, hmem, hkind, by rw [hend, hlast]; rfl⟩

namespace Here

theorem le (hhere : Here tokens low before) (hat : Forward (.start tokens) before) :
    low ≤ before.current.span.start := by
  rcases hhere with rfl | hcovers
  · exact Nat.le_refl _
  · exact Nat.le_trans (Nat.le_of_lt hcovers.lt) (lastEnd_le_start htokens hat)

theorem forward (hhere : Here tokens low before) (hat : Forward (.start tokens) before)
    (h : Forward before after) : Here tokens low after := by
  rcases hhere with rfl | hcovers
  · by_cases hlength : after.rest.length < before.rest.length
    · exact .inr (covers_of_length_lt htokens hat h hlength)
    · -- Nothing was consumed, so the next token is the same.
      have hrest := h.rest_eq (Nat.le_of_not_lt hlength)
      obtain ⟨read, hread, -, hend⟩ := h.read
      have hnil : read = [] := by rwa [hrest, List.self_eq_append_left] at hread
      subst hnil
      exact .inl (by rw [Cursor.current, Cursor.current, hrest, show after.lastEnd = _ from hend]; rfl)
  · exact .inr (covers_forward htokens hcovers hat h)

/-- Tokens that were consumed from the next one on were consumed from the first byte on. -/
theorem covers (hhere : Here tokens low before) (hat : Forward (.start tokens) before)
    (h : Forward before after)
    (hcovers : Span.Covers tokens ⟨before.current.span.start, after.lastEnd⟩) :
    Span.Covers tokens ⟨low, after.lastEnd⟩ := by
  rcases hhere with rfl | hbefore
  · exact hcovers
  · exact covers_forward htokens hbefore hat h

end Here

end Positions

/-! ### Stages -/

/-- What is known of the tokens that were consumed since a first byte. -/
inductive Stage where
  /-- It is not known whether there are any. -/
  | fresh
  /-- It is not known whether there are any, but another one can be consumed. -/
  | ready
  /-- There is at least one. -/
  | begun
  /-- There is at least one, and so there is since a byte behind all items. -/
  | marked (mark : Nat)

/-- Items that are laid out at a stage, as far as tokens were consumed. -/
def Stage.Holds (tokens : List Token) (low : Nat) (items : List Item) (cursor : Cursor) : Stage → Prop
  | .fresh => Here tokens low cursor ∧ Laid tokens low cursor.lastEnd items
  | .ready => Here tokens low cursor ∧ Laid tokens low cursor.lastEnd items ∧
      headKind cursor.rest ≠ .eof
  | .begun => Span.Covers tokens ⟨low, cursor.lastEnd⟩ ∧ Laid tokens low cursor.lastEnd items
  | .marked mark => Span.Covers tokens ⟨low, cursor.lastEnd⟩ ∧
      Span.Covers tokens ⟨mark, cursor.lastEnd⟩ ∧ low ≤ mark ∧ Laid tokens low mark items

namespace Stage

/-- The stage when the next token is seen, which does not mark the end of the file. -/
def seen : Stage → Stage
  | .fresh => .ready
  | stage => stage

/-- The stage when other tokens may have been consumed. -/
def later : Stage → Stage
  | .begun | .marked _ => .begun
  | .fresh | .ready => .fresh

/-- The stage behind a reader that brings its own items to a stage. -/
def behind (stage : Stage) : Stage → Stage
  | .begun => .begun
  | _ => stage.later

theorem begun_behind (inner : Stage) : Stage.begun.behind inner = .begun := by
  cases inner <;> rfl

namespace Holds

variable {tokens : List Token} {low : Nat} {items items' : List Item} {cursor : Cursor} {stage : Stage}

theorem here (h : stage.Holds tokens low items cursor) : Here tokens low cursor := by
  cases stage with
  | fresh | ready => exact h.1
  | begun | marked mark => exact .inr h.1

theorem laid (h : stage.Holds tokens low items cursor) : Laid tokens low cursor.lastEnd items := by
  cases stage with
  | fresh | begun => exact h.2
  | ready => exact h.2.1
  | marked mark => exact h.2.2.2.mono (Nat.le_of_lt h.2.1.lt)

theorem fresh (h : stage.Holds tokens low items cursor) : Stage.fresh.Holds tokens low items cursor :=
  ⟨h.here, h.laid⟩

theorem seen (h : stage.Holds tokens low items cursor) (hkind : headKind cursor.rest ≠ .eof) :
    stage.seen.Holds tokens low items cursor := by
  cases stage with
  | fresh => exact ⟨h.1, h.2, hkind⟩
  | ready | begun | marked mark => exact h

theorem change (h : stage.Holds tokens low items cursor)
    (hchange : ∀ high, Laid tokens low high items → Laid tokens low high items') :
    stage.Holds tokens low items' cursor := by
  cases stage with
  | fresh | begun => exact ⟨h.1, hchange _ h.2⟩
  | ready => exact ⟨h.1, hchange _ h.2.1, h.2.2⟩
  | marked mark => exact ⟨h.1, h.2.1, h.2.2.1, hchange _ h.2.2.2⟩

theorem congr {other : Cursor} (h : stage.Holds tokens low items cursor) (hrest : other.rest = cursor.rest)
    (hend : other.lastEnd = cursor.lastEnd) : stage.Holds tokens low items other := by
  have hcurrent : other.current = cursor.current := by
    rw [Cursor.current, Cursor.current, hrest, hend]
  cases stage with
  | fresh | ready | begun | marked mark =>
      simp only [Stage.Holds, Here, hcurrent, hend, hrest] at h ⊢
      exact h

/-- What is read by itself from the next token on is laid out behind what was read before. -/
theorem behind (htokens : InOrder tokens) {before after : Cursor} {inner : Stage}
    (h : stage.Holds tokens low items before) (hat : Forward (.start tokens) before)
    (hforward : Forward before after)
    (hinner : inner.Holds tokens before.current.span.start items' after) :
    (stage.behind inner).Holds tokens low (items ++ items') after := by
  have hlaid : Laid tokens low after.lastEnd (items ++ items') :=
    h.laid.append hinner.laid (h.here.le htokens hat) (lastEnd_le_start htokens hat)
      (lastEnd_le htokens hat hforward)
  have hhere := h.here.forward htokens hat hforward
  have hlater : stage.later.Holds tokens low (items ++ items') after := by
    cases stage with
    | begun | marked mark => exact ⟨covers_forward htokens h.1 hat hforward, hlaid⟩
    | fresh | ready => exact ⟨hhere, hlaid⟩
  cases inner with
  | begun => exact ⟨h.here.covers htokens hat hforward hinner.1, hlaid⟩
  | fresh | ready | marked mark => exact hlater

end Holds
end Stage

/-! ### Readers that lay out what they return -/

/-- What a reader returns is laid out at a stage, and the cursor has moved forward. -/
def Lying {α : Type} (tokens : List Token) (low : Nat) (post : Stage) (items : α → List Item)
    (before : Cursor) : EStateM.Result SyntaxError Cursor α → Prop
  | .ok value after => Forward before after ∧ post.Holds tokens low (items value) after
  | .error _ after => Forward before after

/-- If the items `held` are laid out from a byte on before a reader runs, then those of its value are
when it is done. -/
def Lays {α : Type} (tokens : List Token) (low : Nat) (pre post : Stage) (held : List Item)
    (items : α → List Item) (reader : Reader α) : Prop :=
  ∀ cursor, Forward (.start tokens) cursor → pre.Holds tokens low held cursor →
    Lying tokens low post items cursor (reader.run cursor)

/-- A reader lays out what it returns from the next token on. -/
def Reads {α : Type} (tokens : List Token) (post : Stage) (items : α → List Item) (reader : Reader α) :
    Prop :=
  ∀ cursor, Forward (.start tokens) cursor →
    Lying tokens cursor.current.span.start post items cursor (reader.run cursor)

section Combinators

variable {α β : Type} {tokens : List Token} {low level : Nat} {pre post inner : Stage}
  {held held' : List Item} {items : α → List Item} {items' : β → List Item} {reader : Reader α}
  {next : α → Reader β}

theorem Lying.after {low' : Nat} {before middle : Cursor} {post' : Stage}
    {result : EStateM.Result SyntaxError Cursor α} (h : Lying tokens low post items middle result)
    (hforward : Forward before middle)
    (hpost : ∀ value after, post.Holds tokens low (items value) after →
      post'.Holds tokens low' (items value) after) :
    Lying tokens low' post' items before result := by
  cases result with
  | ok value after => exact ⟨hforward.trans h.1, hpost value after h.2⟩
  | error error after => exact hforward.trans h

namespace Lays

/-- What is held may be put together into other items. -/
theorem regroup (h : Lays tokens low pre post held' items reader)
    (hheld : ∀ high, Laid tokens low high held → Laid tokens low high held') :
    Lays tokens low pre post held items reader :=
  fun cursor hat hpre => h cursor hat (hpre.change hheld)

/-- What is held may be dropped. -/
theorem dropping (h : Lays tokens low pre post [] items reader) :
    Lays tokens low pre post held items reader :=
  h.regroup fun high _ => .nil low high

/-- What can be read when nothing is known can be read at any stage. -/
theorem atStage (h : Lays tokens low .fresh post held items reader) :
    Lays tokens low pre post held items reader :=
  fun cursor hat hpre => h cursor hat hpre.fresh

/-- It may be forgotten that tokens were consumed. -/
theorem forget (h : Lays tokens low pre .begun held items reader) :
    Lays tokens low pre .fresh held items reader :=
  fun cursor hat hpre => (h cursor hat hpre).after (.refl _) fun _ _ hpost => hpost.fresh

/-- What is held may be returned as other items. -/
theorem yield {value : α} (h : ∀ high, Laid tokens low high held → Laid tokens low high (items value)) :
    Lays tokens low pre pre held items (Pure.pure value) :=
  fun cursor _ hpre => ⟨.refl cursor, hpre.change h⟩

/-- What is held may be returned or dropped, and not be doubled. -/
theorem pure {value : α} (hsub : ∀ item, (items value).count item ≤ held.count item) :
    Lays tokens low pre pre held items (Pure.pure value) :=
  .yield fun _ h => h.of_subperm (List.subperm_iff_count.mpr hsub)

theorem throw (error : SyntaxError) :
    Lays tokens low pre post held items (MonadExcept.throw error : Reader α) :=
  fun cursor _ _ => .refl cursor

theorem ite {condition : Prop} [Decidable condition] {first second : Reader α}
    (hfirst : Lays tokens low pre post held items first)
    (hsecond : Lays tokens low pre post held items second) :
    Lays tokens low pre post held items (if condition then first else second) := by
  split
  · exact hfirst
  · exact hsecond

/-- A reader may use what is held for its own value. -/
theorem consume {middle : Stage} (hreader : Lays tokens low pre middle held items reader)
    (hnext : ∀ value, Lays tokens low middle post (items value) items' (next value)) :
    Lays tokens low pre post held items' (reader >>= next) := by
  intro cursor hat hpre
  have hfirst := hreader cursor hat hpre
  rw [EStateM.run_bind]
  cases hrun : reader.run cursor with
  | error error after =>
      rw [hrun] at hfirst
      exact hfirst
  | ok value after =>
      rw [hrun] at hfirst
      exact (hnext value after (hat.trans hfirst.1) hfirst.2).after hfirst.1 fun _ _ hpost => hpost

end Lays

namespace Reads

/-- A reader that keeps the byte where its first token starts. -/
theorem of_start {next : Nat → Reader β} (h : ∀ start, Lays tokens start .fresh post [] items' (next start)) :
    Reads tokens post items' (currentStart >>= next) :=
  fun cursor hat => h _ cursor hat ⟨.inl rfl, .nil _ _⟩

theorem of_lays (h : ∀ low, Lays tokens low .fresh post [] items reader) : Reads tokens post items reader :=
  fun cursor hat => h _ cursor hat ⟨.inl rfl, .nil _ _⟩

theorem of_looks {shows : List Token → α → Prop} (h : Looks shows reader)
    (hnext : ∀ value, Reads tokens post items' (next value)) : Reads tokens post items' (reader >>= next) := by
  intro cursor hat
  obtain ⟨value, hrun, -⟩ := h cursor
  rw [EStateM.run_bind, hrun]
  exact hnext value cursor hat

theorem ite {condition : Prop} [Decidable condition] {first second : Reader α}
    (hfirst : Reads tokens post items first) (hsecond : Reads tokens post items second) :
    Reads tokens post items (if condition then first else second) := by
  split
  · exact hfirst
  · exact hsecond

theorem forget (h : Reads tokens post items reader) : Reads tokens .fresh items reader :=
  fun cursor hat => (h cursor hat).after (.refl _) fun _ _ hpost => hpost.fresh

theorem map {transform : α → β} (h : Reads tokens post items reader)
    (hitems : ∀ value low high, Laid tokens low high (items value) →
      Laid tokens low high (items' (transform value))) :
    Reads tokens post items' (transform <$> reader) := by
  intro cursor hat
  have houtcome := h cursor hat
  rw [map_eq_pure_bind, EStateM.run_bind]
  cases hrun : reader.run cursor with
  | error error after =>
      rw [hrun] at houtcome
      exact houtcome
  | ok value after =>
      rw [hrun] at houtcome
      exact ⟨houtcome.1, houtcome.2.change fun high => hitems value _ high⟩

end Reads

section Sequence

variable (htokens : InOrder tokens)
include htokens

/-- Readers in sequence lay out what they return side by side. -/
theorem Reads.bind (hreader : Reads tokens inner items reader)
    (hnext : ∀ value, Lays tokens low (pre.behind inner) post (held ++ items value) items' (next value)) :
    Lays tokens low pre post held items' (reader >>= next) := by
  intro cursor hat hpre
  have hfirst := hreader cursor hat
  rw [EStateM.run_bind]
  cases hrun : reader.run cursor with
  | error error after =>
      rw [hrun] at hfirst
      exact hfirst
  | ok value after =>
      rw [hrun] at hfirst
      exact (hnext value after (hat.trans hfirst.1) (hpre.behind htokens hat hfirst.1 hfirst.2)).after
        hfirst.1 fun _ _ hpost => hpost

/-- What is read where tokens were consumed before lies behind the first byte. -/
theorem Reads.bind_behind (hreader : Reads tokens inner items reader)
    (hnext : ∀ value, (∀ item ∈ items value, item.Behind low) →
      Lays tokens low .begun post (held ++ items value) items' (next value)) :
    Lays tokens low .begun post held items' (reader >>= next) := by
  intro cursor hat hpre
  have hfirst := hreader cursor hat
  rw [EStateM.run_bind]
  cases hrun : reader.run cursor with
  | error error after =>
      rw [hrun] at hfirst
      exact hfirst
  | ok value after =>
      rw [hrun] at hfirst
      have hbehind (item : Item) (hitem : item ∈ items value) : item.Behind low := by
        intro node hnode span hspan
        calc low
          _ < cursor.lastEnd := hpre.1.lt
          _ ≤ cursor.current.span.start := lastEnd_le_start htokens hat
          _ ≤ span.start := ((hfirst.2.laid.inside item hitem).constructs node hnode span hspan).1
      have hpost := hpre.behind htokens hat hfirst.1 hfirst.2
      rw [Stage.begun_behind] at hpost
      exact (hnext value hbehind after (hat.trans hfirst.1) hpost).after hfirst.1
        fun _ _ hpost => hpost

/-- A reader chosen by a test, with the same continuation either way. -/
theorem Reads.choose {found : Bool} {other : Reader α} (hreader : Reads tokens inner items reader)
    (hother : Reads tokens inner items other)
    (hnext : ∀ value, Lays tokens low (pre.behind inner) post (held ++ items value) items' (next value)) :
    Lays tokens low pre post held items' (if found then reader >>= next else other >>= next) := by
  cases found with
  | true => exact hreader.bind htokens hnext
  | false => exact hother.bind htokens hnext

/-- A reader at the end, when nothing is held. -/
theorem Reads.last (hreader : Reads tokens inner items reader) :
    Lays tokens low pre (pre.behind inner) [] items reader := by
  intro cursor hat hpre
  have houtcome := hreader cursor hat
  cases hrun : reader.run cursor with
  | error error after =>
      rw [hrun] at houtcome
      exact houtcome
  | ok value after =>
      rw [hrun] at houtcome
      exact ⟨houtcome.1, hpre.behind htokens hat houtcome.1 houtcome.2⟩

/-- A reader that consumes a token but returns no items. -/
theorem Consumes.reads (h : Consumes none level reader) : Reads tokens .begun (fun _ => []) reader := by
  intro cursor hat
  have houtcome := @h Anywhere ⟨level, 0⟩ (Nat.le_refl _) cursor trivial (suffices_none _)
  cases hrun : reader.run cursor with
  | ok value after =>
      rw [hrun] at houtcome
      have hforward := Accounts.forward houtcome
      exact ⟨hforward, covers_of_length_lt htokens hat hforward
        (Accounts.length_lt houtcome (Nat.le_refl _)), .nil _ _⟩
  | error error after =>
      rw [hrun] at houtcome
      exact houtcome.2.forward

/-- A reader that may consume tokens and returns no items. -/
theorem Passes.reads (h : Passes none level reader) : Reads tokens .fresh (fun _ => []) reader := by
  intro cursor hat
  have houtcome := @h Anywhere ⟨level, 0⟩ (Nat.le_refl _) cursor trivial (suffices_none _)
  have hhere : Here tokens cursor.current.span.start cursor := .inl rfl
  cases hrun : reader.run cursor with
  | ok value after =>
      rw [hrun] at houtcome
      have hforward := Accounts.forward houtcome
      exact ⟨hforward, hhere.forward htokens hat hforward, .nil _ _⟩
  | error error after =>
      rw [hrun] at houtcome
      exact houtcome.2.forward

/-- A reader whose first token tells the byte where it starts. -/
theorem Reads.of_token {reader : Reader Span} {next : Span → Reader β}
    (hreader : Consumes none level reader)
    (hspan : ∀ cursor span after, reader.run cursor = .ok span after → span = cursor.current.span)
    (hnext : ∀ span, Lays tokens span.start .begun post [] items' (next span)) :
    Reads tokens post items' (reader >>= next) := by
  intro cursor hat
  have hfirst := Consumes.reads htokens hreader cursor hat
  rw [EStateM.run_bind]
  cases hrun : reader.run cursor with
  | error error after =>
      rw [hrun] at hfirst
      exact hfirst
  | ok span after =>
      rw [hrun] at hfirst
      obtain rfl := hspan cursor span after hrun
      exact (hnext _ after (hat.trans hfirst.1) hfirst.2).after hfirst.1 fun _ _ hpost => hpost

/-- Behind a reader that consumes a token and returns no items, the same items are held. -/
theorem Consumes.past (h : Consumes none level reader)
    (hnext : ∀ value, Lays tokens low .begun post held items' (next value)) :
    Lays tokens low pre post held items' (reader >>= next) :=
  (Consumes.reads htokens h).bind htokens fun value => by
    rw [List.append_nil]
    exact hnext value

/-- Behind a reader that returns no items, the same items are held. -/
theorem Passes.past (h : Passes none level reader)
    (hnext : ∀ value, Lays tokens low (pre.behind .fresh) post held items' (next value)) :
    Lays tokens low pre post held items' (reader >>= next) :=
  (Passes.reads htokens h).bind htokens fun value => by
    rw [List.append_nil]
    exact hnext value

/-- A token that was seen is consumed. -/
theorem Lays.advance {next : Unit → Reader β}
    (hnext : Lays tokens low .begun post held items' (next ())) :
    Lays tokens low .ready post held items' (advance >>= next) := by
  rintro cursor hat ⟨hhere, hlaid, hkind⟩
  have hforward := Forward.advance cursor
  have hcovers := covers_of_length_lt htokens hat hforward (by
    have := length_advance hkind
    omega)
  have hbegun : Stage.begun.Holds tokens low held cursor.advance :=
    ⟨hhere.covers htokens hat hforward hcovers, hlaid.mono (lastEnd_le htokens hat hforward)⟩
  exact (hnext _ (hat.trans hforward) hbegun).after hforward fun _ _ hpost => hpost

/-- Either the token is consumed, or the reader stays where it is. -/
theorem Accepts.past {kind : TokenKind} {reader : Reader Bool} {next : Bool → Reader β}
    (h : Accepts kind reader) (hkind : kind ≠ .eof)
    (hfound : Lays tokens low .begun post held items' (next true))
    (hnot : Lays tokens low pre post held items' (next false)) :
    Lays tokens low pre post held items' (reader >>= next) := by
  have hadvance : Lays tokens low .ready post held items' (advance >>= fun _ => next true) :=
    .advance htokens hfound
  intro cursor hat hpre
  rw [EStateM.run_bind, h cursor]
  by_cases hhead : headKind cursor.rest = kind
  · rw [if_pos hhead]
    exact hadvance cursor hat ⟨hpre.here, hpre.laid, by rwa [hhead]⟩
  · rw [if_neg hhead]
    exact hnot cursor hat hpre

omit htokens in
/-- A name that is read is one of the identifiers of the file. -/
theorem isIdentOf_expectName {cursor after : Cursor} {name : String} (hat : Forward (.start tokens) cursor)
    (hrun : expectName.run cursor = .ok name after) : IsIdentOf tokens name := by
  rw [expectName, EStateM.run_bind, show currentKind.run cursor = .ok cursor.current.kind cursor from rfl] at hrun
  dsimp only at hrun
  split at hrun
  case h_1 name hkind =>
    obtain ⟨rfl, -⟩ := EStateM.Result.ok.inj hrun
    exact isIdentOf_current hat hkind
  case h_2 => cases hrun

/-- Behind a name that is read, the same items are held. -/
theorem lays_expectName {next : String → Reader β}
    (hnext : ∀ name, IsIdentOf tokens name → Lays tokens low .begun post held items' (next name)) :
    Lays tokens low pre post held items' (expectName >>= next) := by
  intro cursor hat hpre
  have hname := Consumes.reads htokens consumes_expectName cursor hat
  rw [EStateM.run_bind]
  cases hrun : expectName.run cursor with
  | error error after =>
      rw [hrun] at hname
      exact hname
  | ok name after =>
      rw [hrun] at hname
      have hbehind := hpre.behind htokens hat hname.1 hname.2
      rw [List.append_nil] at hbehind
      exact (hnext name (isIdentOf_expectName hat hrun) after (hat.trans hname.1) hbehind).after hname.1
        fun _ _ hpost => hpost

/-- The name of what is declared is read, and the byte where it starts is kept as well. -/
theorem Lays.name {next : Nat → String → Reader β}
    (hnext : ∀ mark name, IsIdentOf tokens name →
      Lays tokens low (.marked mark) post held items' (next mark name)) :
    Lays tokens low .begun post held items' (currentStart >>= fun mark => expectName >>= next mark) := by
  rintro cursor hat ⟨hcovers, hlaid⟩
  have hname := Consumes.reads htokens consumes_expectName cursor hat
  rw [EStateM.run_bind]
  change Lying tokens low post items' cursor ((expectName >>= next _).run cursor)
  rw [EStateM.run_bind]
  cases hrun : expectName.run cursor with
  | error error after =>
      rw [hrun] at hname
      exact hname
  | ok name after =>
      rw [hrun] at hname
      obtain ⟨hforward, hmarked, -⟩ := hname
      have hle := lastEnd_le_start htokens hat
      refine (hnext _ name (isIdentOf_expectName hat hrun) after (hat.trans hforward)
        ⟨covers_forward htokens hcovers hat hforward, hmarked, ?_, hlaid.mono hle⟩).after hforward fun _ _ hpost => hpost
      exact Nat.le_trans (Nat.le_of_lt hcovers.lt) hle

/-- What is read from the kept byte on is laid out behind the items. -/
theorem Lays.from_mark {mark : Nat} (hreader : Lays tokens mark .begun .begun [] items reader)
    (hnext : ∀ value, Lays tokens low .begun post (held ++ items value) items' (next value)) :
    Lays tokens low (.marked mark) post held items' (reader >>= next) := by
  rintro cursor hat ⟨hcovers, hmarked, hle, hlaid⟩
  have hfirst := hreader cursor hat ⟨hmarked, .nil _ _⟩
  rw [EStateM.run_bind]
  cases hrun : reader.run cursor with
  | error error after =>
      rw [hrun] at hfirst
      exact hfirst
  | ok value after =>
      rw [hrun] at hfirst
      obtain ⟨hforward, hcovers', hlaid'⟩ := hfirst
      refine (hnext value after (hat.trans hforward) ⟨covers_forward htokens hcovers hat hforward,
        hlaid.append hlaid' hle (Nat.le_refl _) (Nat.le_of_lt hcovers'.lt)⟩).after hforward
          fun _ _ hpost => hpost

end Sequence

namespace Looks

/-- Looking changes nothing. -/
theorem past {shows : List Token → α → Prop} (h : Looks shows reader)
    (hnext : ∀ value, Lays tokens low pre post held items' (next value)) :
    Lays tokens low pre post held items' (reader >>= next) := by
  intro cursor hat hpre
  obtain ⟨value, hrun, -⟩ := h cursor
  rw [EStateM.run_bind, hrun]
  exact hnext value cursor hat hpre

end Looks

/-- The stage when the kind of the next token is seen. -/
def Stage.seeing (stage : Stage) (kind : TokenKind) : Stage :=
  match kind with
  | .eof => stage
  | _ => stage.seen

theorem Stage.seeing_of_ne {stage : Stage} {kind : TokenKind} (hkind : kind ≠ .eof) :
    stage.seeing kind = stage.seen := by
  cases kind with
  | eof => exact absurd rfl hkind
  | _ => rfl

/-- A reader chosen by the kind of the next token. -/
theorem lays_kind {next : TokenKind → Reader β}
    (hnext : ∀ kind, (∀ name, kind = .ident name → IsIdentOf tokens name) →
      Lays tokens low (pre.seeing kind) post held items' (next kind)) :
    Lays tokens low pre post held items' (currentKind >>= next) := by
  intro cursor hat hpre
  obtain ⟨kind, hrun, hshows⟩ := looks_currentKind cursor
  rw [EStateM.run_bind, hrun]
  refine hnext kind (fun name hname => isIdentOf_current hat ?_) cursor hat ?_
  · rw [kind_current, hshows, hname]
  by_cases hkind : kind = .eof
  · subst hkind
    exact hpre
  · rw [Stage.seeing_of_ne hkind]
    exact hpre.seen (by rwa [hshows])

end Combinators

/-! ### Recovery -/

section Recovery

variable {α β : Type} {tokens : List Token} {low : Nat} {pre post inner : Stage} {held : List Item}
  {items : α → List Item} {items' : β → List Item} {reader : Reader α}

/-- What a reader that failed has read is dropped. -/
theorem Reads.attempt (htokens : InOrder tokens) {next : Except SyntaxError α → Reader β}
    (h : Reads tokens inner items reader)
    (hok : ∀ value, Lays tokens low (pre.behind inner) post (held ++ items value) items'
      (next (.ok value)))
    (herror : ∀ error, Lays tokens low (pre.behind .fresh) post held items' (next (.error error))) :
    Lays tokens low pre post held items' (attempt reader >>= next) := by
  intro cursor hat hpre
  have hfirst := h cursor hat
  rw [EStateM.run_bind, run_attempt]
  cases hrun : reader.run cursor with
  | ok value after =>
      rw [hrun] at hfirst
      exact (hok value after (hat.trans hfirst.1) (hpre.behind htokens hat hfirst.1 hfirst.2)).after
        hfirst.1 fun _ _ hpost => hpost
  | error error after =>
      rw [hrun] at hfirst
      have hforward : Forward cursor after := hfirst
      have hhere : Here tokens cursor.current.span.start after :=
        Here.forward htokens (.inl rfl) hat hforward
      have hinner : Stage.fresh.Holds tokens cursor.current.span.start [] after := ⟨hhere, .nil _ _⟩
      have hbehind := hpre.behind htokens hat hforward hinner
      rw [List.append_nil] at hbehind
      exact (herror error after (hat.trans hforward) hbehind).after hforward fun _ _ hpost => hpost

/-- An error that is kept makes no difference. -/
theorem lays_recordError (error : SyntaxError) {next : Bool → Reader β}
    (hnext : ∀ more, Lays tokens low pre post held items' (next more)) :
    Lays tokens low pre post held items' (recordError error >>= next) := by
  intro cursor hat hpre
  let kept : Cursor := { cursor with errors := cursor.errors ++ [error] }
  have hforward : Forward cursor kept := .of_rest_eq rfl rfl (List.prefix_append _ _)
  exact (hnext _ kept (hat.trans hforward) (hpre.congr rfl rfl)).after hforward fun _ _ hpost => hpost

/-- Whether lambdas are allowed makes no difference. -/
theorem Reads.withLambdas (allowed restored : Bool) (h : Reads tokens post items reader) :
    Reads tokens post items (withLambdas allowed restored reader) := by
  intro cursor hat
  have hset (cursor : Cursor) (lambdas : Bool) : Forward cursor { cursor with lambdas } :=
    .of_rest_eq rfl rfl (List.prefix_refl _)
  have houtcome := h { cursor with lambdas := allowed } (hat.trans (hset cursor allowed))
  rw [run_withLambdas]
  cases hrun : reader.run { cursor with lambdas := allowed } with
  | ok value after =>
      rw [hrun] at houtcome
      exact ⟨(hset cursor allowed).trans (houtcome.1.trans (hset after restored)),
        houtcome.2.congr rfl rfl⟩
  | error error after =>
      rw [hrun] at houtcome
      have hforward : Forward { cursor with lambdas := allowed } after := houtcome
      exact (hset cursor allowed).trans (hforward.trans (hset after restored))

/-- A reader that may run and goes around what is held keeps it where it does not run. -/
theorem Lays.readWhen (found : Bool)
    (h : Lays tokens low pre pre held (fun value => held ++ items value) reader) :
    Lays tokens low pre pre held (fun value => held ++ value.toList.flatMap items)
      (readWhen found reader) := by
  cases found with
  | true =>
      change Lays tokens low pre pre held _ (some <$> reader)
      rw [map_eq_pure_bind]
      exact h.consume fun value => .pure fun item => by simp
  | false => exact .pure fun item => by simp

theorem Reads.readWhen (found : Bool) (h : Reads tokens post items reader) :
    Reads tokens .fresh (fun value => value.toList.flatMap items) (readWhen found reader) := by
  cases found with
  | true =>
      refine (h.map fun value low high hlaid => ?_).forget
      rwa [Option.toList_some, List.flatMap_singleton]
  | false => exact .of_lays fun low => .pure fun item => Nat.le_refl _

end Recovery

/-! ### Loops -/

section Loops

variable {α : Type} {tokens : List Token} {low : Nat} {stage : Stage} {items : α → List Item}

/-- What a step yields, or what it was given where it yields nothing. -/
def stepItems (items : α → List Item) (value : α) : Option α → List Item
  | some next => items next
  | none => items value

/-- A loop lays out items if every step keeps those of its state laid out and adds some behind. -/
theorem lays_iterate (items : α → List Item) {held : List Item} {step : α → Reader (Option α)} {value : α}
    (hheld : items value = held)
    (hstep : ∀ value, Lays tokens low stage stage (items value) (stepItems items value) (step value)) :
    Lays tokens low stage stage held items (iterate step value) := by
  subst hheld
  refine looks_loopBound.past fun bound => ?_
  induction bound generalizing value with
  | zero => exact looks_get.past fun _ => .throw _
  | succ bound ih =>
      refine (hstep value).consume fun next => ?_
      cases next with
      | some next => exact ih
      | none => exact .yield fun _ h => h

variable (htokens : InOrder tokens)
include htokens

/-- Values that are collected, the last one first, are laid out side by side. -/
theorem Reads.collect {step : Reader (Option α)}
    (hstep : Reads tokens .fresh (fun value => value.toList.flatMap items) step) :
    Reads tokens .fresh (fun values => values.flatMap items) (collect step) := by
  refine .of_lays fun low => Lays.consume (lays_iterate (fun values : List α => values.flatMap items) rfl
    fun values => hstep.bind htokens fun value => ?_) fun values => .pure fun item => ?_
  · cases value with
    | some value => exact .pure fun item => by simp +arith [stepItems]
    | none => exact .pure fun item => by simp [stepItems]
  · exact Nat.le_of_eq ((values.reverse_perm.flatMap_right items).count_eq item)

theorem Reads.separated (separator : Symbol) {item : Reader α} (h : Reads tokens .begun items item) :
    Reads tokens .begun (fun values => values.flatMap items) (separated separator item) := by
  refine .of_lays fun low => h.bind htokens fun first => ?_
  have hothers : Reads tokens .fresh (fun values => values.flatMap items) (Grammar.collect do
      if ← acceptSymbol separator then return some (← item) else return none) := ?_
  · exact hothers.bind htokens fun others => .pure fun item => Nat.le_refl _
  refine .collect htokens (.of_lays fun low => ?_)
  refine (accepts_acceptSymbol separator).past htokens (by simp) ?_ (.pure fun item => Nat.le_refl _)
  exact .forget <| h.bind htokens fun value => .pure fun item => by simp

theorem Reads.enumerated (close separator : Symbol) {item : Reader α}
    (h : Reads tokens .begun items item) :
    Reads tokens .fresh (fun values => values.flatMap items) (enumerated close separator item) := by
  refine .of_lays fun low => Lays.consume (lays_iterate
    (fun scan : List α × Bool => scan.1.flatMap items) rfl fun scan => ?_) fun scan =>
      .pure fun item => Nat.le_of_eq ((scan.1.reverse_perm.flatMap_right items).count_eq item)
  refine (looks_atSymbol close).past fun closing => looks_atEnd.past fun ended => .ite ?_ ?_
  · exact .pure fun item => Nat.le_refl _
  · refine .forget <| h.bind htokens fun value => (accepts_acceptSymbol separator).past htokens (by simp)
      ?_ ?_
    all_goals exact .pure fun item => by simp +arith [stepItems]

end Loops

/-! ### New nodes -/

section Nodes

variable {α : Type} {tokens : List Token} {low : Nat} {held others : List Item}

/-- A span of all that was read since the first byte. -/
theorem lays_spanFrom {items : α → List Item} {make : Span → α}
    (h : ∀ high, Span.Covers tokens ⟨low, high⟩ → Laid tokens low high held →
      Laid tokens low high (items (make ⟨low, high⟩))) :
    Lays tokens low .begun .begun held items (spanFrom low >>= fun span => pure (make span)) :=
  fun cursor _ hpre => ⟨.refl cursor, hpre.1, h _ hpre.1 hpre.2⟩

/-- A new number makes no difference. -/
theorem lays_freshId {items : α → List Item} {pre post : Stage} {next : NodeId → Reader α}
    (hnext : ∀ id, Lays tokens low pre post held items (next id)) :
    Lays tokens low pre post held items (freshId >>= next) := by
  intro cursor hat hpre
  let numbered : Cursor := { cursor with nextId := cursor.nextId + 1 }
  have hforward : Forward cursor numbered := .of_rest_eq rfl rfl (List.prefix_refl _)
  exact (hnext cursor.nextId numbered (hat.trans hforward) (hpre.congr rfl rfl)).after hforward
    fun _ _ hpost => hpost

/-- A node whose parts were read goes around all that was read since the first byte, beside what else is
held. -/
theorem laid_beside {node : TreeNode} {high : Nat}
    (hspans : ∀ span ∈ node.ownSpans, span = ⟨low, high⟩) (hothers : node.expr? = none ∨ others = [])
    (hbehind : ∀ item ∈ node.enclosed, item.Behind low)
    (hnames : ∀ name ∈ node.declaredNames, IsIdentOf tokens name)
    (hpieces : ∀ item, (others ++ node.pieces).count item ≤ held.count item)
    (hcovers : Span.Covers tokens ⟨low, high⟩) (hlaid : Laid tokens low high held) :
    Laid tokens low high (others ++ node.items) :=
  (hlaid.of_subperm (List.subperm_iff_count.mpr hpieces)).wrap_span hspans hcovers hothers hbehind hnames

/-- A node whose parts were read goes around all that was read since the first byte. -/
theorem laid_node {node : TreeNode} {high : Nat} (hspans : ∀ span ∈ node.ownSpans, span = ⟨low, high⟩)
    (hbehind : ∀ item ∈ node.enclosed, item.Behind low)
    (hnames : ∀ name ∈ node.declaredNames, IsIdentOf tokens name)
    (hpieces : ∀ item, node.pieces.count item ≤ held.count item)
    (hcovers : Span.Covers tokens ⟨low, high⟩) (hlaid : Laid tokens low high held) :
    Laid tokens low high node.items :=
  laid_beside hspans (.inr rfl) hbehind hnames hpieces hcovers hlaid

/-- A construct that bears no span, with its parts. The body of a lambda does not begin at the first byte. -/
theorem laid_bare (others : List Item) {node : TreeNode} {high : Nat} (hspans : node.ownSpans = [])
    (hothers : node.expr? = none)
    (hbehind : ∀ item ∈ node.enclosed, item.Behind low)
    (hnames : ∀ name ∈ node.declaredNames, IsIdentOf tokens name)
    (hpieces : ∀ item, (others ++ node.pieces).count item ≤ held.count item)
    (hlaid : Laid tokens low high held) : Laid tokens low high (others ++ node.items) :=
  (hlaid.of_subperm (List.subperm_iff_count.mpr hpieces)).wrap_bare hspans (.inl hothers) hbehind hnames

theorem lays_mkExpr {kind : ExprKind}
    (hparts : ∀ item, (TreeNode.itemsOf kind.parts).count item ≤ held.count item) :
    Lays tokens low .begun .begun held (fun expr => (TreeNode.expr expr).items) (mkExpr kind low) :=
  lays_freshId fun _ => lays_spanFrom fun _ =>
    laid_node (List.forall_mem_singleton.mpr rfl) (List.forall_mem_nil _) (List.forall_mem_nil _) hparts

theorem lays_mkStmt {kind : StmtKind}
    (hparts : ∀ item, (TreeNode.itemsOf kind.parts).count item ≤ held.count item) :
    Lays tokens low .begun .begun held (fun stmt => (TreeNode.stmt stmt).items) (mkStmt kind low) :=
  lays_freshId fun _ => lays_spanFrom fun _ =>
    laid_node (List.forall_mem_singleton.mpr rfl) (List.forall_mem_nil _) (List.forall_mem_nil _) hparts

end Nodes

end LockDiscipline.Grammar
