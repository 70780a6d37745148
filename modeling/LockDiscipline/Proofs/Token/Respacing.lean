import LockDiscipline.Proofs.Token.Rules
/-!
# Respacing a source

A lexeme is as long as its rule allows, so what follows it may belong to it: `>` and `=` are two
tokens with a blank between them and one without. The other way around nothing is at stake. A lexeme
that was cut from a text is found again where a blank or the end of a text follows, by the same rule
and with the same length: the rules for numbers, words and symbols never take a blank, a quoted literal
ends at its own quote, and no rule that is preferred comes to the same length unless it did before.

So a source may be written anew with its lexemes one blank apart. The main statement is that this
changes no token but for the place where it stands. It holds for every source: those with errors lose
only what was not a token.
-/

namespace LockDiscipline

open Lexer

namespace Rule

/-- A lexeme that is also one by itself and denotes a token. -/
structure Spells (rule : Rule) (lexeme : List Char) : Prop where
  ne_nil : lexeme ≠ []
  ne_blank : rule ≠ .blank
  ne_comment : rule ≠ .comment
  length?_eq : rule.length? lexeme = some lexeme.length

/-- The end of a text, or a text that begins with blank space. -/
def AtGap (rest : List Char) : Prop :=
  ∀ c ∈ rest.head?, isBlank c

namespace Spells

variable {rule : Rule} {lexeme : List Char}

theorem exists_cons (h : Spells rule lexeme) :
    ∃ c more, lexeme = c :: more ∧ rule.begins c ∧ ¬isBlank c := by
  obtain ⟨c, more, rfl⟩ := List.exists_cons_of_ne_nil h.ne_nil
  have hbegins := begins_of_length? h.length?_eq (Nat.succ_pos _)
  exact ⟨c, more, rfl, hbegins, fun hc => h.ne_blank (eq_blank_of_begins hc hbegins)⟩

/-- Comments begin like a division only. -/
theorem commentLength_append (h : Spells rule lexeme) {after : List Char} {length : Nat}
    (hlength : commentLength (lexeme ++ after) = some length) :
    lexeme = ['/'] ∧ 2 ≤ length ∧ ∃ c ∈ after.head?, c = '/' ∨ c = '*' := by
  obtain ⟨c, more, rfl, hbegins, -⟩ := h.exists_cons
  have hc : c = '/' := by
    rw [List.cons_append, commentLength.eq_def] at hlength
    split at hlength
    case h_1 heq => exact (List.cons.inj heq).1
    case h_2 heq => exact (List.cons.inj heq).1
    case h_3 => cases hlength
  subst hc
  have hsymbol : rule = .symbol := (eq_of_begins_quote.2.2 hbegins).resolve_right h.ne_comment
  subst hsymbol
  obtain ⟨symbol, hlongest, heq⟩ := Option.map_eq_some_iff.mp h.length?_eq
  have hprefix := List.isPrefixOf_iff_prefix.mp (isPrefixOf_of_longestSymbol? hlongest)
  have htext : symbol.text.toList = '/' :: more := hprefix.eq_of_length heq
  have hmore : more = [] ∨ more = ['='] := by
    revert htext
    cases symbol <;> simp +contextual [Symbol.text, eq_comm]
  rcases hmore with rfl | rfl
  · refine ⟨rfl, ?_⟩
    rw [List.singleton_append, commentLength.eq_def] at hlength
    split at hlength
    case h_1 heq =>
      obtain ⟨-, rfl⟩ := List.cons.inj heq
      obtain rfl := Option.some.inj hlength
      exact ⟨Nat.le_add_right _ _, '/', rfl, .inl rfl⟩
    case h_2 heq =>
      obtain ⟨-, rfl⟩ := List.cons.inj heq
      obtain rfl := Option.some.inj hlength
      exact ⟨Nat.le_add_right _ _, '*', rfl, .inr rfl⟩
    case h_3 => cases hlength
  · cases hlength

/-- Where a lexeme is followed by a gap no rule finds a longer one. -/
theorem length_le (h : Spells rule lexeme) {rest : List Char} (hrest : AtGap rest) {other : Rule}
    {length : Nat} (hlength : other.length? (lexeme ++ rest) = some length) :
    length ≤ lexeme.length := by
  obtain ⟨c, more, rfl, hbegins, hblank⟩ := h.exists_cons
  -- The blank behind the lexeme would be a part of a longer one.
  have hsolid {length? : List Char → Option Nat} (hmunches : Rule.Solid length?)
      (hlength : length? (c :: more ++ rest) = some length) : length ≤ (c :: more).length := by
    by_contra hlong
    have hle := hmunches.le_length hlength
    cases rest with
    | nil =>
        rw [List.append_nil] at hle
        exact hlong hle
    | cons b rest =>
        refine hmunches.not_blank hlength b ?_ (hrest b rfl)
        rw [List.take_append, List.mem_append]
        right
        obtain ⟨extra, heq⟩ := Nat.exists_eq_succ_of_ne_zero
          (Nat.sub_ne_zero_of_lt (Nat.lt_of_not_le hlong))
        rw [heq, List.take_succ_cons]
        exact List.mem_cons_self
  have hquoted {length? : List Char → Option Nat} (hclosed : Closed length?)
      (hsame : length? (c :: more) = some (c :: more).length)
      (hlength : length? (c :: more ++ rest) = some length) : length ≤ (c :: more).length := by
    have hagain := (hclosed hsame).2 rest
    rw [List.take_length, hlength] at hagain
    exact (Option.some.inj hagain).le
  rcases Nat.eq_zero_or_pos length with rfl | hpos
  · exact Nat.zero_le _
  have hother := begins_of_length? hlength hpos
  cases other with
  | blank => exact absurd hother hblank
  | comment =>
      obtain ⟨-, -, d, hd, hmark⟩ := h.commentLength_append hlength
      rcases hmark with rfl | rfl <;> exact absurd (hrest _ hd) (by decide)
  | symbol => exact hsolid solid_symbol hlength
  | hexadecimal => exact hsolid solid_hexadecimal hlength
  | binary => exact hsolid solid_binary hlength
  | floating => exact hsolid solid_floating hlength
  | decimal => exact hsolid solid_decimal hlength
  | word => exact hsolid solid_word hlength
  | char =>
      obtain rfl := beq_iff_eq.mp hother
      obtain rfl := eq_of_begins_quote.1 hbegins
      exact hquoted closed_char h.length?_eq hlength
  | string =>
      obtain rfl := beq_iff_eq.mp hother
      obtain rfl := eq_of_begins_quote.2.1 hbegins
      exact hquoted closed_string h.length?_eq hlength

/-- Which rules take just a lexeme does not depend on what follows it, if none takes more. -/
theorem length?_append_iff (h : Spells rule lexeme) {after : List Char} {other : Rule}
    (hle : ∀ length, other.length? (lexeme ++ after) = some length → length ≤ lexeme.length) :
    other.length? (lexeme ++ after) = some lexeme.length ↔
      other.length? lexeme = some lexeme.length ∧ other ≠ .comment := by
  by_cases hother : other = .comment
  · subst hother
    refine ⟨fun hlength => ?_, fun hlength => absurd rfl hlength.2⟩
    obtain ⟨heq, hlong, -⟩ := h.commentLength_append hlength
    rw [heq] at hlong
    exact absurd hlong (by decide)
  · refine ⟨fun hlength => ⟨?_, hother⟩, fun hlength => ?_⟩
    · have htake := (firm hother).take hlength
      rwa [List.take_left] at htake
    · obtain ⟨length, hlength, hless⟩ := (firm hother).grows hlength.1 after
      rw [hlength, Nat.le_antisymm (hle length hlength) hless]

end Spells

/-! ### The longest lexeme -/

theorem mem_all (rule : Rule) : rule ∈ all := by
  cases rule <;> decide

/-- A rule comes first among those with the longest lexeme at the head of a text, or none of them has a
lexeme there. -/
def IsFirstLongest (text : List Char) (rules : List Rule) : Option (Rule × Nat) → Prop
  | some (best, length) =>
      0 < length ∧ rules.find? (fun rule : Rule => rule.length? text = some length) = some best ∧
        ∀ rule ∈ rules, ∀ other, rule.length? text = some other → other ≤ length
  | none => ∀ rule ∈ rules, ∀ other, rule.length? text = some other → other = 0

theorem IsFirstLongest.keep {text : List Char} {rules : List Rule} {best : Rule × Nat}
    (h : IsFirstLongest text rules (some best)) {last : Rule}
    (hlast : ∀ length, last.length? text = some length → length ≤ best.2) :
    IsFirstLongest text (rules ++ [last]) (some best) := by
  obtain ⟨hpos, hfind, hmost⟩ := h
  refine ⟨hpos, by rw [List.find?_append, hfind, Option.some_or], fun rule hrule => ?_⟩
  rcases List.mem_append.mp hrule with hrule | hrule
  · exact hmost rule hrule
  · obtain rfl := List.mem_singleton.mp hrule
    exact hlast

theorem IsFirstLongest.next {text : List Char} {rules : List Rule} {last : Rule} {length : Nat}
    (hless : ∀ rule ∈ rules, ∀ other, rule.length? text = some other → other < length)
    (hlast : last.length? text = some length) (hpos : 0 < length) :
    IsFirstLongest text (rules ++ [last]) (some (last, length)) := by
  have hnone : rules.find? (fun rule : Rule => rule.length? text = some length) = none := by
    refine List.find?_eq_none.mpr fun rule hrule heq => ?_
    exact absurd (hless rule hrule _ (of_decide_eq_true heq)) (Nat.lt_irrefl _)
  refine ⟨hpos, ?_, fun rule hrule other hother => ?_⟩
  · rw [List.find?_append, hnone, Option.none_or]
    exact List.find?_cons_of_pos (decide_eq_true hlast)
  · rcases List.mem_append.mp hrule with hrule | hrule
    · exact (hless rule hrule other hother).le
    · obtain rfl := List.mem_singleton.mp hrule
      exact (Option.some.inj (hother.symm.trans hlast)).le

/-- The search for the longest lexeme finds the first of the longest. -/
theorem isFirstLongest_longest? (text : List Char) : IsFirstLongest text all (longest? text) := by
  rw [longest?]
  generalize all = rules
  induction rules using List.reverseRec with
  | nil => exact nofun
  | append_singleton rules last ih =>
      rw [List.foldl_append, List.foldl_cons, List.foldl_nil]
      generalize rules.foldl _ none = best? at ih ⊢
      cases hlast : last.length? text with
      | none =>
          cases best? with
          | none =>
              intro rule hrule
              rcases List.mem_append.mp hrule with hrule | hrule
              · exact ih rule hrule
              · obtain rfl := List.mem_singleton.mp hrule
                rw [hlast]
                exact nofun
          | some best => exact ih.keep fun length hlength => by simp [hlast] at hlength
      | some length =>
          cases best? with
          | none =>
              by_cases hpos : 0 < length
              · simp only [hpos, if_true]
                refine .next (fun rule hrule other hother => ?_) hlast hpos
                rwa [ih rule hrule other hother]
              · simp only [hpos, if_false]
                intro rule hrule other hother
                rcases List.mem_append.mp hrule with hrule | hrule
                · exact ih rule hrule other hother
                · obtain rfl := List.mem_singleton.mp hrule
                  obtain rfl := Option.some.inj (hother.symm.trans hlast)
                  exact Nat.eq_zero_of_not_pos hpos
          | some best =>
              by_cases hless : best.2 < length
              · simp only [hless, if_true]
                refine .next (fun rule hrule other hother => ?_) hlast (Nat.zero_lt_of_lt hless)
                exact (ih.2.2 rule hrule other hother).trans_lt hless
              · simp only [hless, if_false]
                refine ih.keep fun other hother => ?_
                obtain rfl := Option.some.inj (hother.symm.trans hlast)
                exact Nat.le_of_not_lt hless

theorem IsFirstLongest.unique {text : List Char} {rules : List Rule} {best : Rule × Nat}
    {other? : Option (Rule × Nat)} (h : IsFirstLongest text rules (some best))
    (hother : IsFirstLongest text rules other?) : other? = some best := by
  obtain ⟨hpos, hfind, hmost⟩ := h
  have hmem := List.mem_of_find?_eq_some hfind
  have hlength : best.1.length? text = some best.2 := by simpa using List.find?_some hfind
  cases other? with
  | none => exact absurd (hother _ hmem _ hlength) hpos.ne'
  | some other =>
      obtain ⟨-, hfind', hmost'⟩ := hother
      have hmem' := List.mem_of_find?_eq_some hfind'
      have hlength' : other.1.length? text = some other.2 := by simpa using List.find?_some hfind'
      have hsame : other.2 = best.2 :=
        Nat.le_antisymm (hmost _ hmem' _ hlength') (hmost' _ hmem _ hlength)
      rw [hsame] at hfind'
      exact congrArg some (Prod.ext (Option.some.inj (hfind'.symm.trans hfind)) hsame)

/-- A lexeme that was cut from a text is found again where a gap follows. -/
theorem longest?_append_gap {rule : Rule} {lexeme after rest : List Char}
    (hblank : rule ≠ .blank) (hcomment : rule ≠ .comment)
    (h : longest? (lexeme ++ after) = some (rule, lexeme.length)) (hrest : AtGap rest) :
    longest? (lexeme ++ rest) = some (rule, lexeme.length) := by
  have hlongest := isFirstLongest_longest? (lexeme ++ after)
  rw [h] at hlongest
  obtain ⟨hpos, hfind, hmost⟩ := hlongest
  have hspells : Spells rule lexeme := by
    refine ⟨List.ne_nil_of_length_pos hpos, hblank, hcomment, ?_⟩
    have htake := (firm hcomment).take (length?_of_longest? h)
    rwa [List.take_left] at htake
  have hless {other : Rule} {length : Nat}
      (hlength : other.length? (lexeme ++ rest) = some length) : length ≤ lexeme.length :=
    hspells.length_le hrest hlength
  refine IsFirstLongest.unique ⟨hpos, ?_, fun other _ _ => hless⟩ (isFirstLongest_longest? _)
  rw [← hfind]
  congr 1
  funext other
  rw [decide_eq_decide, hspells.length?_append_iff fun _ => hless,
    hspells.length?_append_iff (hmost other (mem_all other))]

end Rule

namespace Lexer

/-! ### Sources of spaced lexemes -/

/-- A lexeme denotes a token wherever a gap follows it. -/
structure Denotes (lexeme : List Char) (kind : TokenKind) : Prop where
  ne_nil : lexeme ≠ []
  exists_rule : ∃ rule, (∀ span, tokenKind? rule lexeme span = .ok (some kind)) ∧
    ∀ rest, Rule.AtGap rest → Rule.longest? (lexeme ++ rest) = some (rule, lexeme.length)

/-- What a lexeme denotes does not depend on where it stands. -/
theorem tokenKind?_congr {rule : Rule} {lexeme : List Char} {span : Span} {kind : TokenKind}
    (h : tokenKind? rule lexeme span = .ok (some kind)) (other : Span) :
    tokenKind? rule lexeme other = .ok (some kind) := by
  cases rule with
  | blank | comment | symbol | floating | word => exact h
  | hexadecimal | binary | decimal | char | string =>
      simp only [tokenKind?] at h ⊢
      split at h
      case h_1 heq => simpa [heq] using h
      case h_2 => cases h

/-- Every token that the lexer finds is denoted by its lexeme alone. -/
theorem Analysed.denotes {position errors : Nat} {text : List Char} {result : Result}
    (h : Analysed position errors text result) {token : Token} (htoken : token ∈ result.tokens) :
    ∃ before lexeme after, text = before ++ (lexeme ++ after) ∧ Denotes lexeme token.kind ∧
      token.span = ⟨position + Text.byteLength before,
        position + Text.byteLength before + Text.byteLength lexeme⟩ := by
  have hlater {position length : Nat} {text : List Char} {token : Token}
      (h : ∃ before lexeme after, text.drop length = before ++ (lexeme ++ after) ∧
        Denotes lexeme token.kind ∧ token.span =
          ⟨position + Text.byteLength (text.take length) + Text.byteLength before,
            position + Text.byteLength (text.take length) + Text.byteLength before +
              Text.byteLength lexeme⟩) :
      ∃ before lexeme after, text = before ++ (lexeme ++ after) ∧ Denotes lexeme token.kind ∧
        token.span = ⟨position + Text.byteLength before,
          position + Text.byteLength before + Text.byteLength lexeme⟩ := by
    obtain ⟨before, lexeme, after, hdrop, hdenotes, hspan⟩ := h
    refine ⟨text.take length ++ before, lexeme, after, ?_, hdenotes, ?_⟩
    · rw [List.append_assoc, ← hdrop, List.take_append_drop]
    · rw [hspan, Text.byteLength_append, Nat.add_assoc position]
  induction h with
  | done | limit => cases htoken
  | error error hlexeme herrors hrest ih => exact hlater (ih htoken)
  | gap hlexeme hlength hkind hrest ih => exact hlater (ih htoken)
  | @token position errors length text result rule kind hlexeme hlongest hkind hrest ih =>
      rcases List.mem_cons.mp htoken with rfl | htoken
      · refine ⟨[], text.take length, text.drop length, (List.take_append_drop length text).symm,
          ⟨hlexeme, rule, tokenKind?_congr hkind, fun rest hgap => ?_⟩, rfl⟩
        have hblank : rule ≠ .blank := by
          rintro rfl
          cases hkind
        have hcomment : rule ≠ .comment := by
          rintro rfl
          cases hkind
        have hlength : (text.take length).length = length :=
          List.length_take_of_le ((Rule.firm hcomment).le_length (length?_of_longest? hlongest))
        have hcut : Rule.longest? (text.take length ++ text.drop length) =
            some (rule, (text.take length).length) := by
          rw [List.take_append_drop, hlength, hlongest]
        exact Rule.longest?_append_gap hblank hcomment hcut hgap
      · exact hlater (ih htoken)

/-- Lexemes with one blank between neighbours. -/
def spaced (lexemes : List (List Char)) : List Char :=
  [' '].intercalate lexemes

theorem Denotes.head_not_blank {lexeme : List Char} {kind : TokenKind} (h : Denotes lexeme kind)
    (rest : List Char) : ∀ c ∈ (lexeme ++ rest).head?, ¬isBlank c := by
  obtain ⟨c, more, rfl⟩ := List.exists_cons_of_ne_nil h.ne_nil
  rintro _ ⟨⟩ hblank
  obtain ⟨rule, hkind, hlongest⟩ := h.exists_rule
  have hfound := hlongest [] nofun
  rw [List.append_nil] at hfound
  have hbegins := Rule.begins_of_length? (length?_of_longest? hfound) (longest?_pos hfound)
  obtain rfl := Rule.eq_blank_of_begins hblank hbegins
  cases hkind default

/-- A list of lexemes begins with the first of them. -/
theorem exists_spaced_cons (lexeme : List Char) (lexemes : List (List Char)) :
    ∃ rest, spaced (lexeme :: lexemes) = lexeme ++ rest := by
  cases lexemes with
  | nil => exact ⟨[], by simp [spaced]⟩
  | cons next lexemes => exact ⟨' ' :: spaced (next :: lexemes), by simp [spaced]⟩

/-- An empty lexeme at the end adds no more than a blank. -/
theorem spaced_append_nil (lexemes : List (List Char)) :
    ∃ tail, spaced (lexemes ++ [[]]) = spaced lexemes ++ tail ∧ (tail = [] ∨ tail = [' ']) := by
  induction lexemes with
  | nil => exact ⟨[], rfl, .inl rfl⟩
  | cons lexeme lexemes ih =>
      cases lexemes with
      | nil => exact ⟨[' '], by simp [spaced], .inr rfl⟩
      | cons next lexemes =>
          obtain ⟨tail, heq, htail⟩ := ih
          refine ⟨tail, ?_, htail⟩
          simpa [spaced] using heq

theorem run_lexeme_gap (recovery : Recovery) {lexeme rest : List Char} {kind : TokenKind} (h : Denotes lexeme kind)
    (hrest : Rule.AtGap rest) (position : Nat) :
    run recovery 0 position 0 (lexeme ++ rest) =
      .cons (.ok ⟨kind, ⟨position, position + Text.byteLength lexeme⟩⟩)
        (run recovery 0 (position + Text.byteLength lexeme) 0 rest) := by
  obtain ⟨rule, hkind, hlongest⟩ := h.exists_rule
  have hfound := hlongest rest hrest
  obtain ⟨c, more, rfl⟩ := List.exists_cons_of_ne_nil h.ne_nil
  rw [List.cons_append] at hfound ⊢
  have htake : (c :: (more ++ rest)).take (c :: more).length = c :: more := List.take_left
  have hdrop : (c :: (more ++ rest)).drop (c :: more).length = rest := List.drop_left
  have hbehind := run_lexeme recovery position 0 c (more ++ rest) (longest?_pos hfound)
  rw [htake, hdrop] at hbehind
  rw [run]
  simp only [hfound, htake, hkind]
  rw [if_neg (by decide), hbehind]

theorem run_blank (recovery : Recovery) {rest : List Char} (hrest : ∀ c ∈ rest.head?, ¬isBlank c) (position : Nat) :
    run recovery 0 position 0 (' ' :: rest) = run recovery 0 (position + 1) 0 rest := by
  have hcount : countWhile isBlank rest = 0 := by
    cases rest with
    | nil => rfl
    | cons c rest => exact congrArg List.length (List.takeWhile_cons_of_neg (hrest c rfl))
  have hblank : Rule.length? .blank (' ' :: rest) = some 1 := by
    rw [Rule.length?, countWhile, List.takeWhile_cons_of_pos (by decide), List.length_cons,
      ← countWhile, hcount]
  have hlongest : Rule.longest? (' ' :: rest) = some (.blank, 1) := by
    refine Rule.IsFirstLongest.unique ⟨Nat.one_pos, ?_, ?_⟩ (Rule.isFirstLongest_longest? _)
    · exact List.find?_cons_of_pos (decide_eq_true hblank)
    · intro rule _ length hlength
      rcases Nat.eq_zero_or_pos length with rfl | hpos
      · exact Nat.zero_le _
      · obtain rfl := Rule.eq_blank_of_begins (by decide) (Rule.begins_of_length? hlength hpos)
        exact (Option.some.inj (hlength.symm.trans hblank)).le
  rw [run]
  simp only [hlongest, tokenKind?]
  rfl

/-- Lexemes with one blank between neighbours are read as the tokens that they denote. -/
theorem run_spaced (recovery : Recovery) {lexemes : List (List Char)} {kinds : List TokenKind}
    (h : List.Forall₂ Denotes lexemes kinds) {tail : List Char} (hgap : Rule.AtGap tail)
    (htail : ∀ position, run recovery 0 position 0 tail = ⟨[], []⟩) (position : Nat) :
    (run recovery 0 position 0 (spaced lexemes ++ tail)).errors = [] ∧
      (run recovery 0 position 0 (spaced lexemes ++ tail)).tokens.map (·.kind) = kinds := by
  induction h generalizing position with
  | nil =>
      have hspaced : spaced [] ++ tail = tail := rfl
      rw [hspaced, htail]
      exact ⟨rfl, rfl⟩
  | @cons lexeme kind lexemes kinds hlexeme hlexemes ih =>
      cases hlexemes with
      | nil =>
          have hspaced : spaced [lexeme] ++ tail = lexeme ++ tail := by simp [spaced]
          rw [hspaced, run_lexeme_gap recovery hlexeme hgap, htail]
          exact ⟨rfl, rfl⟩
      | @cons next _ lexemes _ hnext _ =>
          have hspaced : spaced (lexeme :: next :: lexemes) ++ tail =
              lexeme ++ ' ' :: (spaced (next :: lexemes) ++ tail) := by
            simp [spaced]
          have hhead : ∀ c ∈ (spaced (next :: lexemes) ++ tail).head?, ¬isBlank c := by
            obtain ⟨rest, heq⟩ := exists_spaced_cons next lexemes
            rw [heq, List.append_assoc]
            exact hnext.head_not_blank _
          rw [hspaced, run_lexeme_gap recovery hlexeme (by rintro _ ⟨⟩; decide), run_blank recovery hhead]
          obtain ⟨herrors, htokens⟩ := ih (position + Text.byteLength lexeme + 1)
          exact ⟨herrors, congrArg (kind :: ·) htokens⟩

/-- The tokens of a text are cut out of it as the lexemes that denote them. -/
theorem exists_lexemes {source : List Char} {tokens : List Token}
    (h : ∀ token ∈ tokens, ∃ lexeme,
      Text.slice? source token.span.start token.span.stop = some lexeme ∧
        Denotes lexeme token.kind) :
    ∃ lexemes, tokens.map (fun token => Text.slice? source token.span.start token.span.stop) =
        lexemes.map some ∧ List.Forall₂ Denotes lexemes (tokens.map (·.kind)) := by
  induction tokens with
  | nil => exact ⟨[], rfl, .nil⟩
  | cons token tokens ih =>
      obtain ⟨lexeme, hslice, hdenotes⟩ := h token List.mem_cons_self
      obtain ⟨lexemes, hslices, hall⟩ := ih fun other hother => h other (List.mem_cons_of_mem _ hother)
      refine ⟨lexeme :: lexemes, ?_, .cons hdenotes hall⟩
      rw [List.map_cons, hslice, hslices, List.map_cons]

/-- A source may be written anew with its lexemes one blank apart, with or without a blank before the
end of the file, which has no characters: the tokens are the same but for where they stand, and there
are no errors. -/
theorem tokenize_spaced (recovery : Recovery) (source : List Char) :
    ∃ lexemes, (analyse recovery source).tokens.map
        (fun token => Text.slice? source token.span.start token.span.stop) = lexemes.map some ∧
      ∀ respaced ∈ [spaced lexemes, spaced lexemes.dropLast],
        (analyse recovery respaced).errors = [] ∧
          (analyse recovery respaced).tokens.map (·.kind) = (analyse recovery source).tokens.map (·.kind) := by
  have hrun := analysed_run recovery 0 0 source
  have hlexeme (token : Token) (htoken : token ∈ (run recovery 0 0 0 source).tokens) : ∃ lexeme,
      Text.slice? source token.span.start token.span.stop = some lexeme ∧
        Denotes lexeme token.kind := by
    obtain ⟨before, lexeme, after, heq, hdenotes, hspan⟩ := hrun.denotes htoken
    refine ⟨lexeme, ?_, hdenotes⟩
    rw [hspan, heq, Nat.zero_add]
    exact Text.slice?_append before lexeme after
  obtain ⟨lexemes, hslices, hdenotes⟩ := exists_lexemes hlexeme
  have hend : Text.slice? source (Text.byteLength source) (Text.byteLength source) = some [] := by
    have hslice := Text.slice?_append source [] []
    rwa [List.append_nil, List.append_nil] at hslice
  have hread {tail : List Char} (htail : tail = [] ∨ tail = [' ']) :
      (analyse recovery (spaced lexemes ++ tail)).errors = [] ∧
        (analyse recovery (spaced lexemes ++ tail)).tokens.map (·.kind) =
          (analyse recovery source).tokens.map (·.kind) := by
    have hgap : Rule.AtGap tail := by
      rcases htail with rfl | rfl
      · exact nofun
      · rintro _ ⟨⟩
        decide
    have hnone (position : Nat) : run recovery 0 position 0 tail = ⟨[], []⟩ := by
      rcases htail with rfl | rfl
      · rfl
      · rw [run_blank recovery (by simp)]
        rfl
    obtain ⟨herrors, htokens⟩ := run_spaced recovery hdenotes hgap hnone 0
    refine ⟨herrors, ?_⟩
    simp only [analyse, List.map_append, htokens, List.map_cons, List.map_nil]
  refine ⟨lexemes ++ [[]], ?_, ?_⟩
  · simp only [analyse, List.map_append, hslices, List.map_cons, List.map_nil, hend]
  · obtain ⟨tail, heq, htail⟩ := spaced_append_nil lexemes
    refine List.forall_mem_cons.mpr ⟨heq ▸ hread htail, List.forall_mem_singleton.mpr ?_⟩
    rw [List.dropLast_concat, ← List.append_nil (spaced lexemes)]
    exact hread (.inl rfl)

end Lexer
end LockDiscipline
