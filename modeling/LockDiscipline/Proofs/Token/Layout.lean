import Mathlib.Data.List.Induction
import LockDiscipline.Proofs.Grammar.Heads
/-!
# The layout of a source

The lexer cuts a text into lexemes from left to right. `Analysed` says which steps it takes, one
lexeme each, so that what holds of all its results is shown by induction on the steps and not on the
characters. The tokens stand in the order of the text, none reaches into the next, and none begins or
ends inside of a character. Where there are no errors, nothing but blanks and comments stands
between them: a comment is closed, runs up to the end of its line or runs up to the end of the file.
-/

namespace LockDiscipline

namespace Text

theorem byteLength_pos {text : List Char} (h : text ≠ []) : 0 < byteLength text := by
  cases text with
  | nil => exact absurd rfl h
  | cons c rest => exact Nat.lt_of_lt_of_le c.utf8Size_pos (Nat.le_add_right _ _)

theorem dropBytes?_append (before after : List Char) :
    dropBytes? (byteLength before) (before ++ after) = some after := by
  induction before with
  | nil => cases after <;> rfl
  | cons c rest ih =>
      have hsize := c.utf8Size_pos
      have hcount : byteLength (c :: rest) = c.utf8Size - 1 + byteLength rest + 1 := by
        rw [byteLength]
        omega
      have hrest : c.utf8Size - 1 + byteLength rest + 1 - c.utf8Size = byteLength rest := by omega
      rw [hcount, List.cons_append, dropBytes?, if_pos (by omega), hrest]
      exact ih

theorem takeBytes?_append (text after : List Char) :
    takeBytes? (byteLength text) (text ++ after) = some text := by
  induction text with
  | nil => cases after <;> rfl
  | cons c rest ih =>
      have hsize := c.utf8Size_pos
      have hcount : byteLength (c :: rest) = c.utf8Size - 1 + byteLength rest + 1 := by
        rw [byteLength]
        omega
      have hrest : c.utf8Size - 1 + byteLength rest + 1 - c.utf8Size = byteLength rest := by omega
      rw [hcount, List.cons_append, takeBytes?, if_pos (by omega), hrest, ih]
      rfl

/-- A text inside of another one is found again by its bytes. -/
theorem slice?_append (before text after : List Char) :
    slice? (before ++ (text ++ after)) (byteLength before)
      (byteLength before + byteLength text) = some text := by
  rw [slice?, if_pos (Nat.le_add_right _ _), dropBytes?_append, Nat.add_sub_cancel_left]
  exact takeBytes?_append text after

end Text

namespace Lexer

/-! ### The steps of the analysis -/

theorem longest?_pos {text : List Char} {rule : Rule} {length : Nat}
    (h : Rule.longest? text = some (rule, length)) : 0 < length := by
  suffices hbest : ∀ best : Rule × Nat, Rule.longest? text = some best → 0 < best.2 from hbest _ h
  refine List.foldlRecOn Rule.all _ (motive := fun best? => ∀ best : Rule × Nat, best? = some best →
    0 < best.2) (fun _ h => by cases h) fun best? hbest rule _ best heq => ?_
  split at heq
  case h_1 length _ other hlength =>
    split at heq
    case isTrue hless =>
      obtain rfl := Option.some.inj heq
      exact Nat.lt_of_le_of_lt (Nat.zero_le _) hless
    case isFalse => exact hbest best heq
  case h_2 length hlength =>
    split at heq
    case isTrue hpos =>
      obtain rfl := Option.some.inj heq
      exact hpos
    case isFalse => cases heq
  case h_3 => exact hbest best heq

/-- The characters that still belong to a lexeme are passed over. -/
theorem run_skip (recovery : Recovery) (skip position errors : Nat) (text : List Char) :
    run recovery skip position errors text =
      run recovery 0 (position + Text.byteLength (text.take skip)) errors (text.drop skip) := by
  induction text generalizing skip position with
  | nil => rw [List.drop_nil, run, run]
  | cons c rest ih =>
      cases skip with
      | zero => rw [List.take_zero, List.drop_zero, Text.byteLength, Nat.add_zero]
      | succ more =>
          rw [List.take_succ_cons, List.drop_succ_cons, Text.byteLength, ← Nat.add_assoc, ← ih]
          rfl

theorem wordKind_ne_eof (word : String) : wordKind word ≠ .eof := by
  intro h
  rw [wordKind] at h
  split at h
  · cases h
  split at h
  · cases h
  split at h
  · cases h
  split at h
  · cases h
  · cases h

/-- Only the end of the file is denoted by no lexeme. -/
theorem tokenKind?_ne_eof {rule : Rule} {lexeme : List Char} {span : Span} {kind : TokenKind}
    (h : tokenKind? rule lexeme span = .ok (some kind)) : kind ≠ .eof := by
  rintro rfl
  cases rule with
  | blank | comment | floating => cases h
  | symbol =>
      obtain ⟨sign, -, hsign⟩ := Option.map_eq_some_iff.mp (Except.ok.inj h)
      cases hsign
  | word => exact wordKind_ne_eof _ (Option.some.inj (Except.ok.inj h))
  | hexadecimal | binary | decimal | char | string =>
      simp only [tokenKind?] at h
      split at h <;> cases h

/-- What the analysis yields for a text from a byte on if some errors were met before it, step by
step. Each step takes a lexeme from the head of the text. -/
inductive Analysed : Nat → Nat → List Char → Result → Prop where
  | done (position errors : Nat) : Analysed position errors [] ⟨[], []⟩
  | limit {position errors : Nat} {text : List Char} (herrors : errorLimit ≤ errors) :
      Analysed position errors text ⟨[], []⟩
  | error {position errors length : Nat} {text : List Char} {result : Result} (error : LexError)
      (hlexeme : text.take length ≠ []) (herrors : errors < errorLimit)
      (hrest : Analysed (position + Text.byteLength (text.take length)) (errors + 1)
        (text.drop length) result) :
      Analysed position errors text (.cons (.error error) result)
  | gap {position errors length : Nat} {text : List Char} {result : Result} {rule : Rule}
      (hlexeme : text.take length ≠ []) (hlength : rule.length? text = some length)
      (hkind : tokenKind? rule (text.take length)
        ⟨position, position + Text.byteLength (text.take length)⟩ = .ok none)
      (hrest : Analysed (position + Text.byteLength (text.take length)) errors
        (text.drop length) result) :
      Analysed position errors text result
  | token {position errors length : Nat} {text : List Char} {result : Result} {rule : Rule}
      {kind : TokenKind} (hlexeme : text.take length ≠ [])
      (hlongest : Rule.longest? text = some (rule, length))
      (hkind : tokenKind? rule (text.take length)
        ⟨position, position + Text.byteLength (text.take length)⟩ = .ok (some kind))
      (hrest : Analysed (position + Text.byteLength (text.take length)) errors
        (text.drop length) result) :
      Analysed position errors text
        (.cons (.ok ⟨kind, ⟨position, position + Text.byteLength (text.take length)⟩⟩) result)

/-- The characters of a lexeme behind its first one are passed over one by one. -/
theorem run_lexeme (recovery : Recovery) (position errors : Nat) (c : Char) (rest : List Char)
    {length : Nat} (hpos : 0 < length) :
    run recovery (length - 1) (position + c.utf8Size) errors rest =
      run recovery 0 (position + Text.byteLength ((c :: rest).take length)) errors
        ((c :: rest).drop length) := by
  obtain ⟨more, rfl⟩ := Nat.exists_eq_succ_of_ne_zero hpos.ne'
  rw [run_skip, List.take_succ_cons, List.drop_succ_cons, Text.byteLength, Nat.add_assoc]
  rfl

/-- The lexer takes these steps. -/
theorem analysed_run (recovery : Recovery) (position errors : Nat) (text : List Char) :
    Analysed position errors text (run recovery 0 position errors text) := by
  induction hlength : text.length using Nat.strong_induction_on generalizing position errors text with
  | _ size ih =>
  cases text with
  | nil => exact .done position errors
  | cons c rest =>
  have hrest {length : Nat} (hpos : 0 < length) (errors : Nat) :
      Analysed (position + Text.byteLength ((c :: rest).take length)) errors
        ((c :: rest).drop length) (run recovery (length - 1) (position + c.utf8Size) errors rest) := by
    rw [run_lexeme recovery position errors c rest hpos]
    refine ih _ ?_ _ _ _ rfl
    rw [← hlength, List.length_drop, List.length_cons]
    omega
  have hlexeme {length : Nat} (hpos : 0 < length) : (c :: rest).take length ≠ [] := by
    rw [ne_eq, List.take_eq_nil_iff, not_or]
    exact ⟨hpos.ne', List.cons_ne_nil c rest⟩
  rw [run]
  dsimp only
  split
  case h_1 =>
    split
    case isTrue hlimit => exact .limit hlimit
    case isFalse hlimit =>
      have hpos := recovery.length_pos (c :: rest)
      exact .error _ (hlexeme hpos) (Nat.lt_of_not_le hlimit) (hrest hpos _)
  case h_2 rule length hlongest =>
    have hpos := longest?_pos hlongest
    split
    case h_1 hkind => exact .gap (hlexeme hpos) (length?_of_longest? hlongest) hkind (hrest hpos _)
    case h_2 kind hkind =>
      split
      case isTrue hlimit => exact .limit hlimit
      case isFalse => exact .token (hlexeme hpos) hlongest hkind (hrest hpos _)
    case h_3 error hkind =>
      split
      case isTrue hlimit => exact .limit hlimit
      case isFalse hlimit =>
        exact .error _ (hlexeme hpos) (Nat.lt_of_not_le hlimit) (hrest hpos _)

namespace Analysed

variable {position errors : Nat} {text : List Char} {result : Result}

/-- The errors met before count towards the limit. -/
theorem errors_le (h : Analysed position errors text result) :
    result.errors.length ≤ errorLimit - errors := by
  induction h with
  | done | limit => exact Nat.zero_le _
  | error error hlexeme herrors hrest ih =>
      show Nat.succ _ ≤ _
      omega
  | gap _ _ _ _ ih => exact ih
  | token _ _ _ _ ih => exact ih

/-- Every token takes some characters of the text, and is not the mark of its end. -/
theorem exists_lexeme (h : Analysed position errors text result) {token : Token}
    (htoken : token ∈ result.tokens) :
    token.kind ≠ .eof ∧ ∃ before lexeme after, lexeme ≠ [] ∧ text = before ++ (lexeme ++ after) ∧
      token.span = ⟨position + Text.byteLength before,
        position + Text.byteLength before + Text.byteLength lexeme⟩ := by
  have hlater {position length : Nat} {text : List Char} {span : Span}
      (h : ∃ before lexeme after, lexeme ≠ [] ∧ text.drop length = before ++ (lexeme ++ after) ∧
        span = ⟨position + Text.byteLength (text.take length) + Text.byteLength before,
          position + Text.byteLength (text.take length) + Text.byteLength before +
            Text.byteLength lexeme⟩) :
      ∃ before lexeme after, lexeme ≠ [] ∧ text = before ++ (lexeme ++ after) ∧
        span = ⟨position + Text.byteLength before,
          position + Text.byteLength before + Text.byteLength lexeme⟩ := by
    obtain ⟨before, lexeme, after, hne, hdrop, hspan⟩ := h
    refine ⟨text.take length ++ before, lexeme, after, hne, ?_, ?_⟩
    · rw [List.append_assoc, ← hdrop, List.take_append_drop]
    · rw [hspan, Text.byteLength_append, Nat.add_assoc position]
  induction h with
  | done | limit => cases htoken
  | error error hlexeme herrors hrest ih => exact (ih htoken).imp_right hlater
  | gap hlexeme hlength hkind hrest ih => exact (ih htoken).imp_right hlater
  | @token position errors length text result rule kind hlexeme hlongest hkind hrest ih =>
      rcases List.mem_cons.mp htoken with rfl | htoken
      · refine ⟨?_, [], text.take length, text.drop length, hlexeme, ?_, rfl⟩
        · exact tokenKind?_ne_eof hkind
        · exact (List.take_append_drop length text).symm
      · exact (ih htoken).imp_right hlater

/-- No token reaches into the next one. -/
theorem pairwise_tokens (h : Analysed position errors text result) :
    result.tokens.Pairwise fun first second => first.span.stop ≤ second.span.start := by
  induction h with
  | done | limit => exact List.Pairwise.nil
  | error error hlexeme herrors hrest ih => exact ih
  | gap hlexeme hlength hkind hrest ih => exact ih
  | token hlexeme hlongest hkind hrest ih =>
      refine List.pairwise_cons.mpr ⟨fun later hlater => ?_, ih⟩
      obtain ⟨-, before, lexeme, after, -, -, hspan⟩ := hrest.exists_lexeme hlater
      rw [hspan]
      exact Nat.le_add_right _ _

end Analysed

/-! ### Blanks and comments -/

/-- A text from a byte on is made up of the lexemes that its tokens denote, with nothing but blanks and
comments between them. -/
inductive Layout : Nat → List Char → List Token → Prop where
  | done (position : Nat) : Layout position [] []
  | blank {position : Nat} {c : Char} {rest : List Char} {tokens : List Token} (hblank : isBlank c)
      (hrest : Layout (position + c.utf8Size) rest tokens) : Layout position (c :: rest) tokens
  | lineComment {position : Nat} {body rest : List Char} {tokens : List Token} (hbody : '\n' ∉ body)
      (hend : ∀ c ∈ rest.head?, c = '\n')
      (hrest : Layout (position + Text.byteLength ('/' :: '/' :: body)) rest tokens) :
      Layout position ('/' :: '/' :: body ++ rest) tokens
  | blockComment {position : Nat} {body rest : List Char} {tokens : List Token}
      (hbody : ¬['*', '/'] <:+: body)
      (hrest : Layout (position + Text.byteLength ('/' :: '*' :: body ++ ['*', '/'])) rest tokens) :
      Layout position ('/' :: '*' :: body ++ ['*', '/'] ++ rest) tokens
  /-- A block comment that is not closed takes the rest of the file. -/
  | openComment {position : Nat} {body : List Char} (hbody : ¬['*', '/'] <:+: body) :
      Layout position ('/' :: '*' :: body) []
  | token {position : Nat} {lexeme rest : List Char} {tokens : List Token} {kind : TokenKind}
      (rule : Rule) (hlexeme : lexeme ≠ [])
      (hkind : tokenKind? rule lexeme ⟨position, position + Text.byteLength lexeme⟩ =
        .ok (some kind))
      (hrest : Layout (position + Text.byteLength lexeme) rest tokens) :
      Layout position (lexeme ++ rest)
        (⟨kind, ⟨position, position + Text.byteLength lexeme⟩⟩ :: tokens)

theorem Layout.blanks {position : Nat} {lexeme rest : List Char} {tokens : List Token}
    (hblank : ∀ c ∈ lexeme, isBlank c)
    (hrest : Layout (position + Text.byteLength lexeme) rest tokens) :
    Layout position (lexeme ++ rest) tokens := by
  induction lexeme generalizing position with
  | nil => exact hrest
  | cons c lexeme ih =>
      obtain ⟨hc, hlexeme⟩ := List.forall_mem_cons.mp hblank
      refine .blank hc (ih hlexeme ?_)
      rw [Text.byteLength, ← Nat.add_assoc] at hrest
      exact hrest

/-- The first closing mark ends a block comment, and without one the text does. -/
theorem blockCommentTail_cases (text : List Char) :
    (∃ body rest, text = body ++ ['*', '/'] ++ rest ∧ ¬['*', '/'] <:+: body ∧
      blockCommentTail text = body.length + 2) ∨
    ¬['*', '/'] <:+: text ∧ blockCommentTail text = text.length := by
  fun_induction blockCommentTail text with
  | case1 rest => exact .inl ⟨[], rest, rfl, by simp, rfl⟩
  | case2 c rest hclosing ih =>
      have hbound {body after : List Char} (hrest : rest = body ++ after)
          (h : ¬['*', '/'] <:+: body) : ¬['*', '/'] <:+: c :: body := by
        rw [List.infix_cons_iff, not_or]
        refine ⟨?_, h⟩
        rintro ⟨tail, htail⟩
        obtain ⟨hc, rfl⟩ := List.cons.inj htail
        exact hclosing (tail ++ after) hc.symm hrest
      rcases ih with ⟨body, after, hrest, hbody, hlength⟩ | ⟨hbody, hlength⟩
      · refine .inl ⟨c :: body, after, by rw [hrest]; rfl, ?_, ?_⟩
        · exact hbound (by rw [hrest, List.append_assoc]) hbody
        · rw [hlength, List.length_cons]
          omega
      · refine .inr ⟨hbound (List.append_nil rest).symm hbody, ?_⟩
        rw [hlength, List.length_cons, Nat.add_comm]
  | case3 => exact .inr ⟨by simp, rfl⟩

theorem Layout.tokens_eq_nil {position : Nat} {tokens : List Token} (h : Layout position [] tokens) :
    tokens = [] := by
  generalize htext : ([] : List Char) = text at h
  cases h with
  | done | openComment => rfl
  | blank | lineComment | blockComment => cases htext
  | token rule hlexeme => exact absurd (List.append_eq_nil_iff.mp htext.symm).1 hlexeme

/-- A comment is laid out together with what follows it. -/
theorem Layout.comment {position length : Nat} {text : List Char} {tokens : List Token}
    (hlength : commentLength text = some length)
    (hrest : Layout (position + Text.byteLength (text.take length)) (text.drop length) tokens) :
    Layout position text tokens := by
  have hcut {lexeme after : List Char} (htext : text = lexeme ++ after)
      (hlexeme : length = lexeme.length) :
      Layout (position + Text.byteLength lexeme) after tokens := by
    rwa [htext, hlexeme, List.take_left, List.drop_left] at hrest
  rw [commentLength.eq_def] at hlength
  split at hlength
  case h_1 rest =>
    obtain rfl := Option.some.inj hlength
    have htext : '/' :: '/' :: rest = '/' :: '/' :: rest.takeWhile (· ≠ '\n') ++
        rest.dropWhile (· ≠ '\n') := by
      rw [List.cons_append, List.cons_append, List.takeWhile_append_dropWhile]
    have hafter := hcut htext (Nat.add_comm _ _)
    rw [htext]
    refine .lineComment (fun hmem => ?_) (fun c hc => ?_) hafter
    · exact absurd (List.mem_takeWhile_imp hmem) (by decide)
    · have hhead := List.head?_dropWhile_not (· ≠ '\n') rest
      rw [Option.mem_def.mp hc] at hhead
      simpa using hhead
  case h_2 rest =>
    obtain rfl := Option.some.inj hlength
    rcases blockCommentTail_cases rest with ⟨body, after, rfl, hbody, hlength⟩ | ⟨hbody, hlength⟩
    · refine .blockComment hbody (hcut rfl ?_)
      rw [hlength, List.length_append, List.length_cons, List.length_cons, Nat.add_comm 2]
      rfl
    · rw [(hcut (List.append_nil _).symm (by rw [hlength, Nat.add_comm]; rfl)).tokens_eq_nil]
      exact .openComment hbody
  case h_3 => cases hlength

/-! ### Symbols -/

theorem isPrefixOf_of_longestSymbol? {text : List Char} {symbol : Symbol}
    (h : longestSymbol? text = some symbol) : symbol.text.toList.isPrefixOf text := by
  suffices hbest : ∀ best : Symbol, longestSymbol? text = some best →
      best.text.toList.isPrefixOf text from hbest _ h
  refine List.foldlRecOn Symbol.all _ (motive := fun best? => ∀ best : Symbol, best? = some best →
    best.text.toList.isPrefixOf text) (fun _ h => by cases h) fun best? hbest symbol _ => ?_
  split
  case isFalse => exact hbest
  case isTrue hbegins =>
    split
    case h_1 =>
      split
      · exact fun _ heq => Option.some.inj heq ▸ hbegins
      · exact hbest
    case h_2 => exact fun _ heq => Option.some.inj heq ▸ hbegins

theorem mem_all_symbols (symbol : Symbol) : symbol ∈ Symbol.all := by
  cases symbol <;> decide

theorem symbol_ne_nil (symbol : Symbol) : symbol.text.toList ≠ [] := by
  cases symbol <;> decide

/-- A symbol at the head of a text is found there, or a longer one. -/
theorem exists_longestSymbol? {text : List Char} {symbol : Symbol}
    (hsymbol : symbol.text.toList.isPrefixOf text) :
    ∃ best, longestSymbol? text = some best ∧
      symbol.text.toList.length ≤ best.text.toList.length := by
  have hmem := mem_all_symbols symbol
  rw [longestSymbol?]
  generalize Symbol.all = symbols at hmem ⊢
  induction symbols using List.reverseRec with
  | nil => cases hmem
  | append_singleton symbols last ih =>
      rw [List.foldl_append, List.foldl_cons, List.foldl_nil]
      rcases List.mem_append.mp hmem with hmem | hmem
      · obtain ⟨best, hbest, hle⟩ := ih hmem
        rw [hbest]
        by_cases hlast : last.text.toList.isPrefixOf text
        · rw [if_pos hlast]
          by_cases hless : best.text.toList.length < last.text.toList.length
          · exact ⟨last, if_pos hless, hle.trans hless.le⟩
          · exact ⟨best, if_neg hless, hle⟩
        · exact ⟨best, if_neg hlast, hle⟩
      · obtain rfl := List.mem_singleton.mp hmem
        rw [if_pos hsymbol]
        split
        case h_1 best heq =>
          rw [heq]
          by_cases hless : best.text.toList.length < symbol.text.toList.length
          · exact ⟨symbol, if_pos hless, Nat.le_refl _⟩
          · exact ⟨best, if_neg hless, Nat.le_of_not_lt hless⟩
        case h_2 => exact ⟨symbol, rfl, Nat.le_refl _⟩

/-- Only blanks and comments denote no token. -/
theorem isGap_of_tokenKind? {rule : Rule} {text : List Char} {length : Nat} {span : Span}
    (hlength : rule.length? text = some length)
    (h : tokenKind? rule (text.take length) span = .ok none) : rule = .blank ∨ rule = .comment := by
  cases rule with
  | blank => exact .inl rfl
  | comment => exact .inr rfl
  | symbol =>
      obtain ⟨symbol, hsymbol, rfl⟩ := Option.map_eq_some_iff.mp hlength
      have hbegins := List.isPrefixOf_iff_prefix.mp (isPrefixOf_of_longestSymbol? hsymbol)
      have hagain : symbol.text.toList.isPrefixOf (text.take symbol.text.toList.length) := by
        rw [← List.prefix_iff_eq_take.mp hbegins]
        exact List.isPrefixOf_iff_prefix.mpr (List.prefix_refl _)
      obtain ⟨best, hbest, -⟩ := exists_longestSymbol? hagain
      rw [tokenKind?, hbest] at h
      cases h
  | floating | word => cases h
  | hexadecimal | binary | decimal | char | string =>
      simp only [tokenKind?] at h
      split at h <;> cases h

/-! ### All of a source -/

/-- Without errors the text is laid out by its tokens. -/
theorem Analysed.layout {position errors : Nat} {text : List Char} {result : Result}
    (h : Analysed position errors text result) (herrors : errors < errorLimit)
    (hnone : result.errors = []) : Layout position text result.tokens := by
  induction h with
  | done => exact .done _
  | limit hlimit => exact absurd herrors (Nat.not_lt_of_le hlimit)
  | error => cases hnone
  | @gap position errors length text result rule hlexeme hlength hkind hrest ih =>
      have hlayout := ih herrors hnone
      rcases isGap_of_tokenKind? hlength hkind with rfl | rfl
      · obtain rfl := Option.some.inj hlength
        rw [← List.take_append_drop (countWhile isBlank text) text]
        refine .blanks (fun c hc => ?_) hlayout
        rw [countWhile, ← List.prefix_iff_eq_take.mp (List.takeWhile_prefix _)] at hc
        exact List.mem_takeWhile_imp hc
      · exact .comment hlength hlayout
  | @token position errors length text result rule kind hlexeme hlongest hkind hrest ih =>
      have hlayout := Layout.token rule hlexeme hkind (ih herrors hnone)
      rwa [List.take_append_drop] at hlayout

end Lexer

/-- A token of a source takes a range of bytes that is not empty and holds whole characters. -/
structure Token.InSource (source : List Char) (token : Token) : Prop where
  kind_ne_eof : token.kind ≠ .eof
  start_lt_stop : token.span.start < token.span.stop
  stop_le : token.span.stop ≤ Text.byteLength source
  isSome_slice : (Text.slice? source token.span.start token.span.stop).isSome

/-- With any recovery, the lexer cuts any text into tokens that follow each other inside of the text, and
marks its end once. It keeps no more errors than the limit, and where it keeps none nothing of the text is
lost between the tokens. -/
theorem Lexer.tokenize_spec (recovery : Recovery) (source : List Char) :
    ∃ tokens, (analyse recovery source).tokens = tokens ++
        [⟨.eof, ⟨Text.byteLength source, Text.byteLength source⟩⟩] ∧
      (∀ token ∈ tokens, token.InSource source) ∧
      tokens.Pairwise (fun first second => first.span.stop ≤ second.span.start) ∧
      (analyse recovery source).errors.length ≤ errorLimit ∧
      ((analyse recovery source).errors = [] → Layout 0 source tokens) := by
  have hrun := analysed_run recovery 0 0 source
  refine ⟨(run recovery 0 0 0 source).tokens, rfl, fun token htoken => ?_, hrun.pairwise_tokens,
    hrun.errors_le, hrun.layout (by decide)⟩
  obtain ⟨hkind, before, lexeme, after, hne, rfl, hspan⟩ := hrun.exists_lexeme htoken
  have hpos := Text.byteLength_pos hne
  rw [Nat.zero_add] at hspan
  refine ⟨hkind, ?_, ?_, ?_⟩
  · rw [hspan]
    dsimp only
    omega
  · rw [hspan, Text.byteLength_append, Text.byteLength_append]
    dsimp only
    omega
  · rw [hspan, Text.slice?_append]
    rfl

end LockDiscipline
