import LockDiscipline.Proofs.Check.RetouchedFindings
import LockDiscipline.Proofs.Grammar.DeclarationRelocation
/-!
# Reformatted sources

How a source is laid out does not matter to its check: two sources with the same tokens have the same findings
at corresponding tokens. Neither source is the other one with its positions moved, because a last token that
ends the text and the end of the file have one position in one source and two in the other. So both are compared
with a third token list, in which every token has a place of its own that tells its number, and both are that
list relocated. Only one thing of the layout is kept there, which is whether two angle brackets that close are
adjacent.
-/

namespace LockDiscipline

/-! ### Tokens at places that tell their numbers -/

namespace Token

/-- Whether the token with a number is an angle bracket that closes and is adjacent to the next one. -/
def joined (tokens : List Token) (number : Nat) : Bool :=
  match tokens[number]?, tokens[number + 1]? with
  | some first, some second =>
      first.kind == .symbol .greater && second.kind == .symbol .greater && first.span.stop == second.span.start
  | _, _ => false

/-- The place for the token with a number. It reaches up to the next place if the tokens are joined. -/
def place (tokens : List Token) (number : Nat) : Span :=
  ⟨2 * number + 1, if joined tokens number then 2 * number + 3 else 2 * number + 2⟩

/-- The tokens, each at the place for its number. -/
def numbered (tokens : List Token) : List Token :=
  tokens.mapIdx fun number token => ⟨token.kind, place tokens number⟩

/-- The relocation that takes the tokens from the places for their numbers back to where they stand. -/
def fromNumbers (tokens : List Token) : Relocation where
  start position := ((tokens[(position - 1) / 2]?).map (·.span.start)).getD 0
  stop position := if position = 0 then 0 else ((tokens[(position - 2) / 2]?).map (·.span.stop)).getD 0

theorem start_place (tokens : List Token) (number : Nat) : (place tokens number).start = 2 * number + 1 := rfl

theorem stop_place (tokens : List Token) (number : Nat) :
    (place tokens number).stop = 2 * number + 2 ∨ (place tokens number).stop = 2 * number + 3 := by
  by_cases hjoined : joined tokens number
  · exact .inr (if_pos hjoined)
  · exact .inl (if_neg hjoined)

variable {tokens : List Token} {number : Nat} {token : Token}

theorem start_fromNumbers (h : tokens[number]? = some token) :
    (fromNumbers tokens).start (place tokens number).start = token.span.start := by
  have hnumber : ((place tokens number).start - 1) / 2 = number := by
    rw [start_place]
    omega
  simp only [fromNumbers, hnumber, h, Option.map_some, Option.getD_some]

theorem stop_fromNumbers (h : tokens[number]? = some token) :
    (fromNumbers tokens).stop (place tokens number).stop = token.span.stop := by
  have hplace := stop_place tokens number
  have hnumber : ((place tokens number).stop - 2) / 2 = number := by omega
  have hpos : (place tokens number).stop ≠ 0 := by omega
  simp only [fromNumbers, hnumber, if_neg hpos, h, Option.map_some, Option.getD_some]

theorem getElem?_numbered : (numbered tokens)[number]? =
    (tokens[number]?).map fun token => ⟨token.kind, place tokens number⟩ :=
  List.getElem?_mapIdx

/-- A numbered token is one of the tokens at its place. -/
theorem exists_of_mem_numbered (h : token ∈ numbered tokens) :
    ∃ number original, tokens[number]? = some original ∧ token = ⟨original.kind, place tokens number⟩ := by
  obtain ⟨number, hnumber⟩ := List.getElem?_of_mem h
  rw [getElem?_numbered] at hnumber
  obtain ⟨original, horiginal, rfl⟩ := Option.map_eq_some_iff.mp hnumber
  exact ⟨number, original, horiginal, rfl⟩

/-- The tokens are their numbered ones relocated. -/
theorem relocate_numbered (tokens : List Token) :
    (numbered tokens).map (·.relocate (fromNumbers tokens)) = tokens := by
  apply List.ext_getElem?
  intro number
  rw [List.getElem?_map, getElem?_numbered]
  cases htoken : tokens[number]? with
  | none => rfl
  | some token =>
      simp only [Option.map_some, relocate, Span.relocate, start_fromNumbers htoken, stop_fromNumbers htoken]

/-- Numbered tokens stand in order. -/
theorem inOrder_numbered (tokens : List Token) : Grammar.InOrder (numbered tokens) := by
  constructor
  case lt =>
    intro token htoken _
    obtain ⟨number, original, -, rfl⟩ := exists_of_mem_numbered htoken
    have hstop := stop_place tokens number
    simp only [start_place]
    omega
  case apart =>
    rw [List.pairwise_iff_getElem]
    intro first second hfirst hsecond hlt
    simp only [numbered, List.getElem_mapIdx, start_place]
    have hstop := stop_place tokens first
    omega

/-- Angle brackets are adjacent at the places for their numbers if they are where they stand. -/
theorem faithful_numbered (tokens : List Token) :
    Grammar.Faithful (fromNumbers tokens) (numbered tokens) := by
  rw [Grammar.Faithful, List.isChain_iff_getElem]
  intro number hnumber hfirst hsecond
  simp only [numbered, List.length_mapIdx] at hnumber
  simp only [numbered, List.getElem_mapIdx] at hfirst hsecond ⊢
  have hone : tokens[number]? = some tokens[number] := List.getElem?_eq_getElem _
  have hother : tokens[number + 1]? = some tokens[number + 1] := List.getElem?_eq_getElem hnumber
  have hjoined : joined tokens number = (tokens[number].span.stop == tokens[number + 1].span.start) := by
    simp [joined, hone, hother, hfirst, hsecond]
  rw [stop_fromNumbers hone, start_fromNumbers hother, start_place, place, hjoined]
  simp only [beq_iff_eq]
  split <;> omega

end Token

/-! ### Order -/

/-- The tokens of a text begin in the order of their numbers. -/
theorem Grammar.InOrder.start_le_iff {tokens : List Token} (h : InOrder tokens) {first second : Token}
    {number number' : Nat} (hfirst : tokens[number]? = some first) (hsecond : tokens[number']? = some second)
    (hkind : first.kind ≠ .eof) (hkind' : second.kind ≠ .eof) :
    first.span.start ≤ second.span.start ↔ number ≤ number' := by
  have hlt := h.lt first (List.mem_of_getElem? hfirst) hkind
  have hlt' := h.lt second (List.mem_of_getElem? hsecond) hkind'
  obtain ⟨hbound, rfl⟩ := List.getElem?_eq_some_iff.mp hfirst
  obtain ⟨hbound', rfl⟩ := List.getElem?_eq_some_iff.mp hsecond
  have hapart := List.pairwise_iff_getElem.mp h.apart
  rcases Nat.lt_trichotomy number number' with hless | rfl | hmore
  · have hstop := hapart number number' hbound hbound' hless
    omega
  · simp
  · have hstop := hapart number' number hbound' hbound hmore
    omega

/-- A token ends behind the start of any token that does not come after it. -/
theorem Grammar.InOrder.start_lt_stop {tokens : List Token} (h : InOrder tokens) {first second : Token}
    {number number' : Nat} (hfirst : tokens[number]? = some first) (hsecond : tokens[number']? = some second)
    (hkind : first.kind ≠ .eof) (hkind' : second.kind ≠ .eof) (hle : number ≤ number') :
    first.span.start < second.span.stop :=
  Nat.lt_of_le_of_lt ((h.start_le_iff hfirst hsecond hkind hkind').mpr hle)
    (h.lt second (List.mem_of_getElem? hsecond) hkind')

/-- What covers tokens at the places for their numbers begins at a token and ends at one that does not come
before it. -/
theorem Span.Covers.exists_numbers {tokens : List Token} {span : Span} (h : span.Covers (Token.numbered tokens)) :
    ∃ number number' first last, tokens[number]? = some first ∧ tokens[number']? = some last ∧
      first.kind ≠ .eof ∧ last.kind ≠ .eof ∧ number ≤ number' ∧
        span = ⟨(Token.place tokens number).start, (Token.place tokens number').stop⟩ := by
  obtain ⟨start, stop⟩ := span
  obtain ⟨hlt, ⟨token, htoken, hkind, rfl⟩, token', htoken', hkind', rfl⟩ := h
  obtain ⟨number, first, hfirst, rfl⟩ := Token.exists_of_mem_numbered htoken
  obtain ⟨number', last, hlast, rfl⟩ := Token.exists_of_mem_numbered htoken'
  refine ⟨number, number', first, last, hfirst, hlast, hkind, hkind', ?_, rfl⟩
  have hstop := Token.stop_place tokens number'
  simp only [Token.start_place] at hlt
  omega

/-- To go back to where tokens stand keeps constructs from being empty and keeps their order. -/
theorem Retouch.orderly_fromNumbers {tokens : List Token} (htokens : Grammar.InOrder tokens) :
    (Retouch.relocate (Token.fromNumbers tokens)).Orderly (Token.numbered tokens) := by
  constructor
  case keywords => exact fun _ _ => rfl
  case lt =>
    intro span hspan
    obtain ⟨number, number', first, last, hfirst, hlast, hkind, hkind', hle, rfl⟩ := hspan.exists_numbers
    simp only [span_relocate, Span.relocate, Token.start_fromNumbers hfirst, Token.stop_fromNumbers hlast]
    exact htokens.start_lt_stop hfirst hlast hkind hkind' hle
  case le_iff =>
    intro span span' hspan hspan'
    obtain ⟨number, -, first, -, hfirst, -, hkind, -, -, rfl⟩ := hspan.exists_numbers
    obtain ⟨number', -, first', -, hfirst', -, hkind', -, -, rfl⟩ := hspan'.exists_numbers
    simp only [span_relocate, Span.relocate]
    rw [Token.start_fromNumbers hfirst, Token.start_fromNumbers hfirst',
      htokens.start_le_iff hfirst hfirst' hkind hkind', Token.start_place, Token.start_place]
    omega

/-! ### Corresponding places -/

/-- Two places begin at tokens with one number in their texts, and end at tokens with one number. -/
structure Span.Corresponds (tokens tokens' : List Token) (span span' : Span) : Prop where
  start : ∃ number : Nat, ∃ first first' : Token, tokens[number]? = some first ∧ tokens'[number]? = some first' ∧
    span.start = first.span.start ∧ span'.start = first'.span.start
  stop : ∃ number : Nat, ∃ last last' : Token, tokens[number]? = some last ∧ tokens'[number]? = some last' ∧
    span.stop = last.span.stop ∧ span'.stop = last'.span.stop

/-- Two labels say the same of corresponding places. -/
structure Label.Corresponds (tokens tokens' : List Token) (label label' : Label) : Prop where
  span : label.span.Corresponds tokens tokens' label'.span
  style : label'.style = label.style
  message : label'.message = label.message

/-- Two findings say the same of corresponding places. -/
structure Diagnostic.Corresponds (tokens tokens' : List Token) (finding finding' : Diagnostic) : Prop where
  severity : finding'.severity = finding.severity
  code : finding'.code = finding.code
  message : finding'.message = finding.message
  labels : List.Forall₂ (Label.Corresponds tokens tokens') finding.labels finding'.labels
  notes : finding'.notes = finding.notes
  help : finding'.help = finding.help

/-- Two sources are spelled by the same tokens without errors, and adjacent angle brackets that close are
adjacent in both. -/
structure SameTokens (source source' : List Char) : Prop where
  noErrors : (Lexer.tokenize source).errors = []
  noErrors' : (Lexer.tokenize source').errors = []
  kinds : (Lexer.tokenize source').tokens.map (·.kind) = (Lexer.tokenize source).tokens.map (·.kind)
  joined : ∀ number < (Lexer.tokenize source).tokens.length,
    Token.joined (Lexer.tokenize source').tokens number = Token.joined (Lexer.tokenize source).tokens number

/-- Sources with the same tokens have the same numbered ones. -/
theorem Token.numbered_congr {tokens tokens' : List Token}
    (hkinds : tokens'.map (·.kind) = tokens.map (·.kind))
    (hjoined : ∀ number < tokens.length, joined tokens' number = joined tokens number) :
    numbered tokens' = numbered tokens := by
  apply List.ext_getElem?
  intro number
  have hkind := congrArg (·[number]?) hkinds
  simp only [List.getElem?_map] at hkind
  rw [getElem?_numbered, getElem?_numbered]
  cases htoken : tokens[number]? with
  | none =>
      rw [htoken] at hkind
      rw [Option.map_eq_none_iff.mp hkind]
      rfl
  | some token =>
      rw [htoken] at hkind
      obtain ⟨token', htoken', hkind⟩ := Option.map_eq_some_iff.mp hkind
      obtain ⟨hnumber, -⟩ := List.getElem?_eq_some_iff.mp htoken
      rw [htoken', Option.map_some, Option.map_some, hkind, place, hjoined number hnumber, ← place]

/-- A place at numbered tokens is taken to corresponding places of two texts with these tokens. -/
theorem Span.Placed.corresponds {tokens tokens' : List Token} {span : Span}
    (hsame : Token.numbered tokens' = Token.numbered tokens) (h : span.Placed (Token.numbered tokens)) :
    (span.relocate (Token.fromNumbers tokens)).Corresponds tokens tokens'
      (span.relocate (Token.fromNumbers tokens')) := by
  -- A token of the one text has a counterpart in the other, with one place for both.
  have hboth {token : Token} (htoken : token ∈ Token.numbered tokens) : ∃ number first first',
      tokens[number]? = some first ∧ tokens'[number]? = some first' ∧
        token.span = Token.place tokens number ∧ token.span = Token.place tokens' number := by
    obtain ⟨number, first, hfirst, rfl⟩ := Token.exists_of_mem_numbered htoken
    have hnumbered := congrArg (·[number]?) hsame
    simp only [Token.getElem?_numbered, hfirst, Option.map_some] at hnumbered
    obtain ⟨first', hfirst', hplace⟩ := Option.map_eq_some_iff.mp hnumbered
    exact ⟨number, first, first', hfirst, hfirst', rfl, (Token.mk.inj hplace).2.symm⟩
  obtain ⟨⟨token, htoken, hstart⟩, token', htoken', hstop⟩ := h
  constructor
  case start =>
    obtain ⟨number, first, first', hfirst, hfirst', hplace, hplace'⟩ := hboth htoken
    refine ⟨number, first, first', hfirst, hfirst', ?_, ?_⟩
    · rw [Span.relocate, ← hstart, hplace, Token.start_fromNumbers hfirst]
    · rw [Span.relocate, ← hstart, hplace', Token.start_fromNumbers hfirst']
  case stop =>
    obtain ⟨number, last, last', hlast, hlast', hplace, hplace'⟩ := hboth htoken'
    refine ⟨number, last, last', hlast, hlast', ?_, ?_⟩
    · rw [Span.relocate, ← hstop, hplace, Token.stop_fromNumbers hlast]
    · rw [Span.relocate, ← hstop, hplace', Token.stop_fromNumbers hlast']

/-- A finding at numbered tokens is taken to corresponding findings in two texts with these tokens. -/
theorem Diagnostic.corresponds_displace {tokens tokens' : List Token} {finding : Diagnostic}
    (hsame : Token.numbered tokens' = Token.numbered tokens)
    (hplaced : ∀ label ∈ finding.labels, label.span.Placed (Token.numbered tokens)) :
    (finding.displace (Span.relocate (Token.fromNumbers tokens))).Corresponds tokens tokens'
      (finding.displace (Span.relocate (Token.fromNumbers tokens'))) := by
  refine ⟨rfl, rfl, rfl, ?_, rfl, rfl⟩
  apply List.forall₂_map_left_iff.mpr
  apply List.forall₂_map_right_iff.mpr
  apply List.forall₂_same.mpr
  intro label hlabel
  exact ⟨(hplaced label hlabel).corresponds hsame, rfl, rfl⟩

/-! ### Checks -/

/-- Everything that a check finds in a unit that was read. -/
def ParsedUnit.findings (parsed : ParsedUnit) (options : CheckOptions) : List Diagnostic :=
  if parsed.errors.isEmpty then
    let subject := CheckSubject.ofUnit parsed.unit
    subject.program.problems.map (·.diagnostic) ++ subject.ruleFindings options
  else parsed.errors.map (·.diagnostic)

/-- What a check finds depends on the tokens alone if they are read without errors. -/
theorem checkFindings_eq {source : List Char} (h : (Lexer.tokenize source).errors = [])
    (options : CheckOptions) :
    checkFindings source options = (ParsedUnit.ofTokens (Lexer.tokenize source).tokens).findings options := by
  have hparsed : ParsedUnit.ofSource source = .ofTokens (Lexer.tokenize source).tokens := by
    simp [ParsedUnit.ofSource, h]
  rw [checkFindings, hparsed, ParsedUnit.findings]

namespace ParsedUnit

/-- What is found at numbered tokens is shown at tokens. -/
theorem placed_of_mem_findings {tokens : List Token} {options : CheckOptions} {finding : Diagnostic}
    (htokens : Grammar.InOrder tokens) (herrors : ∀ error ∈ (ofTokens tokens).errors, error.span.Placed tokens)
    (hfinding : finding ∈ (ofTokens tokens).findings options) :
    ∀ label ∈ finding.labels, label.span.Placed tokens := by
  have hspans := spansNest_ofTokens htokens
  rw [findings] at hfinding
  split at hfinding
  · intro label hlabel
    apply Span.Covers.placed
    rcases List.mem_append.mp hfinding with hfinding | hfinding
    · obtain ⟨problem, hproblem, rfl⟩ := List.mem_map.mp hfinding
      exact CheckSubject.covers_of_mem_problems hspans hproblem label hlabel
    · obtain ⟨rule, -, hfinding⟩ := List.mem_flatMap.mp (List.mem_mergeSort.mp hfinding)
      exact CheckSubject.covers_of_mem_findings hspans hfinding label hlabel
  · obtain ⟨error, herror, rfl⟩ := List.mem_map.mp hfinding
    intro label hlabel
    obtain rfl := List.mem_singleton.mp hlabel
    exact herrors error herror

/-- A check of tokens finds what a check of the numbered ones does, at the places where the tokens stand. -/
theorem findings_eq_displace {tokens : List Token} (htokens : Grammar.InOrder tokens)
    (hended : ∃ token ∈ tokens, token.kind = .eof) (options : CheckOptions) :
    (ofTokens tokens).findings options = ((ofTokens (Token.numbered tokens)).findings options).map
        (·.displace (Span.relocate (Token.fromNumbers tokens))) ∧
      ∀ error ∈ (ofTokens (Token.numbered tokens)).errors, error.span.Placed (Token.numbered tokens) := by
  have hended' : ∃ token ∈ Token.numbered tokens, token.kind = .eof := by
    obtain ⟨token, htoken, hkind⟩ := hended
    obtain ⟨number, hnumber⟩ := List.getElem?_of_mem htoken
    refine ⟨⟨token.kind, Token.place tokens number⟩, List.mem_of_getElem? (i := number) ?_, hkind⟩
    rw [Token.getElem?_numbered, hnumber, Option.map_some]
  obtain ⟨hrelocated, herrors⟩ := ofTokens_relocate (Token.inOrder_numbered tokens) hended'
    (Token.faithful_numbered tokens) rfl
  rw [Token.relocate_numbered] at hrelocated
  refine ⟨?_, herrors⟩
  have horderly := Retouch.orderly_fromNumbers htokens
  have hmatches := Program.matches_ofUnit horderly.regular (ofTokens (Token.numbered tokens)).unit
  have hproblems : (Program.ofUnit ((ofTokens (Token.numbered tokens)).unit.retouch
      (.relocate (Token.fromNumbers tokens)))).problems.map (·.diagnostic) =
        ((Program.ofUnit (ofTokens (Token.numbered tokens)).unit).problems.map (·.diagnostic)).map
          (·.displace (Span.relocate (Token.fromNumbers tokens))) := by
    rw [hmatches.problems_eq, List.map_map, List.map_map]
    exact List.map_congr_left fun problem _ => problem.diagnostic_recast _
  have hrules := CheckSubject.ruleFindings_retouch (nodup_numbers_ofTokens (Token.numbered tokens))
    (spansNest_ofTokens (Token.inOrder_numbered tokens)) horderly options
  have hfaults (errors : List SyntaxError) : (errors.map (·.relocate (Token.fromNumbers tokens))).map
      (·.diagnostic) = (errors.map (·.diagnostic)).map
        (·.displace (Span.relocate (Token.fromNumbers tokens))) := by
    rw [List.map_map, List.map_map]
    rfl
  rw [hrelocated]
  simp only [findings, relocate, List.isEmpty_map, hfaults]
  split
  · rw [List.map_append]
    exact congrArg₂ (· ++ ·) hproblems hrules
  · rfl

end ParsedUnit

/-- Reformatting does not change what a check finds: two sources with the same tokens, in which the same pairs
of consecutive angle brackets are adjacent, have the same findings in the same order, at corresponding tokens. -/
theorem SameTokens.findings_correspond {source source' : List Char} (h : SameTokens source source')
    (options : CheckOptions) :
    List.Forall₂ (Diagnostic.Corresponds (Lexer.tokenize source).tokens (Lexer.tokenize source').tokens)
      (checkFindings source options) (checkFindings source' options) := by
  have hended (text : List Char) : ∃ token ∈ (Lexer.tokenize text).tokens, token.kind = .eof :=
    ⟨_, List.mem_append_right _ (List.mem_singleton_self _), rfl⟩
  have hsame := Token.numbered_congr h.kinds h.joined
  obtain ⟨hfindings, herrors⟩ :=
    ParsedUnit.findings_eq_displace (Lexer.inOrder_tokens source) (hended source) options
  obtain ⟨hfindings', -⟩ :=
    ParsedUnit.findings_eq_displace (Lexer.inOrder_tokens source') (hended source') options
  rw [checkFindings_eq h.noErrors, checkFindings_eq h.noErrors', hfindings, hfindings', hsame]
  apply List.forall₂_map_left_iff.mpr
  apply List.forall₂_map_right_iff.mpr
  apply List.forall₂_same.mpr
  intro finding hfinding
  exact Diagnostic.corresponds_displace hsame
    (ParsedUnit.placed_of_mem_findings (Token.inOrder_numbered _) herrors hfinding)

/-- A class on one line, with an access that lacks its lock. -/
def oneLine : List Char :=
  "class A\x7b@GuardedBy(\"this\")L<L<A>>x;\x7bx=1;\x7d\x7d".toList

/-- The same class on several lines and with a comment. -/
def severalLines : List Char :=
  "class A\x7b\n @GuardedBy(\"this\") L<L<A>> x; // guarded\n \x7bx = 1;\x7d\n\x7d\n".toList

/-- Both layouts have the one finding, at corresponding places. -/
theorem SameTokens.findings_correspond_severalLines :
    SameTokens oneLine severalLines ∧ (checkFindings oneLine .default).length = 1 ∧
      List.Forall₂ (Diagnostic.Corresponds (Lexer.tokenize oneLine).tokens
        (Lexer.tokenize severalLines).tokens) (checkFindings oneLine .default)
        (checkFindings severalLines .default) := by
  have hsame : SameTokens oneLine severalLines := by
    constructor <;> decide +kernel
  exact ⟨hsame, by decide +kernel, hsame.findings_correspond .default⟩

end LockDiscipline
