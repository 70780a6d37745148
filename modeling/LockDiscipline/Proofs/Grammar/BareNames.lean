import LockDiscipline.Proofs.Grammar.Precedence
import LockDiscipline.Proofs.Token.Respacing
import LockDiscipline.Proofs.Tree.Spans
/-!
# Bare names

An identifier of a source can be written on its own. Its text is all of its lexeme, so that the lexer finds it
again where nothing else stands, and as an expression it is the name. So a text that was shown to somebody as a
name from the source is a text that may be entered where an expression is expected.
-/

namespace LockDiscipline

namespace Lexer

/-- Only a word denotes an identifier, and the name is the lexeme. -/
theorem Denotes.eq_toList {lexeme : List Char} {name : String} (h : Denotes lexeme (.ident name)) :
    lexeme = name.toList := by
  obtain ⟨rule, hkind, -⟩ := h.exists_rule
  have hkind := hkind default
  cases rule with
  | word =>
      have hword : wordKind (String.ofList lexeme) = .ident name := Option.some.inj (Except.ok.inj hkind)
      simp only [wordKind] at hword
      split_ifs at hword
      split at hword
      · cases hword
      · rw [← TokenKind.ident.inj hword, String.toList_ofList]
  | blank | comment => cases hkind
  | symbol =>
      obtain ⟨sign, -, hsign⟩ := Option.map_eq_some_iff.mp (Except.ok.inj hkind)
      cases hsign
  | floating => cases hkind
  | hexadecimal | binary | decimal | char | string =>
      simp only [tokenKind?] at hkind
      split at hkind <;> cases hkind

/-- A lexeme alone is one token. -/
theorem Denotes.tokenize_eq {lexeme : List Char} {kind : TokenKind} (h : Denotes lexeme kind) :
    tokenize lexeme = ⟨[⟨kind, ⟨0, Text.byteLength lexeme⟩⟩,
      ⟨.eof, ⟨Text.byteLength lexeme, Text.byteLength lexeme⟩⟩], []⟩ := by
  have hgap : Rule.AtGap [] := nofun
  have hrun := run_lexeme_gap recovery h hgap 0
  rw [List.append_nil, Nat.zero_add] at hrun
  rw [tokenize, analyse, hrun]
  rfl

/-- An identifier of a source is the one token of its own text. -/
theorem tokenize_of_isIdentOf {source : List Char} {name : String}
    (h : IsIdentOf (tokenize source).tokens name) :
    ∃ span stop, tokenize name.toList = ⟨[⟨.ident name, span⟩, ⟨.eof, stop⟩], []⟩ := by
  obtain ⟨token, htoken, hkind⟩ := h
  rcases List.mem_append.mp htoken with hmem | heof
  · obtain ⟨before, lexeme, after, -, hdenotes, -⟩ := (analysed_run recovery 0 0 source).denotes hmem
    rw [hkind] at hdenotes
    rw [← hdenotes.eq_toList]
    exact ⟨_, _, hdenotes.tokenize_eq⟩
  · rw [List.mem_singleton.mp heof] at hkind
    cases hkind

end Lexer

namespace Grammar

theorem run_acceptSymbol {cursor : Cursor} {sign : Symbol} (h : headKind cursor.rest ≠ .symbol sign) :
    (acceptSymbol sign).run cursor = .ok false cursor := by
  rw [acceptSymbol, run_bind_ok (run_atSymbol h)]
  rfl

theorem run_atEnd {cursor : Cursor} (h : headKind cursor.rest = .eof) : atEnd.run cursor = .ok true cursor := by
  rw [atEnd, run_bind_ok run_currentKind, h]
  rfl

/-- Before the end of the file, a name is all of the expression. -/
theorem run_expr_name {depth : Nat} (hdepth : 14 ≤ depth) {cursor : Cursor} {name : String} {span stop : Span}
    (hcursor : cursor.rest = [⟨.ident name, span⟩, ⟨.eof, stop⟩]) :
    ∃ id span' after, (rules depth _ .expr).run cursor = .ok ⟨id, .name name, span'⟩ after ∧
      headKind after.rest = .eof := by
  obtain ⟨depth, rfl⟩ : ∃ inner, depth = inner + 2 := ⟨depth - 2, by omega⟩
  have hends : Closes [⟨.eof, stop⟩] := by simp [Closes, headKind]
  have hclimbs : Climbs (.operand name) := climbs trivial
  have hahead : Ahead (.operand name) 0 [] [⟨.eof, stop⟩] :=
    ⟨.nil, fun _ htop => absurd htop (Option.not_mem_none _), hends.mayFollow,
      fun _ _ _ _ htop => absurd htop (Option.not_mem_none _)⟩
  have hdepth : 12 ≤ depth + (0 - 1) := by omega
  obtain ⟨expr, after, hbinary, hafter, hshows⟩ := hclimbs.run_binary hdepth (by decide) hahead hcursor
    fun op width hfound => by
      rw [hends.binaryOperator?] at hfound
      cases hfound
  have hkind : headKind after.rest = .eof := by
    rw [hafter]
    rfl
  obtain ⟨id, _, span'⟩ := hshows
  refine ⟨id, span', after, ?_, hkind⟩
  have hternary : (rules (depth + 1) _ .ternary).run cursor = .ok ⟨id, .name name, span'⟩ after := by
    have hquestion : headKind after.rest ≠ .symbol .question := by simp [hkind]
    change (readTernary (rules depth)).run cursor = _
    rw [readTernary, run_bind_ok run_currentStart, run_bind_ok hbinary,
      run_bind_ok (run_acceptSymbol hquestion)]
    rfl
  change (readExpr (rules (depth + 1))).run cursor = _
  rw [readExpr, run_bind_ok run_currentStart, run_bind_ok hternary, run_bind_ok run_currentKind, hkind]
  rfl

end Grammar

/-- A name is all of the expression where nothing else is. -/
theorem Expr.ofTokens_name (name : String) (span stop : Span) :
    ∃ id span', Expr.ofTokens [⟨.ident name, span⟩, ⟨.eof, stop⟩] = .ok ⟨id, .name name, span'⟩ := by
  have hdepth : 14 ≤ Grammar.depthFor [⟨.ident name, span⟩, ⟨.eof, stop⟩] := Nat.le_add_left 14 10
  have hstart : (Grammar.Cursor.start [⟨.ident name, span⟩, ⟨.eof, stop⟩]).rest =
      [⟨.ident name, span⟩, ⟨.eof, stop⟩] := rfl
  obtain ⟨id, span', after, hrun, hend⟩ := Grammar.run_expr_name hdepth hstart
  refine ⟨id, span', ?_⟩
  rw [Expr.ofTokens, Grammar.readSoleExpr, Grammar.run_bind_ok hrun,
    Grammar.run_bind_ok (Grammar.run_atEnd hend), if_pos rfl]
  rfl

/-- An identifier of a source is a name when it is read as an expression. -/
theorem Expr.exists_ofSource_of_isIdentOf {source : List Char} {name : String}
    (h : IsIdentOf (Lexer.tokenize source).tokens name) :
    ∃ id span, Expr.ofSource name.toList = .ok ⟨id, .name name, span⟩ := by
  obtain ⟨span, stop, htokens⟩ := Lexer.tokenize_of_isIdentOf h
  rw [Expr.ofSource, htokens]
  exact Expr.ofTokens_name name span stop

end LockDiscipline
