import Mathlib.Data.List.TakeWhile
import LockDiscipline.Grammar.Program
import LockDiscipline.Program.TypeName
/-!
# The names that expressions begin with

The lexer cuts identifiers out of the characters of words, and an expression begins with a name only if
this is an identifier, or a dotted name of identifiers before `this`. Such a name has neither brackets
nor type arguments, so that it is looked up as a type by all of its text, unless it is the name of a
primitive type.
-/

namespace LockDiscipline

/-! ### Words -/

namespace Lexer

/-- A text of characters that an identifier may have. -/
structure IsWord (text : List Char) : Prop where
  ne_nil : text ≠ []
  isWordPart : ∀ c ∈ text, Lexer.isWordPart c

theorem isWord_iff {text : List Char} : IsWord text ↔ text ≠ [] ∧ text.all isWordPart :=
  ⟨fun h => ⟨h.ne_nil, List.all_eq_true.mpr h.isWordPart⟩, fun h => ⟨h.1, List.all_eq_true.mp h.2⟩⟩

instance (text : List Char) : Decidable (IsWord text) :=
  decidable_of_iff _ isWord_iff.symm

theorem IsWord.angle_not_mem {word : List Char} (h : IsWord word) : '<' ∉ word :=
  fun hmem => absurd (h.isWordPart _ hmem) (by decide)

theorem length?_of_longest? {text : List Char} {rule : Rule} {length : Nat}
    (h : Rule.longest? text = some (rule, length)) : rule.length? text = some length := by
  suffices hbest : ∀ best, Rule.longest? text = some best → best.1.length? text = some best.2 from
    hbest _ h
  refine List.foldlRecOn Rule.all _ (motive := fun best? => ∀ best : Rule × Nat, best? = some best →
    best.1.length? text = some best.2) nofun fun best? hbest rule _ best heq => ?_
  split at heq
  case h_1 length _ other hlength =>
    split at heq
    · obtain rfl := Option.some.inj heq
      exact hlength
    · exact hbest best heq
  case h_2 length hlength =>
    split at heq
    · obtain rfl := Option.some.inj heq
      exact hlength
    · cases heq
  case h_3 => exact hbest best heq

/-- An identifier is all of a lexeme of the rule for words. -/
theorem isWord_of_tokenKind? {rule : Rule} {text : List Char} {length : Nat} {span : Span}
    {name : String} (hlength : rule.length? text = some length)
    (h : tokenKind? rule (text.take length) span = .ok (some (.ident name))) :
    IsWord name.toList := by
  cases rule with
  | word =>
      have hname : name.toList = text.take length := by
        simp only [tokenKind?, wordKind, Except.ok.injEq, Option.some.injEq] at h
        split at h
        · cases h
        split at h
        · cases h
        split at h
        · cases h
        split at h
        · cases h
        · rw [← TokenKind.ident.inj h, String.toList_ofList]
      cases text with
      | nil => cases hlength
      | cons c rest =>
          simp only [Rule.length?, wordLength, Option.ite_none_right_eq_some,
            Option.some.injEq] at hlength
          obtain ⟨hstart, rfl⟩ := hlength
          have htake : rest.take (countWhile isWordPart rest) = rest.takeWhile isWordPart :=
            (List.prefix_iff_eq_take.mp (List.takeWhile_prefix _)).symm
          rw [Nat.add_comm, List.take_succ_cons, htake] at hname
          rw [hname]
          refine ⟨List.cons_ne_nil _ _, List.forall_mem_cons.mpr ⟨?_, fun d hd => ?_⟩⟩
          · rw [Lexer.isWordPart, hstart, Bool.true_or]
          · exact List.mem_takeWhile_imp hd
  | symbol =>
      obtain ⟨sign, -, hsign⟩ := Option.map_eq_some_iff.mp (Except.ok.inj h)
      cases hsign
  | blank | comment | floating => cases h
  | hexadecimal | binary | decimal | char | string =>
      simp only [tokenKind?] at h
      split at h <;> cases h

theorem isWord_of_mem_run {recovery : Recovery} {source : List Char} {skip position errors : Nat}
    {token : Token} {name : String} (h : token ∈ (run recovery skip position errors source).tokens)
    (hname : token.kind = .ident name) : IsWord name.toList := by
  induction source generalizing skip position errors with
  | nil => cases h
  | cons c rest ih =>
      rw [run.eq_def] at h
      dsimp only at h
      split at h
      case h_1 => exact ih h
      case h_2 =>
        split at h
        case h_1 =>
          split at h
          · cases h
          · exact ih h
        case h_2 rule length hlongest =>
          split at h
          case h_1 => exact ih h
          case h_2 kind hkind =>
            split at h
            · cases h
            · rcases List.mem_cons.mp h with rfl | h
              · obtain rfl : kind = .ident name := hname
                exact isWord_of_tokenKind? (length?_of_longest? hlongest) hkind
              · exact ih h
          case h_3 =>
            split at h
            · cases h
            · exact ih h

/-- Every identifier among the tokens of a text is a word. -/
theorem isWord_of_mem_tokenize {source : List Char} {token : Token} {name : String}
    (h : token ∈ (tokenize source).tokens) (hname : token.kind = .ident name) :
    IsWord name.toList := by
  rcases List.mem_append.mp h with h | h
  · exact isWord_of_mem_run h hname
  · obtain rfl := List.mem_singleton.mp h
    cases hname

end Lexer

/-! ### Dotted names -/

namespace TypeName

/-- A name that ends in a word and has no type arguments before it, as dotted names have. -/
def IsDotted (name : String) : Prop :=
  ∃ start word, name.toList = start ++ word ∧ '<' ∉ start ∧ Lexer.IsWord word

theorem isDotted_of_isWord {name : String} (h : Lexer.IsWord name.toList) : IsDotted name :=
  ⟨[], name.toList, rfl, List.not_mem_nil, h⟩

theorem IsDotted.append {qualifier name : String} (hqualifier : IsDotted qualifier)
    (hname : Lexer.IsWord name.toList) : IsDotted (qualifier ++ "." ++ name) := by
  obtain ⟨start, word, heq, hstart, hword⟩ := hqualifier
  refine ⟨qualifier.toList ++ ['.'], name.toList, by simp, ?_, hname⟩
  rw [heq]
  simp [hstart, hword.angle_not_mem]

/-- What ends neither in a bracket nor in a dot is no array. -/
theorem isArray_eq_false_of_getLast? {text : List Char} {last : Char} (h : text.getLast? = some last)
    (hbracket : last ≠ ']') (hdot : last ≠ '.') : isArray text = false := by
  have hlast (ending : List Char) {c : Char} (hending : ending ++ [c] <:+ text) : c = last := by
    obtain ⟨before, rfl⟩ := hending
    rw [← List.append_assoc, List.getLast?_concat] at h
    exact Option.some.inj h
  rw [isArray, Bool.or_eq_false_iff, ← Bool.not_eq_true, ← Bool.not_eq_true,
    List.isSuffixOf_iff_suffix, List.isSuffixOf_iff_suffix]
  exact ⟨fun hsuffix => hbracket (hlast [] hsuffix).symm,
    fun hsuffix => hdot (hlast ['.', '.'] hsuffix).symm⟩

/-- The last character of a word is none of a bracket and a dot. -/
theorem isArray_append_word {word : List Char} (start : List Char) (h : Lexer.IsWord word) :
    isArray (start ++ word) = false := by
  have hlast := List.getLast?_eq_some_getLast h.ne_nil
  have hpart := h.isWordPart _ (List.getLast_mem h.ne_nil)
  refine isArray_eq_false_of_getLast? (by rw [List.getLast?_append, hlast, Option.some_or]) ?_ ?_ <;>
  · intro heq
    rw [heq] at hpart
    exact absurd hpart (by decide)

/-- A dotted name is looked up as a class by all of its text, unless it is the name of a primitive
type. -/
theorem IsDotted.base?_eq {name : String} (h : IsDotted name) :
    base? name = if primitives.contains name then none else some name := by
  have htake : name.toList.takeWhile (· ≠ '<') = name.toList := by
    obtain ⟨start, word, heq, hstart, hword⟩ := h
    refine List.takeWhile_eq_self_iff.mpr fun c hc => ?_
    rw [heq, List.mem_append] at hc
    rw [decide_eq_true_eq]
    rintro rfl
    exact hc.elim hstart hword.angle_not_mem
  have hempty : name.isEmpty = false := by
    obtain ⟨start, word, heq, -, hword⟩ := h
    have hne : name.toList ≠ [] := heq ▸ List.append_ne_nil_of_right_ne_nil _ hword.ne_nil
    simpa using hne
  have harray : isArray name.toList = false := by
    obtain ⟨start, word, heq, -, hword⟩ := h
    rw [heq]
    exact isArray_append_word start hword
  simp only [base?, harray, htake, String.ofList_toList, hempty]
  simp

/-- The names of primitive types have no dots, so that a dotted name is one only if it is a single name. -/
theorem eq_nil_of_join_mem_primitives {name : String} {rest : List String}
    (h : Text.join "." (name :: rest) ∈ primitives) : rest = [] := by
  have hdot : ∀ primitive ∈ primitives, '.' ∉ primitive.toList := by decide
  cases rest with
  | nil => rfl
  | cons next rest => exact absurd (by simp [Text.join]) (hdot _ h)

end TypeName

/-- The name that an expression begins with, alone or before `this`, passes a test. -/
def Expr.Headed (good : String → Prop) : Expr → Prop
  | ⟨_, .name name, _⟩ | ⟨_, .qualifiedThis name, _⟩ => good name
  | ⟨_, .select object _, _⟩ => object.Headed good
  | ⟨_, .call (some receiver) _ _, _⟩ => receiver.Headed good
  | _ => True

namespace Grammar

/-! ### What readers yield -/

/-- Where a reader that starts at a cursor with one property succeeds, its value and the cursor behind
it have another. -/
def Yields {α : Type} (before : Cursor → Prop) (reader : Reader α) (after : α → Cursor → Prop) :
    Prop :=
  ∀ cursor value cursor', before cursor → reader.run cursor = .ok value cursor' → after value cursor'

namespace Yields

variable {α β : Type} {before before' : Cursor → Prop} {after after' : α → Cursor → Prop}
  {after'' : β → Cursor → Prop} {reader : Reader α} {next : α → Reader β}

theorem bind (hreader : Yields before reader after)
    (hnext : ∀ value, Yields (after value) (next value) after'') :
    Yields before (reader >>= next) after'' := by
  intro cursor value cursor' hbefore hrun
  rw [EStateM.run_bind] at hrun
  cases hfirst : reader.run cursor with
  | ok first middle =>
      rw [hfirst] at hrun
      exact hnext first middle value cursor' (hreader cursor first middle hbefore hfirst) hrun
  | error error middle =>
      rw [hfirst] at hrun
      cases hrun

theorem any : Yields before reader fun _ _ => True :=
  fun _ _ _ _ _ => trivial

/-- What a reader yields may have nothing to do with what is read before. -/
theorem skip (hnext : ∀ value, Yields (fun _ => True) (next value) after'') :
    Yields before (reader >>= next) after'' :=
  any.bind hnext

theorem weaken (h : Yields before' reader after') (hbefore : ∀ cursor, before cursor → before' cursor)
    (hafter : ∀ value cursor, after' value cursor → after value cursor) : Yields before reader after :=
  fun cursor value cursor' hcursor hrun =>
    hafter value cursor' (h cursor value cursor' (hbefore cursor hcursor) hrun)

/-- More may be known before. -/
theorem narrow (h : Yields before' reader after) (hbefore : ∀ cursor, before cursor → before' cursor) :
    Yields before reader after :=
  h.weaken hbefore fun _ _ h => h

theorem pure {value : α} (h : ∀ cursor, before cursor → after value cursor) :
    Yields before (Pure.pure value) after := by
  intro cursor value' cursor' hbefore hrun
  cases hrun
  exact h cursor hbefore

theorem throw (error : SyntaxError) : Yields before (throw error) after := by
  intro cursor value cursor' hbefore hrun
  cases hrun

/-- What holds of every cursor that a reader may start at can be used. -/
theorem given {fact : Prop} (hfact : ∀ cursor, before cursor → fact)
    (h : fact → Yields before reader after) : Yields before reader after :=
  fun cursor value cursor' hbefore hrun =>
    h (hfact cursor hbefore) cursor value cursor' hbefore hrun

/-- A reader that looks at the cursor goes on knowing where it is. -/
theorem get {next : Cursor → Reader β}
    (hnext : ∀ cursor, before cursor → Yields (· = cursor) (next cursor) after'') :
    Yields before (MonadState.get >>= next) after'' :=
  fun cursor value cursor' hbefore hrun => hnext cursor hbefore cursor value cursor' rfl hrun

theorem ite {condition : Prop} [Decidable condition] {first second : Reader α}
    (hfirst : condition → Yields before first after)
    (hsecond : ¬condition → Yields before second after) :
    Yields before (if condition then first else second) after := by
  split
  · exact hfirst ‹_›
  · exact hsecond ‹_›

theorem currentStart : Yields before Grammar.currentStart fun _ => before := by
  intro cursor value cursor' hbefore hrun
  cases hrun
  exact hbefore

theorem currentKind : Yields before Grammar.currentKind fun kind cursor =>
    before cursor ∧ cursor.current.kind = kind := by
  intro cursor value cursor' hbefore hrun
  cases hrun
  exact ⟨hbefore, rfl⟩

theorem peek (count : Nat) : Yields before (Grammar.peek count) fun _ => before := by
  intro cursor value cursor' hbefore hrun
  cases hrun
  exact hbefore

theorem ahead (test : List Token → Bool) : Yields before (Grammar.ahead test) fun _ => before := by
  intro cursor value cursor' hbefore hrun
  cases hrun
  exact hbefore

theorem atSymbol (sign : Symbol) : Yields before (Grammar.atSymbol sign) fun _ => before := by
  intro cursor value cursor' hbefore hrun
  cases hrun
  exact hbefore

theorem advance (h : ∀ cursor, before cursor → before' cursor.advance) :
    Yields before Grammar.advance fun _ => before' := by
  intro cursor value cursor' hbefore hrun
  cases hrun
  exact h cursor hbefore

theorem failTooDeep : Yields before Grammar.failTooDeep after := by
  intro cursor value cursor' hbefore hrun
  cases hrun

theorem failExpected (expected : Expectation) : Yields before (Grammar.failExpected expected) after := by
  intro cursor value cursor' hbefore hrun
  cases hrun

theorem mkExpr {kind : ExprKind} {after : Expr → Cursor → Prop} (start : Nat)
    (h : ∀ cursor id span, before cursor →
      after ⟨id, kind, span⟩ { cursor with nextId := cursor.nextId + 1 }) :
    Yields before (Grammar.mkExpr kind start) after := by
  intro cursor value cursor' hbefore hrun
  cases hrun
  exact h cursor _ _ hbefore

/-- What a loop starts with and each of its steps keeps lets its last step yield what it does. -/
theorem iterateTo {invariant : α → Cursor → Prop} {step : α → Reader (Option α)} {value : α}
    (hvalue : ∀ cursor, before cursor → invariant value cursor)
    (hstep : ∀ value, Yields (invariant value) (step value) fun result cursor =>
      result.elim (after value cursor) (invariant · cursor)) :
    Yields before (Grammar.iterate step value) after := by
  have hbounded (bound : Nat) (value : α) :
      Yields (invariant value) (iterateUpTo step bound value) after := by
    induction bound generalizing value with
    | zero => exact failTooDeep
    | succ bound ih =>
        refine (hstep value).bind fun result => ?_
        cases result with
        | some next => exact ih next
        | none => exact pure fun _ h => h
  intro cursor result cursor' hbefore hrun
  exact hbounded _ value cursor result cursor' (hvalue cursor hbefore) hrun

/-- What a loop starts with and each of its steps keeps, its result has. -/
theorem iterate {step : α → Reader (Option α)} {value : α}
    (hvalue : ∀ cursor, before cursor → after value cursor)
    (hstep : ∀ value, Yields (after value) (step value) fun result cursor =>
      after (result.getD value) cursor) :
    Yields before (Grammar.iterate step value) after :=
  iterateTo hvalue fun value => (hstep value).weaken (fun _ h => h) fun result _ h => by
    cases result with
    | some next => exact h
    | none => exact h

end Yields

/-! ### Readers of expressions -/

/-- Every identifier that lies ahead is a word. -/
def Cursor.Words (cursor : Cursor) : Prop :=
  ∀ token ∈ cursor.rest, ∀ name, token.kind = .ident name → Lexer.IsWord name.toList

theorem Cursor.Words.current {cursor : Cursor} (h : cursor.Words) {name : String}
    (hname : cursor.current.kind = .ident name) : Lexer.IsWord name.toList := by
  rw [Cursor.current] at hname
  cases hrest : cursor.rest with
  | nil => rw [hrest] at hname; cases hname
  | cons token rest =>
      rw [hrest] at hname
      exact h token (hrest ▸ List.mem_cons_self) name hname

theorem Cursor.Words.advance {cursor : Cursor} (h : cursor.Words) : cursor.advance.Words := by
  rw [Cursor.advance]
  split
  case h_1 => exact h
  case h_2 token rest hrest =>
    split
    · exact h
    · exact fun other hother => h other (hrest ▸ List.mem_cons_of_mem _ hother)

/-- An expression that begins with a dotted name, if with any. Only where all of it is a dotted name, more
words may follow that belong to the name. -/
structure Continues (expr : Expr) (cursor : Cursor) : Prop where
  headed : expr.Headed TypeName.IsDotted
  dotted : ∀ name, expr.dottedName? = some name → TypeName.IsDotted name ∧ cursor.Words

/-- A new expression that is no name begins as its first part does. -/
theorem yields_mkExpr {before : Cursor → Prop} {kind : ExprKind} (start : Nat)
    (hheaded : ∀ id span, Expr.Headed TypeName.IsDotted ⟨id, kind, span⟩)
    (hdotted : ∀ id span, Expr.dottedName? ⟨id, kind, span⟩ = none) :
    Yields before (mkExpr kind start) Continues :=
  .mkExpr start fun _ id span _ =>
    ⟨hheaded id span, fun _ h => nomatch (hdotted id span).symm.trans h⟩

section Readers

variable {before : Cursor → Prop} (rules : Rules)

theorem yields_readNew (start : Nat) : Yields before (readNew rules start) Continues := by
  refine .skip fun _ => .skip fun _ => .skip fun type => .skip fun bracket =>
    .ite (fun _ => ?_) fun _ => ?_
  · exact .skip fun _ => .skip fun _ => .skip fun _ =>
      yields_mkExpr start (fun _ _ => trivial) fun _ _ => rfl
  · exact .skip fun _ => .skip fun _ => .skip fun _ =>
      yields_mkExpr start (fun _ _ => trivial) fun _ _ => rfl

theorem yields_readLambda (start : Nat) : Yields before (readLambda rules start) Continues := by
  have hbody (params : List String) : Yields (fun _ => True) (do
      let _ ← expectSymbol .arrow
      let body ← if ← atSymbol .leftBrace then LambdaBody.block <$> rules _ .block
        else LambdaBody.expr <$> rules _ .expr
      mkExpr (.lambda params body) start) Continues := by
    refine .skip fun _ => .skip fun block => .ite (fun _ => ?_) fun _ => ?_
    · exact .skip fun _ => yields_mkExpr start (fun _ _ => trivial) fun _ _ => rfl
    · exact .skip fun _ => yields_mkExpr start (fun _ _ => trivial) fun _ _ => rfl
  refine .skip fun kind => ?_
  split
  · exact .skip fun _ => hbody _
  · exact .skip fun _ => .skip fun names => .skip fun _ => hbody names

theorem yields_readSelf (name : String) {kind : ExprKind} (start : Nat)
    (hheaded : ∀ id span, Expr.Headed TypeName.IsDotted ⟨id, kind, span⟩)
    (hdotted : ∀ id span, Expr.dottedName? ⟨id, kind, span⟩ = none) :
    Yields before (readSelf rules name kind start) Continues := by
  refine .skip fun _ => .skip fun call => .ite (fun _ => ?_) fun _ => ?_
  · exact .skip fun _ => yields_mkExpr start (fun _ _ => trivial) fun _ _ => rfl
  · exact yields_mkExpr start hheaded hdotted

theorem yields_readNameOrCall (name : String) (start : Nat) :
    Yields (fun cursor => cursor.Words ∧ cursor.current.kind = .ident name)
      (readNameOrCall rules name start) Continues := by
  refine .get fun cursor hcursor => ?_
  have hword := hcursor.1.current hcursor.2
  refine (Yields.peek 1).bind fun next => .ite (fun _ => ?_) fun _ => ?_
  · exact yields_readLambda rules start
  · have hadvance : Yields (· = cursor) advance fun _ => Cursor.Words :=
      .advance fun _ h => h ▸ hcursor.1.advance
    refine hadvance.bind fun _ => (Yields.atSymbol .leftParen).bind fun call =>
      .ite (fun _ => ?_) fun _ => ?_
    · exact .skip fun _ => yields_mkExpr start (fun _ _ => trivial) fun _ _ => rfl
    · refine .mkExpr start fun after id span hwords => ⟨TypeName.isDotted_of_isWord hword, ?_⟩
      rintro _ ⟨⟩
      exact ⟨TypeName.isDotted_of_isWord hword, hwords⟩

theorem yields_readParenthesized (start : Nat) :
    Yields before (readParenthesized rules start) Continues := by
  refine .skip fun cursor => .skip fun found =>
    .ite (fun _ => yields_readLambda rules start) fun _ => ?_
  exact .skip fun _ => .skip fun inner => .skip fun _ =>
    yields_mkExpr start (fun _ _ => trivial) fun _ _ => rfl

theorem yields_readLiteral {token : TokenKind} {kind : ExprKind} (start : Nat)
    (h : literal? token = some kind) : Yields before (readLiteral kind start) Continues := by
  refine .skip fun _ => ?_
  cases token with
  | int | float | string | char | bool | null =>
      obtain rfl := Option.some.inj h
      exact yields_mkExpr start (fun _ _ => trivial) fun _ _ => rfl
  | _ => cases h

theorem yields_readPrimary : Yields Cursor.Words (readPrimary rules) Continues := by
  refine Yields.currentStart.bind fun start => Yields.currentKind.bind fun kind => ?_
  cases hliteral : literal? kind with
  | some literal => exact yields_readLiteral start hliteral
  | none =>
      dsimp only
      split
      · exact yields_readSelf rules "this" start (fun _ _ => trivial) fun _ _ => rfl
      · exact yields_readSelf rules "super" start (fun _ _ => trivial) fun _ _ => rfl
      · exact yields_readNew rules start
      · exact yields_readNameOrCall rules _ start
      · exact yields_readParenthesized rules start
      · exact .skip fun _ => .skip fun _ => .skip fun _ =>
          yields_mkExpr start (fun _ _ => trivial) fun _ _ => rfl
      · exact .failExpected _

theorem yields_readAfterDot {object : Expr} (start : Nat) :
    Yields (Continues object) (readAfterDot rules object start) Continues := by
  refine .given (fun _ h => h.headed) fun hheaded => Yields.currentKind.bind fun kind => ?_
  split
  case h_1 name =>
    -- Behind a dotted name the identifier is a word and makes the name longer.
    have hadvance : Yields (fun cursor => Continues object cursor ∧ cursor.current.kind = .ident name)
        advance fun _ cursor => ∀ qualifier, object.dottedName? = some qualifier →
          TypeName.IsDotted (qualifier ++ "." ++ name) ∧ cursor.Words := by
      refine .advance ?_
      rintro cursor ⟨hobject, hname⟩ qualifier hqualifier
      obtain ⟨hdotted, hwords⟩ := hobject.dotted qualifier hqualifier
      exact ⟨hdotted.append (hwords.current hname), hwords.advance⟩
    refine hadvance.bind fun _ => (Yields.atSymbol .leftParen).bind fun call =>
      .ite (fun _ => ?_) fun _ => ?_
    · exact .skip fun _ => yields_mkExpr start (fun _ _ => hheaded) fun _ _ => rfl
    · refine .mkExpr start fun cursor id span h => ⟨hheaded, fun dotted hdotted => ?_⟩
      obtain ⟨qualifier, hqualifier, rfl⟩ := Option.map_eq_some_iff.mp hdotted
      exact h qualifier hqualifier
  case h_2 => exact .skip fun _ => .skip fun method => .skip fun _ =>
    yields_mkExpr start (fun _ _ => hheaded) fun _ _ => rfl
  case h_3 =>
    have hname : Yields (fun cursor => Continues object cursor ∧ cursor.current.kind = .keyword .this)
        (requireTypeName object) fun name _ => TypeName.IsDotted name := by
      rw [requireTypeName]
      cases hname : object.dottedName? with
      | none => exact .throw _
      | some name => exact .pure fun cursor h => (h.1.dotted name hname).1
    exact hname.bind fun name => .given (fun _ h => h) fun hname => .skip fun _ =>
      yields_mkExpr start (fun _ _ => hname) fun _ _ => rfl
  case h_4 => exact .skip fun _ => .skip fun _ =>
    yields_mkExpr start (fun _ _ => trivial) fun _ _ => rfl
  case h_5 => exact .skip fun _ => yields_mkExpr start (fun _ _ => trivial) fun _ _ => rfl
  case h_6 => exact yields_readNew rules start
  case h_7 => exact .failExpected _

theorem yields_readSuffix? {expr : Expr} (start : Nat) :
    Yields (Continues expr) (readSuffix? rules expr start) fun result cursor =>
      Continues (result.getD expr) cursor := by
  have hother {before : Cursor → Prop} {kind : ExprKind}
      (hheaded : ∀ id span, Expr.Headed TypeName.IsDotted ⟨id, kind, span⟩)
      (hdotted : ∀ id span, Expr.dottedName? ⟨id, kind, span⟩ = none) :
      Yields before (do return some (← mkExpr kind start)) fun result cursor =>
        Continues (result.getD expr) cursor :=
    (yields_mkExpr start hheaded hdotted).bind fun _ => .pure fun _ h => h
  refine Yields.currentKind.bind fun kind => ?_
  split
  case h_1 =>
    have hadvance : Yields (fun cursor => Continues expr cursor ∧ cursor.current.kind = .symbol .dot)
        advance fun _ => Continues expr :=
      .advance fun cursor h =>
        ⟨h.1.headed, fun name hname => (h.1.dotted name hname).imp_right Cursor.Words.advance⟩
    exact hadvance.bind fun _ => (yields_readAfterDot rules start).bind fun _ => .pure fun _ h => h
  case h_2 =>
    refine .skip fun next => .ite (fun _ => ?_) fun _ => ?_
    · exact .skip fun _ => .skip fun _ => .skip fun _ => .skip fun _ =>
        hother (fun _ _ => trivial) fun _ _ => rfl
    · exact .skip fun _ => .skip fun _ => .skip fun _ => hother (fun _ _ => trivial) fun _ _ => rfl
  case h_3 => exact .skip fun _ => hother (fun _ _ => trivial) fun _ _ => rfl
  case h_4 => exact .skip fun _ => hother (fun _ _ => trivial) fun _ _ => rfl
  case h_5 =>
    refine .skip fun _ => .skip fun constructor => .ite (fun _ => ?_) fun _ => ?_
    · exact hother (fun _ _ => trivial) fun _ _ => rfl
    · exact .skip fun _ => hother (fun _ _ => trivial) fun _ _ => rfl
  case h_6 => exact .pure fun _ h => h.1

theorem yields_readPostfix :
    Yields Cursor.Words (readPostfix rules) fun expr _ => expr.Headed TypeName.IsDotted := by
  refine Yields.currentStart.bind fun start => (yields_readPrimary rules).bind fun first => ?_
  split
  · exact .pure fun _ h => h.headed
  · exact (Yields.iterate (fun _ h => h) fun _ => yields_readSuffix? rules start).weaken
      (fun _ h => h) fun _ _ h => h.headed

/-- A reader of expressions that begin with dotted names, if with names. -/
abbrev Heads (reader : Reader Expr) : Prop :=
  Yields Cursor.Words reader fun expr _ => expr.Headed TypeName.IsDotted

theorem heads_mkExpr {before : Cursor → Prop} {kind : ExprKind} (start : Nat)
    (hheaded : ∀ id span, Expr.Headed TypeName.IsDotted ⟨id, kind, span⟩) :
    Yields before (mkExpr kind start) fun expr _ => expr.Headed TypeName.IsDotted :=
  .mkExpr start fun _ id span _ => hheaded id span

theorem heads_readUnary : Heads (readUnary rules) := by
  refine Yields.currentStart.bind fun start => Yields.currentKind.bind fun kind => ?_
  cases unaryOperator? kind with
  | some op => exact .skip fun _ => .skip fun operand => heads_mkExpr start fun _ _ => trivial
  | none =>
      refine (Yields.atSymbol .leftParen).bind fun paren => (Yields.ahead looksLikeCast).bind fun cast =>
        .ite (fun _ => ?_) fun _ => ?_
      · exact .skip fun _ => .skip fun types => .skip fun _ => .skip fun operand =>
          heads_mkExpr start fun _ _ => trivial
      · exact (yields_readPostfix rules).weaken (fun _ h => h.1) fun _ _ h => h

variable {rules}

theorem heads_readBinary (hrules : Heads (rules _ .unary)) (least : Nat) :
    Heads (readBinary rules least) := by
  refine Yields.currentStart.bind fun start => hrules.bind fun first => ?_
  refine .iterate (fun _ h => h) fun left => .given (fun _ h => h) fun hleft => .skip fun test => ?_
  have hkeep {before : Cursor → Prop} : Yields before (return none) fun result _ =>
      (Option.getD result left).Headed TypeName.IsDotted :=
    .pure fun _ _ => hleft
  refine .ite (fun _ => .ite (fun _ => hkeep) fun _ => ?_) fun _ => .skip fun cursor => ?_
  · refine Yields.bind ?_ fun _ => .pure fun _ h => h
    exact .skip fun _ => .skip fun _ => .skip fun type => .skip fun named => .ite
      (fun _ => .skip fun _ => heads_mkExpr start fun _ _ => trivial)
      fun _ => heads_mkExpr start fun _ _ => trivial
  · cases binaryOperator? cursor.rest with
    | none => exact hkeep
    | some operator =>
        refine .ite (fun _ => hkeep) fun _ => .skip fun _ => .skip fun right => ?_
        refine Yields.bind ?_ fun _ => .pure fun _ h => h
        exact heads_mkExpr start fun _ _ => trivial

theorem heads_readTernary (hrules : Heads (rules _ (.binary 0))) : Heads (readTernary rules) := by
  refine Yields.currentStart.bind fun start => hrules.bind fun cond =>
    .given (fun _ h => h) fun hcond => .skip fun question =>
      .ite (fun _ => ?_) fun _ => .pure fun _ _ => hcond
  exact .skip fun _ => .skip fun _ => .skip fun _ => heads_mkExpr start fun _ _ => trivial

theorem heads_readExpr (hrules : Heads (rules _ .ternary)) : Heads (readExpr rules) := by
  refine Yields.currentStart.bind fun start => hrules.bind fun target =>
    .given (fun _ h => h) fun htarget => .skip fun kind => ?_
  cases assignOperator? kind with
  | some op => exact .skip fun _ => .skip fun value => heads_mkExpr start fun _ _ => trivial
  | none => exact .pure fun _ _ => htarget

end Readers

/-- By the rules tied together to any depth, expressions begin with dotted names, if with names. -/
theorem heads_rules (depth : Nat) : Heads (rules depth _ .expr) ∧ Heads (rules depth _ .ternary) ∧
    (∀ least, Heads (rules depth _ (.binary least))) ∧ Heads (rules depth _ .unary) := by
  induction depth with
  | zero => exact ⟨.failTooDeep, .failTooDeep, fun _ => .failTooDeep, .failTooDeep⟩
  | succ depth ih =>
      obtain ⟨-, hternary, hbinary, hunary⟩ := ih
      exact ⟨heads_readExpr hternary, heads_readTernary (hbinary 0), heads_readBinary hunary,
        heads_readUnary _⟩

theorem heads_readSoleExpr (depth : Nat) : Heads (readSoleExpr (rules depth)) :=
  (heads_rules depth).1.bind fun _ => .given (fun _ h => h) fun hheaded => .skip fun _ =>
    .ite (fun _ => .pure fun _ _ => hheaded) fun _ => .failExpected _

end Grammar

/-- The name that the expression of a text begins with is a dotted name. -/
theorem Expr.headed_ofSource {source : List Char} {expr : Expr} (h : Expr.ofSource source = .ok expr) :
    expr.Headed TypeName.IsDotted := by
  rw [Expr.ofSource] at h
  split at h
  case h_1 => cases h
  case h_2 =>
    rw [Expr.ofTokens] at h
    split at h
    case h_2 => cases h
    case h_1 expr' cursor hrun =>
      obtain rfl := Except.ok.inj h
      have hwords : (Grammar.Cursor.start (Lexer.tokenize source).tokens).Words :=
        fun token htoken name hname => Lexer.isWord_of_mem_tokenize htoken hname
      exact Grammar.heads_readSoleExpr _ _ _ _ hwords hrun

end LockDiscipline
