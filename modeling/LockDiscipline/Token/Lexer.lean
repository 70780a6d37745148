import LockDiscipline.Source.Text
import LockDiscipline.Token.Basic
import LockDiscipline.Token.Literal
/-!
# Lexical analysis

A source is cut into lexemes from left to right. Each `Rule` says how many characters its longest
lexeme takes at the head of a text; of all rules the longest lexeme wins, and of equally long ones
the first in `Rule.all`, where every rule of literals and symbols stands before identifiers. Blanks
and comments are lexemes without a token. Where no rule applies the character there is an error, and
the analysis goes on behind what a `Lexer.Recovery` counts to the error. The analysis is defined for any
recovery; the program has the one of its scanner generator, `Lexer.recovery`.

`Lexer.run` walks over the characters one by one and counts those that still belong to the current
lexeme, so it is structurally recursive and no character is read twice.
-/

namespace LockDiscipline

/-- What is wrong with a piece of source that is not a token. -/
inductive LexError where
  | unexpectedCharacter (c : Char) (position : Nat)
  | invalidEscape (position : Nat)
  | invalidNumber (span : Span)
deriving DecidableEq, Repr, Inhabited

namespace LexError

/-- The bytes that an error points at. -/
def span : LexError → Span
  | .unexpectedCharacter c position => ⟨position, position + c.utf8Size⟩
  | .invalidEscape position => ⟨position, position + 1⟩
  | .invalidNumber span => span

/-- The text of an error. -/
def message : LexError → String
  | .unexpectedCharacter c _ => "Unexpected character '" ++ c.toString ++ "'"
  | .invalidEscape _ => "Invalid escape sequence"
  | .invalidNumber _ => "Invalid number"

/-- Advice on an error. -/
def hint? : LexError → Option String
  | .invalidEscape _ =>
      some "Valid: \\n \\r \\t \\b \\f \\s \\\\ \\' \\\" \\uXXXX and octal escapes"
  | _ => none

end LexError

namespace Lexer

/-- The characters of an identifier, at its start and behind it. -/
def isWordStart (c : Char) : Bool :=
  c.isAlpha || c == '_' || c == '$'

/-- The characters that continue an identifier. -/
def isWordPart (c : Char) : Bool :=
  isWordStart c || c.isDigit

/-- Blank space between tokens. -/
def isBlank (c : Char) : Bool :=
  c == ' ' || c == '\t' || c == '\r' || c == '\n' || c == '\x0c'

/-- A hexadecimal digit. -/
def isHexDigit (c : Char) : Bool :=
  (Literal.digitValue? 16 c).isSome

/-- Digits and the underscores between them. -/
def isDigitPart (c : Char) : Bool :=
  c.isDigit || c == '_'

/-- How many characters at the head of a text pass a test. -/
def countWhile (test : Char → Bool) (text : List Char) : Nat :=
  (text.takeWhile test).length

/-- One if the head of the text passes the test, for an optional suffix. -/
def optionally (test : Char → Bool) : List Char → Nat
  | c :: _ => if test c then 1 else 0
  | [] => 0

/-- The length of digits with underscores that begin with a digit. -/
def digitRun : List Char → Nat
  | c :: rest => if c.isDigit then 1 + countWhile isDigitPart rest else 0
  | [] => 0

/-- The length of an exponent, zero if there is no complete one. -/
def exponentLength : List Char → Nat
  | mark :: rest =>
      if mark == 'e' || mark == 'E' then
        let sign := optionally (fun c => c == '+' || c == '-') rest
        let digits := countWhile Char.isDigit (rest.drop sign)
        if digits = 0 then 0 else 1 + sign + digits
      else 0
  | [] => 0

/-- The suffix letters of floating literals. -/
def isFloatSuffix (c : Char) : Bool :=
  c == 'f' || c == 'F' || c == 'd' || c == 'D'

/-- The suffix letters of integer literals. -/
def isLongSuffix (c : Char) : Bool :=
  c == 'l' || c == 'L'

/-- The length of an integer with a letter behind a zero that gives its base, such as `0x1F`. -/
def basedLength (lower upper : Char) (isDigit : Char → Bool) : List Char → Option Nat
  | '0' :: mark :: rest =>
      if mark == lower || mark == upper then
        let digits := countWhile isDigit rest
        if digits = 0 then none
        else some (2 + digits + optionally isLongSuffix (rest.drop digits))
      else none
  | _ => none

/-- The length of a floating literal: digits and then a fraction, an exponent or a suffix. -/
def floatLength (text : List Char) : Option Nat :=
  let whole := digitRun text
  if whole = 0 then none
  else
    let afterWhole := text.drop whole
    let fraction := match afterWhole with
      | '.' :: rest => if digitRun rest = 0 then 0 else 1 + digitRun rest
      | _ => 0
    let afterFraction := afterWhole.drop fraction
    let exponent := exponentLength afterFraction
    let suffix := optionally isFloatSuffix (afterFraction.drop exponent)
    if fraction + exponent + suffix = 0 then none
    else some (whole + fraction + exponent + suffix)

/-- The length of a plain integer. -/
def decimalLength (text : List Char) : Option Nat :=
  let digits := digitRun text
  if digits = 0 then none else some (digits + optionally isLongSuffix (text.drop digits))

/-- The length of a character literal: one character or one escape between quotes. -/
def charLength : List Char → Option Nat
  | '\'' :: '\\' :: 'u' :: rest =>
      let marks := countWhile (· == 'u') rest
      let digits := (rest.drop marks).take 4
      if digits.length = 4 ∧ digits.all isHexDigit ∧ (rest.drop (marks + 4)).head? = some '\'' then
        some (marks + 8)
      else none
  | '\'' :: '\\' :: c :: '\'' :: _ => if c = '\n' then none else some 4
  | '\'' :: c :: '\'' :: _ => if c = '\'' ∨ c = '\\' ∨ c = '\n' then none else some 3
  | _ => none

/-- The length of the longest text behind an opening quote without an unescaped quote, a newline or
a lone backslash at its end. -/
def stringBodyLength : List Char → Nat
  | '\\' :: c :: rest => if c = '\n' then 0 else 2 + stringBodyLength rest
  | c :: rest => if c = '"' ∨ c = '\\' ∨ c = '\n' then 0 else 1 + stringBodyLength rest
  | [] => 0

/-- The length of a string literal. -/
def stringLength : List Char → Option Nat
  | '"' :: rest =>
      let body := stringBodyLength rest
      if (rest.drop body).head? = some '"' then some (body + 2) else none
  | _ => none

/-- The length of a text up to and with the first closing mark of a block comment, or of the whole
text if there is none. -/
def blockCommentTail : List Char → Nat
  | '*' :: '/' :: _ => 2
  | _ :: rest => 1 + blockCommentTail rest
  | [] => 0

/-- The length of a comment. -/
def commentLength : List Char → Option Nat
  | '/' :: '/' :: rest => some (2 + countWhile (· ≠ '\n') rest)
  | '/' :: '*' :: rest => some (2 + blockCommentTail rest)
  | _ => none

/-- The length of an identifier or a keyword. -/
def wordLength : List Char → Option Nat
  | c :: rest => if isWordStart c then some (1 + countWhile isWordPart rest) else none
  | [] => none

/-- The longest symbol at the head of a text. -/
def longestSymbol? (text : List Char) : Option Symbol :=
  Symbol.all.foldl (fun best? symbol =>
    if symbol.text.toList.isPrefixOf text then
      match best? with
      | some best =>
          if best.text.toList.length < symbol.text.toList.length then some symbol else best?
      | none => some symbol
    else best?) none

end Lexer

/-- The kinds of lexemes. -/
inductive Rule where
  | blank | comment | symbol | hexadecimal | binary | floating | decimal | char | string | word
deriving DecidableEq, Repr, Inhabited

namespace Rule

open Lexer

/-- Every rule, in the order in which equally long lexemes are preferred. -/
def all : List Rule :=
  [.blank, .comment, .symbol, .hexadecimal, .binary, .floating, .decimal, .char, .string, .word]

/-- How many characters the longest lexeme of a rule takes at the head of a text. -/
def length? : Rule → List Char → Option Nat
  | .blank, text => some (countWhile isBlank text)
  | .comment, text => commentLength text
  | .symbol, text => (longestSymbol? text).map (·.text.toList.length)
  | .hexadecimal, text => basedLength 'x' 'X' (fun c => isHexDigit c || c == '_') text
  | .binary, text => basedLength 'b' 'B' (fun c => c == '0' || c == '1' || c == '_') text
  | .floating, text => floatLength text
  | .decimal, text => decimalLength text
  | .char, text => charLength text
  | .string, text => stringLength text
  | .word, text => wordLength text

/-- The rule with the longest nonempty lexeme at the head of a text, and its length. -/
def longest? (text : List Char) : Option (Rule × Nat) :=
  all.foldl (fun best? rule =>
    match rule.length? text, best? with
    | some length, some (_, best) => if best < length then some (rule, length) else best?
    | some length, none => if 0 < length then some (rule, length) else none
    | none, _ => best?) none

end Rule

namespace Lexer

/-- A literal, an identifier or a keyword from its letters. -/
def wordKind (word : String) : TokenKind :=
  if word == "true" then .bool true
  else if word == "false" then .bool false
  else if word == "null" then .null
  else match Keyword.ofText? word with
    | some keyword => .keyword keyword
    | none => .ident word

/-- What the lexeme of a rule at the given span denotes; nothing for blanks and comments. -/
def tokenKind? (rule : Rule) (lexeme : List Char) (span : Span) :
    Except LexError (Option TokenKind) :=
  let body := (lexeme.drop 1).dropLast
  let integer (value? : Option Int64) : Except LexError (Option TokenKind) :=
    match value? with
    | some value => .ok (some (.int value))
    | none => .error (.invalidNumber span)
  match rule with
  | .blank | .comment => .ok none
  | .symbol => .ok ((longestSymbol? lexeme).map .symbol)
  | .hexadecimal =>
      integer (Literal.integer? 16 (Text.dropRightWhile isLongSuffix (lexeme.drop 2)))
  | .binary => integer (Literal.integer? 2 (Text.dropRightWhile isLongSuffix (lexeme.drop 2)))
  | .decimal => integer (Literal.decimalInteger? (Text.dropRightWhile isLongSuffix lexeme))
  | .floating =>
      .ok (some (.float (Literal.floating (Text.dropRightWhile isFloatSuffix lexeme))))
  | .char =>
      match Literal.decode? body with
      | some [c] => .ok (some (.char c))
      | _ => .error (.invalidEscape span.start)
  | .string =>
      match Literal.decode? body with
      | some text => .ok (some (.string (String.ofList text)))
      | none => .error (.invalidEscape span.start)
  | .word => .ok (some (wordKind (String.ofList lexeme)))

/-- How many characters belong to an error at the head of a text: an unterminated string up to its
end or to the end of the line, the marks of an incomplete character escape, else one character. -/
def errorLength : List Char → Nat
  | '"' :: rest => 1 + stringBodyLength rest
  | '\'' :: '\\' :: 'u' :: rest => 3 + countWhile (· == 'u') rest
  | _ => 1

/-- How many characters belong to an error at the head of a text where no rule applies. It is at least
one, so that the analysis goes on. -/
structure Recovery where
  length : List Char → Nat
  length_pos : ∀ text, 0 < length text

theorem errorLength_pos (text : List Char) : 0 < errorLength text := by
  rw [errorLength.eq_def]
  split <;> omega

/-- The recovery of the program. -/
def recovery : Recovery :=
  ⟨errorLength, errorLength_pos⟩

/-- The tokens of a source and the errors met on the way. -/
structure Result where
  tokens : List Token
  errors : List LexError
deriving Repr, Inhabited

/-- The number of errors after which no more tokens are read. -/
def errorLimit : Nat := 20

/-- Put a token or an error before a result. -/
def Result.cons (head : Except LexError Token) (result : Result) : Result :=
  match head with
  | .ok token => { result with tokens := token :: result.tokens }
  | .error error => { result with errors := error :: result.errors }

/-- The lexemes of the text from byte `position`, given how many characters there still belong to
the lexeme before and how many errors were met. Once the limit is reached, the next token or error
ends the analysis. -/
def run (recovery : Recovery) (skip position errors : Nat) : List Char → Result
  | [] => ⟨[], []⟩
  | c :: rest =>
      let next := position + c.utf8Size
      match skip with
      | more + 1 => run recovery more next errors rest
      | 0 =>
          match Rule.longest? (c :: rest) with
          | none =>
              if errorLimit ≤ errors then ⟨[], []⟩
              else
                .cons (.error (.unexpectedCharacter c position))
                  (run recovery (recovery.length (c :: rest) - 1) next (errors + 1) rest)
          | some (rule, length) =>
              let lexeme := (c :: rest).take length
              let span : Span := ⟨position, position + Text.byteLength lexeme⟩
              match tokenKind? rule lexeme span with
              | .ok none => run recovery (length - 1) next errors rest
              | .ok (some kind) =>
                  if errorLimit ≤ errors then ⟨[], []⟩
                  else .cons (.ok ⟨kind, span⟩) (run recovery (length - 1) next errors rest)
              | .error error =>
                  if errorLimit ≤ errors then ⟨[], []⟩
                  else .cons (.error error) (run recovery (length - 1) next (errors + 1) rest)

/-- The tokens of a source text, closed by one that marks the end of the file, and its errors, with
some recovery. -/
def analyse (recovery : Recovery) (source : List Char) : Result :=
  let result := run recovery 0 0 0 source
  let stop := Text.byteLength source
  { result with tokens := result.tokens ++ [⟨.eof, ⟨stop, stop⟩⟩] }

/-- The tokens of a source text and its errors. -/
def tokenize (source : List Char) : Result :=
  analyse recovery source

end Lexer
end LockDiscipline
