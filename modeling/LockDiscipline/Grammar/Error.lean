import LockDiscipline.Token.Lexer
/-!
# Syntax errors

A syntax error is a cause at a span. Most causes are an expectation that the token found does not
meet; the text of the message and the advice depend on both.
-/

namespace LockDiscipline

/-- What a rule of the grammar expects at a point. -/
inductive Expectation where
  | symbol (sign : Symbol)
  | keyword (word : Keyword)
  | name
  | type
  | expression
  | endOfExpression
  | typeDeclaration
deriving DecidableEq, Repr, Inhabited

/-- Why a text is not a program. -/
inductive SyntaxFault where
  /-- A lexical error, passed on. -/
  | lexical (error : LexError)
  | unmet (expected : Expectation) (found : TokenKind)
  /-- A `try` statement without resources, handlers and final block. -/
  | bareTry
  /-- An expression that is not a dotted name before `this` or `class`. -/
  | notATypeName
  /-- The bound on nested rules was reached. It grows with the number of tokens. -/
  | tooDeep
deriving DecidableEq, Repr, Inhabited

/-- A syntax error and the tokens that it points at. -/
structure SyntaxError where
  span : Span
  fault : SyntaxFault
deriving DecidableEq, Repr, Inhabited

namespace Expectation

/-- The words for what is expected. -/
def text : Expectation → String
  | .symbol sign => "'" ++ sign.text ++ "'"
  | .keyword word => "'" ++ word.text ++ "'"
  | .name => "a name"
  | .type => "type"
  | .expression => "expression"
  | .endOfExpression => "end of expression"
  | .typeDeclaration => "type declaration"

/-- The message for an expectation that a token does not meet. -/
def message (expected : Expectation) (found : TokenKind) : String :=
  let foundText := ", found " ++ found.displayName
  match expected, found with
  | .symbol .semicolon, _ => "Expected ';' after statement" ++ foundText
  | .symbol .leftBrace, _ => "Expected '\x7b' to start block" ++ foundText
  | .symbol .rightBrace, _ => "Expected '\x7d' to close block" ++ foundText
  | .symbol .rightParen, .eof => "Unclosed '(' - missing ')'"
  | .symbol .rightBracket, .eof => "Unclosed '[' - missing ']'"
  | .name, _ => "Expected name" ++ foundText
  | .endOfExpression, _ => "Unexpected " ++ found.displayName ++ " after expression"
  | _, _ => "Expected " ++ expected.text ++ foundText

/-- The advice for an expectation that a token does not meet. -/
def hint? (expected : Expectation) (found : TokenKind) : Option String :=
  match expected, found with
  | .symbol .semicolon, .symbol .rightBrace =>
      some "the last statement of a block still needs ';'"
  | .symbol .semicolon, _ => some "statements and field declarations end with ';'"
  | .symbol .leftBrace, _ => some "blocks start with '\x7b'"
  | .symbol .rightBrace, .eof => some "every '\x7b' needs a matching '\x7d'"
  | .symbol .leftParen, _ => some "method calls and control statements need parentheses"
  | .symbol .rightParen, .eof => some "add ')' to close the parenthesis"
  | .symbol .rightBracket, .eof => some "add ']' to close the bracket"
  | .symbol .greater, _ => some "close the type argument list with '>'"
  | .expression, .symbol .semicolon => some "statement is incomplete"
  | .expression, _ => some "try a value, variable, or method call"
  | .endOfExpression, _ => some "a guard names exactly one lock expression"
  | .name, .int _ => some "names can't start with a number"
  | .name, _ => some "names start with a letter, '_' or '$'"
  | .type, _ => some "try a type like 'int', 'Object' or 'List<String>'"
  | .typeDeclaration, _ =>
      some "top-level declarations start with 'class', 'interface' or 'enum'"
  | _, _ => none

end Expectation

namespace SyntaxError

/-- A lexical error as a syntax error. -/
def ofLexError (error : LexError) : SyntaxError :=
  ⟨error.span, .lexical error⟩

/-- The text of an error. -/
def message (error : SyntaxError) : String :=
  match error.fault with
  | .lexical error => error.message
  | .unmet expected found => expected.message found
  | .bareTry => "'try' without 'catch' or 'finally'"
  | .notATypeName => "Expected a type name"
  | .tooDeep => "Nesting too deep"

/-- The advice on an error. -/
def hint? (error : SyntaxError) : Option String :=
  match error.fault with
  | .lexical error => error.hint?
  | .unmet expected found => expected.hint? found
  | .bareTry => some "add a 'catch' or 'finally' block"
  | .notATypeName => some "only 'Name.this' and 'Name.class' are allowed here"
  | .tooDeep => none

end SyntaxError
end LockDiscipline
