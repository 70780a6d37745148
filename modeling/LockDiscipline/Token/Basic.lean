import LockDiscipline.Source.Span
import LockDiscipline.Number.Binary64
/-!
# Tokens

A token is a lexeme of the source with its span. Keywords and operator symbols are finite sets with
one spelling each, so the lexer reads them off the two tables `Keyword.all` and `Symbol.all`. The
names of primitive types are ordinary identifiers. A closing angle bracket is always a token of its
own: shifts are put together later from adjacent brackets, so that nested type arguments close.
-/

namespace LockDiscipline

/-- The reserved words that are not literals. -/
inductive Keyword where
  | «abstract» | «assert» | «break» | «case» | «catch» | «class» | «continue» | «default» | «do»
  | «else» | «enum» | «extends» | «final» | «finally» | «for» | «if» | «implements» | «import»
  | «instanceof» | «interface» | «native» | «new» | «package» | «private» | «protected» | «public»
  | «return» | «static» | «strictfp» | «super» | «switch» | «synchronized» | «this» | «throw»
  | «throws» | «transient» | «try» | «void» | «volatile» | «while»
deriving DecidableEq, Repr, Inhabited

namespace Keyword

/-- Every keyword. -/
def all : List Keyword :=
  [.abstract, .assert, .break, .case, .catch, .class, .continue, .default, .do, .else, .enum,
    .extends, .final, .finally, .for, .if, .implements, .import, .instanceof, .interface, .native,
    .new, .package, .private, .protected, .public, .return, .static, .strictfp, .super, .switch,
    .synchronized, .this, .throw, .throws, .transient, .try, .void, .volatile, .while]

/-- The spelling of a keyword. -/
def text : Keyword → String
  | .abstract => "abstract" | .assert => "assert" | .break => "break" | .case => "case"
  | .catch => "catch" | .class => "class" | .continue => "continue" | .default => "default"
  | .do => "do" | .else => "else" | .enum => "enum" | .extends => "extends" | .final => "final"
  | .finally => "finally" | .for => "for" | .if => "if" | .implements => "implements"
  | .import => "import" | .instanceof => "instanceof" | .interface => "interface"
  | .native => "native" | .new => "new" | .package => "package" | .private => "private"
  | .protected => "protected" | .public => "public" | .return => "return" | .static => "static"
  | .strictfp => "strictfp" | .super => "super" | .switch => "switch"
  | .synchronized => "synchronized" | .this => "this" | .throw => "throw" | .throws => "throws"
  | .transient => "transient" | .try => "try" | .void => "void" | .volatile => "volatile"
  | .while => "while"

/-- The keyword with a spelling. -/
def ofText? (word : String) : Option Keyword :=
  all.find? (·.text == word)

/-- The keywords that may stand before a declaration to qualify it. -/
def isModifier : Keyword → Bool
  | .public | .protected | .private | .static | .final | .abstract | .synchronized | .volatile
  | .transient | .native | .strictfp | .default => true
  | _ => false

end Keyword

/-- The operators and delimiters. -/
inductive Symbol where
  | plus | minus | star | slash | percent | assign | equal | notEqual | less | greater | lessEqual
  | greaterEqual | ampAmp | pipePipe | bang | tilde | amp | pipe | caret | shiftLeft | plusPlus
  | minusMinus | plusAssign | minusAssign | starAssign | slashAssign | percentAssign | ampAssign
  | pipeAssign | caretAssign | shiftLeftAssign | shiftRightAssign | unsignedShiftRightAssign
  | question | colon | colonColon | arrow | at | dot | ellipsis | leftBrace | rightBrace
  | leftParen | rightParen | leftBracket | rightBracket | semicolon | comma
deriving DecidableEq, Repr, Inhabited

namespace Symbol

/-- Every symbol. -/
def all : List Symbol :=
  [.plus, .minus, .star, .slash, .percent, .assign, .equal, .notEqual, .less, .greater, .lessEqual,
    .greaterEqual, .ampAmp, .pipePipe, .bang, .tilde, .amp, .pipe, .caret, .shiftLeft, .plusPlus,
    .minusMinus, .plusAssign, .minusAssign, .starAssign, .slashAssign, .percentAssign, .ampAssign,
    .pipeAssign, .caretAssign, .shiftLeftAssign, .shiftRightAssign, .unsignedShiftRightAssign,
    .question, .colon, .colonColon, .arrow, .at, .dot, .ellipsis, .leftBrace, .rightBrace,
    .leftParen, .rightParen, .leftBracket, .rightBracket, .semicolon, .comma]

/-- The spelling of a symbol. -/
def text : Symbol → String
  | .plus => "+" | .minus => "-" | .star => "*" | .slash => "/" | .percent => "%" | .assign => "="
  | .equal => "==" | .notEqual => "!=" | .less => "<" | .greater => ">" | .lessEqual => "<="
  | .greaterEqual => ">=" | .ampAmp => "&&" | .pipePipe => "||" | .bang => "!" | .tilde => "~"
  | .amp => "&" | .pipe => "|" | .caret => "^" | .shiftLeft => "<<" | .plusPlus => "++"
  | .minusMinus => "--" | .plusAssign => "+=" | .minusAssign => "-=" | .starAssign => "*="
  | .slashAssign => "/=" | .percentAssign => "%=" | .ampAssign => "&=" | .pipeAssign => "|="
  | .caretAssign => "^=" | .shiftLeftAssign => "<<=" | .shiftRightAssign => ">>="
  | .unsignedShiftRightAssign => ">>>=" | .question => "?" | .colon => ":" | .colonColon => "::"
  | .arrow => "->" | .at => "@" | .dot => "." | .ellipsis => "..." | .leftBrace => "\x7b"
  | .rightBrace => "\x7d" | .leftParen => "(" | .rightParen => ")" | .leftBracket => "["
  | .rightBracket => "]" | .semicolon => ";" | .comma => ","

end Symbol

/-- What a token is: a literal with its value, an identifier, a keyword, a symbol, or the end of
the file. -/
inductive TokenKind where
  | int (value : Int64)
  | float (value : Binary64)
  | string (text : String)
  | char (value : Char)
  | bool (value : Bool)
  | null
  | ident (name : String)
  | keyword (word : Keyword)
  | symbol (sign : Symbol)
  | eof
deriving DecidableEq, Repr, Inhabited

namespace TokenKind

/-- How messages name a token of this kind. -/
def displayName : TokenKind → String
  | .int _ | .float _ => "a number"
  | .string _ => "a string"
  | .char _ => "a character"
  | .bool _ => "'true' or 'false'"
  | .null => "'null'"
  | .ident _ => "a name"
  | .keyword word => "'" ++ word.text ++ "'"
  | .symbol sign => "'" ++ sign.text ++ "'"
  | .eof => "end of file"

/-- Whether the token may stand before a declaration to qualify it. -/
def isModifier : TokenKind → Bool
  | .keyword word => word.isModifier
  | _ => false

/-- Whether the token is an identifier. -/
def isIdent : TokenKind → Bool
  | .ident _ => true
  | _ => false

end TokenKind

/-- A lexeme of the source and where it stands. -/
structure Token where
  kind : TokenKind
  span : Span
deriving DecidableEq, Repr, Inhabited

end LockDiscipline
