import LockDiscipline.Grammar.Cursor
/-!
# Looking ahead

Some rules are chosen by tokens further on: a declaration of local variables begins like an
expression, a cast like a parenthesised expression, and a lambda like both. The functions here look
at the tokens that lie ahead and consume none. Types are scanned without their structure: inside
angle brackets only the brackets are counted.
-/

namespace LockDiscipline.Grammar

/-- The names of primitive types. -/
def primitiveTypes : List String :=
  ["boolean", "byte", "char", "short", "int", "long", "float", "double"]

/-- Whether a token may stand inside type arguments, besides the brackets themselves. -/
def isTypeArgumentToken : TokenKind → Bool
  | .ident _ => true
  | .symbol sign =>
      [.dot, .comma, .question, .leftBracket, .rightBracket, .amp].contains sign
  | .keyword word => word == .extends || word == .super
  | _ => false

/-- The tokens behind type arguments, given how many angle brackets are open before them. -/
def scanTypeArgs (depth : Nat) : List Token → Option (List Token)
  | [] => none
  | token :: rest =>
      if token.kind = .symbol .less then scanTypeArgs (depth + 1) rest
      else if token.kind = .symbol .greater then
        if depth ≤ 1 then some rest else scanTypeArgs (depth - 1) rest
      else if isTypeArgumentToken token.kind then scanTypeArgs depth rest
      else none

/-- The tokens behind any pairs of square brackets. -/
def scanDims : List Token → List Token
  | first :: second :: rest =>
      if first.kind = .symbol .leftBracket ∧ second.kind = .symbol .rightBracket then
        scanDims rest
      else first :: second :: rest
  | tokens => tokens

/-- The tokens behind a chain of identifiers with type arguments, at most `bound` of them. -/
def scanTypeSegments : Nat → List Token → Option (List Token)
  | 0, _ => none
  | _, [] => none
  | bound + 1, token :: rest =>
      if token.kind.isIdent then
        let afterArgs? :=
          if headKind rest = .symbol .less then scanTypeArgs 0 rest else some rest
        match afterArgs? with
        | none => none
        | some after =>
            if headKind after = .symbol .dot ∧ (kindAt 1 after).isIdent then
              scanTypeSegments bound (after.drop 1)
            else some after
      else none

/-- The tokens behind a type, if one lies ahead. -/
def scanType (tokens : List Token) : Option (List Token) :=
  (scanTypeSegments (tokens.length + 1) tokens).map scanDims

/-- Whether a type and a name lie ahead and then a token that may follow a declared variable. -/
def looksLikeLocalDecl (tokens : List Token) : Bool :=
  match scanType tokens with
  | none => false
  | some rest =>
      (headKind rest).isIdent &&
        [.symbol .assign, .symbol .semicolon, .symbol .comma, .symbol .colon,
          .symbol .leftBracket].contains (kindAt 1 rest)

/-- The tokens behind further bounds of a cast, each after an ampersand. -/
def scanBounds : Nat → List Token → Option (List Token)
  | 0, _ => none
  | bound + 1, tokens =>
      if headKind tokens = .symbol .amp then
        (scanType (tokens.drop 1)).bind (scanBounds bound)
      else some tokens

/-- Whether a token may begin the operand of a cast to a class. Signs may not: `(a) - b` is a
difference. -/
def beginsCastOperand : TokenKind → Bool
  | .ident _ | .int _ | .float _ | .string _ | .char _ | .bool _ | .null => true
  | .symbol sign => [.leftParen, .bang, .tilde].contains sign
  | .keyword word => [.this, .super, .new].contains word
  | _ => false

/-- Whether the parenthesis that lies ahead begins a cast. -/
def looksLikeCast (tokens : List Token) : Bool :=
  let inner := tokens.drop 1
  let primitive := match headKind inner with
    | .ident name => primitiveTypes.contains name
    | _ => false
  match (scanType inner).bind (scanBounds (inner.length + 1)) with
  | none => false
  | some rest =>
      headKind rest == .symbol .rightParen && (primitive || beginsCastOperand (kindAt 1 rest))

/-- Whether an arrow follows the parenthesis that closes `depth` open ones. -/
def arrowFollows (depth : Nat) : List Token → Bool
  | [] => false
  | token :: rest =>
      match token.kind with
      | .symbol .leftParen => arrowFollows (depth + 1) rest
      | .symbol .rightParen =>
          if depth ≤ 1 then headKind rest == .symbol .arrow else arrowFollows (depth - 1) rest
      | .eof | .symbol .semicolon | .symbol .leftBrace => false
      | _ => arrowFollows depth rest

/-- Whether the parenthesis that lies ahead begins the parameters of a lambda. -/
def looksLikeLambda (tokens : List Token) : Bool :=
  arrowFollows 0 tokens

end LockDiscipline.Grammar
