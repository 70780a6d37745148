import LockDiscipline.Grammar.Expression
/-!
# Statements

A statement that cannot be read does not spoil its block: the error is kept and reading goes on at
the next place where a statement can begin. After the last error that may be kept, the rest of the
block is skipped.
-/

namespace LockDiscipline.Grammar

variable (rules : Rules)

/-- The keywords that begin a statement and so end the recovery from an error. -/
def beginsStatement (word : Keyword) : Bool :=
  [.if, .while, .for, .do, .return, .try, .throw, .switch, .synchronized].contains word

/-- Skip one token on the way to a place where a statement can begin, inside of `depth` braces that were
opened on the way. -/
def skipToStatementStep (depth : Nat) : Reader (Option Nat) := do
  match ← currentKind with
  | .eof => return none
  | .symbol .rightBrace =>
      if depth = 0 then return none
      advance
      return some (depth - 1)
  | .symbol .leftBrace =>
      advance
      return some (depth + 1)
  | .symbol .semicolon =>
      advance
      -- Behind a semicolon of the block itself reading goes on at once.
      if depth = 0 then return none else return some depth
  | .keyword word =>
      if depth = 0 && beginsStatement word then return none
      advance
      return some depth
  | _ =>
      advance
      return some depth

/-- Skip to a place in a block where a statement can begin, outside of the braces opened on the
way. -/
def skipToStatement : Reader Unit := do
  let _ ← iterate skipToStatementStep 0
  return ()

/-- Recover from a statement that failed, `before` being the number of tokens that lay ahead of it.
At least one token is skipped unless the block ends here. -/
def recoverInBlock (before : Nat) : Reader Unit := do
  let after := (← get).rest.length
  if after = before && !(← atSymbol .rightBrace) then advance
  skipToStatement

/-- Skip one token on the way to the brace that closes the outermost of `depth` open ones. -/
def skipToClosingBraceStep (depth : Nat) : Reader (Option Nat) := do
  match ← currentKind with
  | .eof => return none
  | .symbol .rightBrace =>
      if depth ≤ 1 then return none
      advance
      return some (depth - 1)
  | .symbol .leftBrace =>
      advance
      return some (depth + 1)
  | _ =>
      advance
      return some depth

/-- Skip to the brace that closes the block. -/
def skipToClosingBrace : Reader Unit := do
  let _ ← iterate skipToClosingBraceStep 1
  return ()

/-- What is known of a list of statements while it is read: the statements, the last one first, and
whether to go on. -/
structure StmtScan where
  stmts : List Stmt
  more : Bool

/-- One more statement, unless a token ends the list, with recovery from an error. -/
def readStmtsStep (isEnd : TokenKind → Bool) (scan : StmtScan) : Reader (Option StmtScan) := do
  let kind ← currentKind
  if !scan.more || isEnd kind || kind == .eof then return none
  let before := (← get).rest.length
  match ← attempt (rules _ .stmt) with
  | .ok stmt => return some { scan with stmts := stmt :: scan.stmts }
  | .error error =>
      if ← recordError error then
        recoverInBlock before
        return some scan
      else
        skipToClosingBrace
        return some { scan with more := false }

/-- Statements up to a token that ends them, with recovery from errors. -/
def readStmtsUntil (isEnd : TokenKind → Bool) : Reader (List Stmt) := do
  let scan ← iterate (readStmtsStep rules isEnd) ⟨[], true⟩
  return scan.stmts.reverse

/-- A block, without its braces. -/
def readBlock : Reader (List Stmt) := do
  let _ ← expectSymbol .leftBrace
  let stmts ← readStmtsUntil rules (· == .symbol .rightBrace)
  let _ ← expectSymbol .rightBrace
  return stmts

/-- What follows the name of a declared variable. -/
def readDeclaratorRest (name : String) (start : Nat) : Reader Declarator := do
  let _ ← readDims
  let init ← readWhen (← acceptSymbol .assign) (rules _ .varInit)
  return ⟨← freshId, name, init, ← spanFrom start⟩

/-- A declared variable from its name on. -/
def readDeclarator : Reader Declarator := do
  let start ← currentStart
  let name ← expectName
  readDeclaratorRest rules name start

/-- The variables of a declaration, the name of the first one already read. -/
def readDeclarators (first : String) (start : Nat) : Reader (List Declarator) := do
  let head ← readDeclaratorRest rules first start
  let others ← collect do
    if ← acceptSymbol .comma then return some (← readDeclarator rules) else return none
  return head :: others

/-- An expression in parentheses. -/
def readCondition : Reader Expr := do
  let _ ← expectSymbol .leftParen
  let expr ← rules _ .expr
  let _ ← expectSymbol .rightParen
  return expr

/-- Consume the semicolon that ends a statement. -/
def endStatement : Reader Unit := do
  let _ ← expectSymbol .semicolon

/-- A declaration of local variables. -/
def readLocalVars : Reader StmtKind := do
  let type ← rules _ .type
  let declarators ← separated .comma (readDeclarator rules)
  endStatement
  return .localVars type declarators

/-- An `if` statement. -/
def readIf : Reader StmtKind := do
  advance
  let cond ← readCondition rules
  let whenTrue ← rules _ .stmt
  let whenFalse ← readWhen (← acceptKeyword .else) (rules _ .stmt)
  return .ifElse cond whenTrue whenFalse

/-- A `while` statement. -/
def readWhile : Reader StmtKind := do
  advance
  let cond ← readCondition rules
  return .whileLoop cond (← rules _ .stmt)

/-- A `do` statement. -/
def readDo : Reader StmtKind := do
  advance
  let body ← rules _ .stmt
  let _ ← expectKeyword .while
  let cond ← readCondition rules
  endStatement
  return .doWhile body cond

/-- Whether a declaration of a variable lies ahead in the head of a statement. -/
def declarationAhead : Reader Bool := do
  if (← atKeyword .final) || (← atSymbol .at) then return true
  ahead looksLikeLocalDecl

/-- Whether a `for` statement goes on as the loop over a collection, or else how it starts. -/
inductive ForHead where
  | over (type name : String) (iterated : Expr)
  | starts (init : List Stmt)

/-- The declaration in the head of a `for` statement. -/
def readForDeclaration (start : Nat) : Reader ForHead := do
  let _ ← readModifiers rules
  let type ← rules _ .type
  let nameStart ← currentStart
  let name ← expectName
  if ← acceptSymbol .colon then
    let iterated ← rules _ .expr
    let _ ← expectSymbol .rightParen
    return .over type name iterated
  else
    let declarators ← readDeclarators rules name nameStart
    return .starts [← mkStmt (.localVars type declarators) start]

/-- Number expressions as statements, in order. -/
def mkExprStmts : List Expr → Reader (List Stmt)
  | [] => return []
  | expr :: rest => do
      let stmt ← mkStmt (.expr expr) expr.span.start
      return stmt :: (← mkExprStmts rest)

/-- What stands before the first semicolon or the colon of a `for` statement. -/
def readForHead : Reader ForHead := do
  let start ← currentStart
  if ← declarationAhead then readForDeclaration rules start
  else if ← atSymbol .semicolon then return .starts []
  else
    let exprs ← separated .comma (rules _ .expr)
    return .starts (← mkExprStmts exprs)

/-- A `for` statement of either kind. -/
def readFor : Reader StmtKind := do
  advance
  let _ ← expectSymbol .leftParen
  match ← readForHead rules with
  | .over type name iterated => return .forEach type name iterated (← rules _ .stmt)
  | .starts init =>
      let _ ← expectSymbol .semicolon
      let cond ← readWhen (!(← atSymbol .semicolon)) (rules _ .expr)
      let _ ← expectSymbol .semicolon
      let update ← if ← atSymbol .rightParen then pure []
        else separated .comma (rules _ .expr)
      let _ ← expectSymbol .rightParen
      return .forLoop init cond update (← rules _ .stmt)

/-- A resource of a `try` statement. Its number precedes those of its parts. -/
def readResource : Reader Resource := do
  let id ← freshId
  if ← declarationAhead then
    let _ ← readModifiers rules
    let type ← rules _ .type
    let name ← expectName
    let _ ← expectSymbol .assign
    return ⟨id, some type, some name, ← rules _ .expr⟩
  else return ⟨id, none, none, ← rules _ .expr⟩

/-- The resources of a `try` statement, if it has any. -/
def readResources : Reader (List Resource) := do
  if ← acceptSymbol .leftParen then
    let resources ← enumerated .rightParen .semicolon (readResource rules)
    let _ ← expectSymbol .rightParen
    return resources
  else return []

/-- A handler of a `try` statement. -/
def readCatch : Reader CatchClause := do
  let start := (← expectKeyword .catch).start
  let _ ← expectSymbol .leftParen
  let _ ← readModifiers rules
  let types ← separated .pipe (rules _ .type)
  let name ← expectName
  let _ ← expectSymbol .rightParen
  let body ← rules _ .block
  return ⟨← freshId, types, name, body, ← spanFrom start⟩

/-- A `try` statement, which needs resources, a handler or a final block. -/
def readTry : Reader StmtKind := do
  let trySpan ← expectKeyword .try
  let resources ← readResources rules
  let body ← rules _ .block
  let catches ← collect do
    if ← atKeyword .catch then return some (← readCatch rules) else return none
  let finallyBody ← readWhen (← acceptKeyword .finally) (rules _ .block)
  if resources.isEmpty && catches.isEmpty && finallyBody.isNone then
    throw ⟨trySpan, .bareTry⟩
  return .tryCatch resources body catches finallyBody

/-- The tokens that end the statements of a case. -/
def endsCase : TokenKind → Bool
  | .keyword .case | .keyword .default | .symbol .rightBrace => true
  | _ => false

/-- The statements of a case, behind an arrow or a colon. -/
def readCaseBody : Reader (List Stmt) := do
  if ← acceptSymbol .arrow then
    if ← atSymbol .leftBrace then rules _ .block
    else return [← rules _ .stmt]
  else
    let _ ← expectSymbol .colon
    readStmtsUntil rules endsCase

/-- A case of a `switch` statement. An arrow behind a label does not begin a lambda. -/
def readCase : Reader SwitchCase := do
  let isDefault ← acceptKeyword .default
  let labels ← if isDefault then pure []
    else
      let _ ← expectKeyword .case
      withLambdas false true (separated .comma (rules _ .ternary))
  return ⟨labels, isDefault, ← readCaseBody rules⟩

/-- A case, or none where the cases of a `switch` statement end. -/
def readCase? : Reader (Option SwitchCase) := do
  if (← atSymbol .rightBrace) || (← atEnd) then return none
  else return some (← readCase rules)

/-- A `switch` statement. -/
def readSwitch : Reader StmtKind := do
  advance
  let selector ← readCondition rules
  let _ ← expectSymbol .leftBrace
  let cases ← collect (readCase? rules)
  let _ ← expectSymbol .rightBrace
  return .switch selector cases

/-- What follows the modifiers and the keyword of a class: type parameters, supertypes, body. -/
def readClassRest (kind : ClassKind) (modifiers : Modifiers) (start : Nat) :
    Reader ClassDecl := do
  let id ← freshId
  let name ← expectName
  let typeParams ← readTypeParams rules
  let (superclass, extended) ←
    if ← acceptKeyword .extends then
      if kind = .interface then pure (none, ← readTypeList rules)
      else pure (some (← rules _ .type), [])
    else pure (none, [])
  let implemented ← if ← acceptKeyword .implements then readTypeList rules else pure []
  let members ← rules _ (.classBody name (kind = .enum))
  return {
    id, name, kind, modifiers, typeParams, superclass, interfaces := extended ++ implemented,
    members, span := ← spanFrom start }

/-- A class behind its modifiers. An annotation type counts as an interface. -/
def readClass (modifiers : Modifiers) (start : Nat) : Reader ClassDecl := do
  match ← currentKind with
  | .keyword .class =>
      advance
      readClassRest rules .class modifiers start
  | .keyword .interface =>
      advance
      readClassRest rules .interface modifiers start
  | .keyword .enum =>
      advance
      readClassRest rules .enum modifiers start
  | .symbol .at =>
      if (← peek 1) == .keyword .interface then
        advance
        advance
        readClassRest rules .interface modifiers start
      else failExpected .typeDeclaration
  | _ => failExpected .typeDeclaration

/-- Whether a keyword begins a class. -/
def beginsClass : TokenKind → Bool
  | .keyword .class | .keyword .interface | .keyword .enum => true
  | _ => false

/-- A local class or a local declaration behind modifiers. -/
def readModified (start : Nat) : Reader StmtKind := do
  let modifiers ← readModifiers rules
  if beginsClass (← currentKind) then return .localClass (← readClass rules modifiers start)
  else readLocalVars rules

/-- A statement that no keyword announces: a labeled one, a declaration or an expression. -/
def readPlain : Reader StmtKind := do
  if (← currentKind).isIdent && (← peek 1) == .symbol .colon then
    let label ← expectName
    advance
    return .labeled label (← rules _ .stmt)
  else if ← ahead looksLikeLocalDecl then readLocalVars rules
  else
    let expr ← rules _ .expr
    endStatement
    return .expr expr

/-- A statement that ends the current one, with its label if it has one. -/
def readJump (kind : Option String → StmtKind) : Reader StmtKind := do
  advance
  let label ← readWhen (← currentKind).isIdent expectName
  endStatement
  return kind label

/-- A `return` statement. -/
def readReturn : Reader StmtKind := do
  advance
  let value ← readWhen (!(← atSymbol .semicolon)) (rules _ .expr)
  endStatement
  return .return value

/-- A `throw` statement. -/
def readThrow : Reader StmtKind := do
  advance
  let value ← rules _ .expr
  endStatement
  return .throw value

/-- An `assert` statement. -/
def readAssert : Reader StmtKind := do
  advance
  let cond ← rules _ .expr
  let message ← readWhen (← acceptSymbol .colon) (rules _ .expr)
  endStatement
  return .assert cond message

/-- A `synchronized` statement. -/
def readSynchronized : Reader StmtKind := do
  advance
  let lock ← readCondition rules
  return .synchronized lock (← rules _ .block)

/-- What a statement that begins at `start` is, chosen by its first tokens. -/
def readStmtKind (start : Nat) : Reader StmtKind := do
  match ← currentKind with
  | .symbol .leftBrace => return .block (← rules _ .block)
  | .symbol .semicolon =>
      advance
      return .empty
  | .symbol .at => readModified rules start
  | .keyword .if => readIf rules
  | .keyword .while => readWhile rules
  | .keyword .do => readDo rules
  | .keyword .for => readFor rules
  | .keyword .return => readReturn rules
  | .keyword .throw => readThrow rules
  | .keyword .break => readJump .break
  | .keyword .continue => readJump .continue
  | .keyword .try => readTry rules
  | .keyword .switch => readSwitch rules
  | .keyword .synchronized =>
      if (← peek 1) == .symbol .leftParen then readSynchronized rules else readPlain rules
  | .keyword .assert => readAssert rules
  | .keyword .class | .keyword .interface | .keyword .enum | .keyword .final
  | .keyword .abstract | .keyword .static | .keyword .strictfp => readModified rules start
  | _ => readPlain rules

/-- A statement. -/
def readStmt : Reader Stmt := do
  let start ← currentStart
  let kind ← readStmtKind rules start
  mkStmt kind start

end LockDiscipline.Grammar
