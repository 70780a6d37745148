import LockDiscipline.Grammar.Error
import LockDiscipline.Syntax.Tree
/-!
# Reading tokens

A `Cursor` is a place in a token list together with what the grammar carries along: the errors met,
the next node number, and whether an arrow may begin a lambda body. A `Reader` is a computation that
moves the cursor and may fail; a failure leaves the cursor where it was found, so that recovery goes
on from there and the numbers given out stay used. The cursor only ever moves to a suffix of the
tokens, and never over a token that marks the end of the file.
-/

namespace LockDiscipline.Grammar

/-- A place in a token list and what is known there. -/
structure Cursor where
  /-- The tokens that are not consumed yet. -/
  rest : List Token
  /-- Where the last consumed token ends. -/
  lastEnd : Nat
  /-- Whether `x ->` begins a lambda here. It does not in the label of a case. -/
  lambdas : Bool
  /-- The errors recovered from, in order. -/
  errors : List SyntaxError
  nextId : NodeId
deriving Repr, Inhabited

/-- Computations that read tokens. -/
abbrev Reader := EStateM SyntaxError Cursor

/-- The number of errors at which recovery ends. -/
def errorLimit : Nat := 20

namespace Cursor

/-- The cursor before the first token. -/
def start (tokens : List Token) : Cursor :=
  ⟨tokens, 0, true, [], 0⟩

/-- The next token. Behind the last one the end of the file is assumed. -/
def current (cursor : Cursor) : Token :=
  cursor.rest.headD ⟨.eof, ⟨cursor.lastEnd, cursor.lastEnd⟩⟩

/-- Move over the next token, unless that marks the end of the file. -/
def advance (cursor : Cursor) : Cursor :=
  match cursor.rest with
  | [] => cursor
  | token :: rest =>
      if token.kind = .eof then cursor else { cursor with rest, lastEnd := token.span.stop }

end Cursor

/-- The kind of the token at the head of a list. -/
def headKind : List Token → TokenKind
  | [] => .eof
  | token :: _ => token.kind

/-- The kind of the token that `count` others precede. -/
def kindAt (count : Nat) (tokens : List Token) : TokenKind :=
  headKind (tokens.drop count)

/-- The kind of the next token. -/
def currentKind : Reader TokenKind :=
  return (← get).current.kind

/-- Where the next token starts. -/
def currentStart : Reader Nat :=
  return (← get).current.span.start

/-- The kind of a token behind the next one. -/
def peek (count : Nat) : Reader TokenKind :=
  return kindAt count (← get).rest

/-- Whether all tokens are read. -/
def atEnd : Reader Bool :=
  return (← currentKind) == .eof

/-- Consume the next token. -/
def advance : Reader Unit :=
  modify Cursor.advance

/-- Whether the next token is a symbol. -/
def atSymbol (sign : Symbol) : Reader Bool :=
  return (← currentKind) == .symbol sign

/-- Whether the next token is a keyword. -/
def atKeyword (word : Keyword) : Reader Bool :=
  return (← currentKind) == .keyword word

/-- Consume the next token if it is a symbol, and say whether it was. -/
def acceptSymbol (sign : Symbol) : Reader Bool := do
  let found ← atSymbol sign
  if found then advance
  return found

/-- Consume the next token if it is a keyword, and say whether it was. -/
def acceptKeyword (word : Keyword) : Reader Bool := do
  let found ← atKeyword word
  if found then advance
  return found

/-- Fail because the next token is not what the grammar expects. -/
def failExpected {α : Type} (expected : Expectation) : Reader α := do
  let token := (← get).current
  throw ⟨token.span, .unmet expected token.kind⟩

/-- Consume a symbol and return its span. -/
def expectSymbol (sign : Symbol) : Reader Span := do
  let token := (← get).current
  if token.kind = .symbol sign then
    advance
    return token.span
  else failExpected (.symbol sign)

/-- Consume a keyword and return its span. -/
def expectKeyword (word : Keyword) : Reader Span := do
  let token := (← get).current
  if token.kind = .keyword word then
    advance
    return token.span
  else failExpected (.keyword word)

/-- Consume an identifier. -/
def expectName : Reader String := do
  match ← currentKind with
  | .ident name =>
      advance
      return name
  | _ => failExpected .name

/-- A node number that was not given out before. -/
def freshId : Reader NodeId :=
  modifyGet fun cursor => (cursor.nextId, { cursor with nextId := cursor.nextId + 1 })

/-- The span from a start to the end of the last consumed token. -/
def spanFrom (start : Nat) : Reader Span :=
  return ⟨start, (← get).lastEnd⟩

/-- A new expression over the tokens read since `start`. -/
def mkExpr (kind : ExprKind) (start : Nat) : Reader Expr :=
  return ⟨← freshId, kind, ← spanFrom start⟩

/-- A new statement over the tokens read since `start`. -/
def mkStmt (kind : StmtKind) (start : Nat) : Reader Stmt :=
  return ⟨← freshId, kind, ← spanFrom start⟩

/-- A new member over the tokens read since `start`. -/
def mkMember (kind : MemberKind) (start : Nat) : Reader Member :=
  return ⟨← freshId, kind, ← spanFrom start⟩

/-- Keep an error that the reader recovers from, and say whether recovery may go on. -/
def recordError (error : SyntaxError) : Reader Bool :=
  modifyGet fun cursor =>
    let errors := cursor.errors ++ [error]
    (errors.length < errorLimit, { cursor with errors })

/-- The outcome of a reader as a value, so that the caller can recover. -/
def attempt {α : Type} (reader : Reader α) : Reader (Except SyntaxError α) :=
  tryCatch (Except.ok <$> reader) fun error => pure (.error error)

/-- Run a reader with lambdas allowed or not, and restore what was set before, also on failure. -/
def withLambdas {α : Type} (allowed restored : Bool) (reader : Reader α) : Reader α := do
  modify ({ · with lambdas := allowed })
  let outcome ← attempt reader
  modify ({ · with lambdas := restored })
  match outcome with
  | .ok value => return value
  | .error error => throw error

/-- What a reader yields, if it is to run. -/
def readWhen {α : Type} (found : Bool) (reader : Reader α) : Reader (Option α) :=
  if found then some <$> reader else pure none

/-- An upper bound for the number of iterations of a loop that consumes tokens. -/
def loopBound : Reader Nat :=
  return (← get).rest.length + 1

/-- Fail because a bound on the rules or iterations was reached. -/
def failTooDeep {α : Type} : Reader α := do
  throw ⟨(← get).current.span, .tooDeep⟩

/-- Run a step again and again on its own result, until it yields none, at most `bound` times. -/
def iterateUpTo {α : Type} (step : α → Reader (Option α)) : Nat → α → Reader α
  | 0, _ => failTooDeep
  | bound + 1, value => do
      match ← step value with
      | some next => iterateUpTo step bound next
      | none => return value

/-- Run a step on its own result until it yields none. Every step but the last has to consume a
token. -/
def iterate {α : Type} (step : α → Reader (Option α)) (value : α) : Reader α := do
  iterateUpTo step (← loopBound) value

/-- One more value of a step, put before those that it yielded, unless it yields none. -/
def collectStep {α : Type} (step : Reader (Option α)) (values : List α) :
    Reader (Option (List α)) := do
  match ← step with
  | some value => return some (value :: values)
  | none => return none

/-- The values that a step yields until it yields none. -/
def collect {α : Type} (step : Reader (Option α)) : Reader (List α) := do
  let values ← iterate (collectStep step) []
  return values.reverse

/-- Items with a symbol between them, at least one. -/
def separated {α : Type} (separator : Symbol) (item : Reader α) : Reader (List α) := do
  let first ← item
  let others ← collect do
    if ← acceptSymbol separator then return some (← item) else return none
  return first :: others

/-- Items with a symbol between them, and possibly behind the last, up to a closing symbol or the
end of the file. The closing symbol is not consumed. -/
def enumerated {α : Type} (close separator : Symbol) (item : Reader α) : Reader (List α) := do
  let (items, _) ← iterate (fun ((items, more) : List α × Bool) => do
    if !more || (← atSymbol close) || (← atEnd) then return none
    else
      let value ← item
      return some (value :: items, ← acceptSymbol separator)) ([], true)
  return items.reverse

end LockDiscipline.Grammar
