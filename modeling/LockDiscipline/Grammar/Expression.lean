import LockDiscipline.Grammar.Type
import LockDiscipline.Syntax.Basic
/-!
# Expressions

Binary operators are read by climbing their precedences: behind an operand, every operator of at
least the required precedence takes it as its left operand, and the right operand admits only
operators that bind more strongly. Shifts to the right are two or three adjacent angle brackets.
-/

namespace LockDiscipline.Grammar

variable (rules : Rules)

/-- The assignment operators, compound ones with the operator that they apply. -/
def assignOperator? : TokenKind → Option (Option BinaryOp)
  | .symbol .assign => some none
  | .symbol .plusAssign => some (some .add)
  | .symbol .minusAssign => some (some .sub)
  | .symbol .starAssign => some (some .mul)
  | .symbol .slashAssign => some (some .div)
  | .symbol .percentAssign => some (some .mod)
  | .symbol .ampAssign => some (some .bitAnd)
  | .symbol .pipeAssign => some (some .bitOr)
  | .symbol .caretAssign => some (some .bitXor)
  | .symbol .shiftLeftAssign => some (some .shiftLeft)
  | .symbol .shiftRightAssign => some (some .shiftRight)
  | .symbol .unsignedShiftRightAssign => some (some .unsignedShiftRight)
  | _ => none

/-- The precedence of the relational operators, which `instanceof` shares. -/
def relationalPrecedence : Nat := 7

/-- The precedence of a binary operator; a greater one binds more strongly. -/
def precedence : BinaryOp → Nat
  | .or => 1
  | .and => 2
  | .bitOr => 3
  | .bitXor => 4
  | .bitAnd => 5
  | .equal | .notEqual => 6
  | .less | .lessEqual | .greater | .greaterEqual => relationalPrecedence
  | .shiftLeft | .shiftRight | .unsignedShiftRight => 8
  | .add | .sub => 9
  | .mul | .div | .mod => 10

/-- The binary operators that are one symbol. -/
def symbolOperator? : Symbol → Option BinaryOp
  | .pipePipe => some .or
  | .ampAmp => some .and
  | .pipe => some .bitOr
  | .caret => some .bitXor
  | .amp => some .bitAnd
  | .equal => some .equal
  | .notEqual => some .notEqual
  | .less => some .less
  | .lessEqual => some .lessEqual
  | .greater => some .greater
  | .greaterEqual => some .greaterEqual
  | .shiftLeft => some .shiftLeft
  | .plus => some .add
  | .minus => some .sub
  | .star => some .mul
  | .slash => some .div
  | .percent => some .mod
  | _ => none

/-- How many closing angle brackets lie ahead without a gap between them. -/
def adjacentBrackets : List Token → Nat
  | [] => 0
  | first :: rest =>
      if first.kind = .symbol .greater then
        match rest with
        | [] => 1
        | second :: _ =>
            if second.kind = .symbol .greater ∧ first.span.stop = second.span.start then
              1 + adjacentBrackets rest
            else 1
      else 0

/-- The binary operator that lies ahead and how many tokens it takes. -/
def binaryOperator? (tokens : List Token) : Option (BinaryOp × Nat) :=
  match headKind tokens with
  | .symbol .greater =>
      match adjacentBrackets tokens with
      | 1 => some (.greater, 1)
      | 2 => some (.shiftRight, 2)
      | _ => some (.unsignedShiftRight, 3)
  | .symbol sign => (symbolOperator? sign).map (·, 1)
  | _ => none

/-- The operators that stand before their operand. -/
def unaryOperator? : TokenKind → Option UnaryOp
  | .symbol .minus => some .negate
  | .symbol .plus => some .plus
  | .symbol .bang => some .not
  | .symbol .tilde => some .bitNot
  | .symbol .plusPlus => some .preIncrement
  | .symbol .minusMinus => some .preDecrement
  | _ => none

/-- Consume a number of tokens. -/
def advanceBy : Nat → Reader Unit
  | 0 => return ()
  | count + 1 => do
      advance
      advanceBy count

/-- An expression, with assignments, which associate to the right. -/
def readExpr : Reader Expr := do
  let start ← currentStart
  let target ← rules _ .ternary
  match assignOperator? (← currentKind) with
  | some op =>
      advance
      let value ← rules _ .expr
      mkExpr (.assign op target value) start
  | none => return target

/-- An expression without assignments at its top. -/
def readTernary : Reader Expr := do
  let start ← currentStart
  let cond ← rules _ (.binary 0)
  if ← acceptSymbol .question then
    let whenTrue ← rules _ .expr
    let _ ← expectSymbol .colon
    let whenFalse ← rules _ .ternary
    mkExpr (.conditional cond whenTrue whenFalse) start
  else return cond

/-- A type test behind its operand; the variable of a pattern is read and dropped. -/
def readInstanceOf (operand : Expr) (start : Nat) : Reader Expr := do
  advance
  let _ ← acceptKeyword .final
  let type ← rules _ .type
  if (← currentKind).isIdent then advance
  mkExpr (.instanceOf operand type) start

/-- Operands and binary operators of at least a precedence. -/
def readBinary (least : Nat) : Reader Expr := do
  let start ← currentStart
  let first ← rules _ .unary
  iterate (fun left => do
    if ← atKeyword .instanceof then
      if relationalPrecedence < least then return none
      else return some (← readInstanceOf rules left start)
    else
      match binaryOperator? (← get).rest with
      | none => return none
      | some (op, width) =>
          if precedence op < least then return none
          else
            advanceBy width
            let right ← rules _ (.binary (precedence op + 1))
            return some (← mkExpr (.binary op left right) start)) first

/-- Arguments in parentheses. -/
def readArgs : Reader (List Expr) := do
  let _ ← expectSymbol .leftParen
  let args ← enumerated .rightParen .comma (rules _ .expr)
  let _ ← expectSymbol .rightParen
  return args

/-- The dotted name that an expression spells, where only a type may stand. -/
def requireTypeName (expr : Expr) : Reader String :=
  match expr.dottedName? with
  | some name => return name
  | none => throw ⟨expr.span, .notATypeName⟩

/-- The body of an anonymous class or an enum constant, as a class. -/
def readAnonymousBody (superclass : String) (start : Nat) : Reader ClassDecl := do
  let id ← freshId
  let members ← rules _ (.classBody "" false)
  return {
    id, name := "", kind := .anonymous, modifiers := ⟨[], []⟩, typeParams := [],
    superclass := some superclass, interfaces := [], members, span := ← spanFrom start }

/-- The dimensions of an array creation; empty ones are dropped. -/
def readArrayDims : Reader (List Expr) := do
  let dims ← collect do
    if ← acceptSymbol .leftBracket then
      if ← acceptSymbol .rightBracket then return some none
      let dim ← rules _ .expr
      let _ ← expectSymbol .rightBracket
      return some (some dim)
    else return none
  return dims.filterMap id

/-- The creation of an instance or an array. -/
def readNew (start : Nat) : Reader Expr := do
  let _ ← expectKeyword .new
  skipAnnotations rules
  let type ← readTypeName rules
  if ← atSymbol .leftBracket then
    let dims ← readArrayDims rules
    let init ← readWhen (← atSymbol .leftBrace) (readArrayItems (rules _ .varInit))
    mkExpr (.newArray type dims init) start
  else
    let args ← readArgs rules
    let body ← readWhen (← atSymbol .leftBrace) (readAnonymousBody rules type start)
    mkExpr (.new type args body) start

/-- What is known of lambda parameters while they are read: the names before the last separator, the
last identifier behind it, and how many angle brackets are open. -/
structure ParamScan where
  names : List String
  last : Option String
  depth : Nat

/-- The names of lambda parameters. A parameter may have modifiers and a type before its name, so
the last identifier before a separator is the name. -/
def readLambdaParams : Reader (List String) := do
  let scan ← iterate (fun (scan : ParamScan) => do
    match ← currentKind with
    | .symbol .rightParen | .eof => return none
    | .symbol .comma =>
        advance
        if scan.depth = 0 then
          return some { scan with names := scan.names ++ scan.last.toList, last := none }
        else return some scan
    | .symbol .less =>
        advance
        return some { scan with depth := scan.depth + 1 }
    | .symbol .greater =>
        advance
        return some { scan with depth := scan.depth - 1 }
    | .ident name =>
        advance
        return some { scan with last := some name }
    | _ =>
        advance
        return some scan) ⟨[], none, 0⟩
  return scan.names ++ scan.last.toList

/-- A lambda expression. -/
def readLambda (start : Nat) : Reader Expr := do
  let params ← match ← currentKind with
    | .ident name => do
        advance
        pure [name]
    | _ => do
        let _ ← expectSymbol .leftParen
        let names ← readLambdaParams
        let _ ← expectSymbol .rightParen
        pure names
  let _ ← expectSymbol .arrow
  let body ← if ← atSymbol .leftBrace then LambdaBody.block <$> rules _ .block
    else LambdaBody.expr <$> rules _ .expr
  mkExpr (.lambda params body) start

/-- A keyword for an instance, or a call of a constructor through it. -/
def readSelf (name : String) (kind : ExprKind) (start : Nat) : Reader Expr := do
  advance
  if ← atSymbol .leftParen then
    let args ← readArgs rules
    mkExpr (.call none name args) start
  else mkExpr kind start

/-- A literal, whose token is consumed. -/
def readLiteral (kind : ExprKind) (start : Nat) : Reader Expr := do
  advance
  mkExpr kind start

/-- A name, a call in scope, or a lambda with one bare parameter. -/
def readNameOrCall (name : String) (start : Nat) : Reader Expr := do
  if (← get).lambdas && (← peek 1) == .symbol .arrow then readLambda rules start
  else
    advance
    if ← atSymbol .leftParen then
      let args ← readArgs rules
      mkExpr (.call none name args) start
    else mkExpr (.name name) start

/-- A parenthesised expression, in which lambdas are allowed, or a lambda. -/
def readParenthesized (start : Nat) : Reader Expr := do
  let saved := (← get).lambdas
  if saved && (← ahead looksLikeLambda) then readLambda rules start
  else
    advance
    let inner ← withLambdas true saved (rules _ .expr)
    let _ ← expectSymbol .rightParen
    mkExpr (.paren inner) start

/-- The literal that a token spells. -/
def literal? : TokenKind → Option ExprKind
  | .int value => some (.int value)
  | .float value => some (.float value)
  | .string text => some (.string text)
  | .char value => some (.char value)
  | .bool value => some (.bool value)
  | .null => some .null
  | _ => none

/-- An operand without operators. -/
def readPrimary : Reader Expr := do
  let start ← currentStart
  let kind ← currentKind
  match literal? kind with
  | some literal => readLiteral literal start
  | none =>
      match kind with
      | .keyword .this => readSelf rules "this" .this start
      | .keyword .super => readSelf rules "super" .super start
      | .keyword .new => readNew rules start
      | .ident name => readNameOrCall rules name start
      | .symbol .leftParen => readParenthesized rules start
      | .keyword .void =>
          advance
          let _ ← expectSymbol .dot
          let _ ← expectKeyword .class
          mkExpr (.classLiteral "void") start
      | _ => failExpected .expression

/-- What stands behind the dot after an operand. -/
def readAfterDot (object : Expr) (start : Nat) : Reader Expr := do
  match ← currentKind with
  | .ident name =>
      advance
      if ← atSymbol .leftParen then
        let args ← readArgs rules
        mkExpr (.call (some object) name args) start
      else mkExpr (.select object name) start
  | .symbol .less =>
      let _ ← readTypeArgs rules
      let method ← expectName
      let args ← readArgs rules
      mkExpr (.call (some object) method args) start
  | .keyword .this =>
      let qualifier ← requireTypeName object
      advance
      mkExpr (.qualifiedThis qualifier) start
  | .keyword .class =>
      let type ← requireTypeName object
      advance
      mkExpr (.classLiteral type) start
  | .keyword .super =>
      advance
      mkExpr .super start
  | .keyword .new => readNew rules start
  | _ => failExpected .name

/-- What may stand behind an operand, once: a selection, an index, a step or a method reference. -/
def readSuffix? (expr : Expr) (start : Nat) : Reader (Option Expr) := do
  match ← currentKind with
  | .symbol .dot =>
      advance
      return some (← readAfterDot rules expr start)
  | .symbol .leftBracket =>
      if (← peek 1) == .symbol .rightBracket then
        let type ← requireTypeName expr
        let dims ← readDims
        let _ ← expectSymbol .dot
        let _ ← expectKeyword .class
        return some (← mkExpr (.classLiteral (type ++ dims)) start)
      else
        advance
        let index ← rules _ .expr
        let _ ← expectSymbol .rightBracket
        return some (← mkExpr (.index expr index) start)
  | .symbol .plusPlus =>
      advance
      return some (← mkExpr (.unary .postIncrement expr) start)
  | .symbol .minusMinus =>
      advance
      return some (← mkExpr (.unary .postDecrement expr) start)
  | .symbol .colonColon =>
      advance
      let name ← if ← acceptKeyword .new then pure "new" else expectName
      return some (← mkExpr (.methodRef expr name) start)
  | _ => return none

/-- An operand with what stands behind it. A lambda takes nothing behind it. -/
def readPostfix : Reader Expr := do
  let start ← currentStart
  let first ← readPrimary rules
  match first.kind with
  | .lambda .. => return first
  | _ => iterate (fun expr => readSuffix? rules expr start) first

/-- An operand with the signs and casts before it. -/
def readUnary : Reader Expr := do
  let start ← currentStart
  match unaryOperator? (← currentKind) with
  | some op =>
      advance
      let operand ← rules _ .unary
      mkExpr (.unary op operand) start
  | none =>
      if (← atSymbol .leftParen) && (← ahead looksLikeCast) then
        advance
        let types ← separated .amp (rules _ .type)
        let _ ← expectSymbol .rightParen
        let operand ← rules _ .unary
        mkExpr (.cast (types.headD "") operand) start
      else readPostfix rules

/-- An initial value: an array in braces or an expression. -/
def readVarInit : Reader Expr := do
  if ← atSymbol .leftBrace then
    let start ← currentStart
    let items ← readArrayItems (rules _ .varInit)
    mkExpr (.arrayInit items) start
  else rules _ .expr

end LockDiscipline.Grammar
