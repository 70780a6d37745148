import LockDiscipline.Grammar.Statement
/-!
# Members and class bodies

A member that cannot be read does not spoil its class: the error is kept and reading goes on at the
next member boundary.
-/

namespace LockDiscipline.Grammar

variable (rules : Rules)

/-- Skip one token on the way to a boundary between members, inside of `depth` braces that were opened
on the way. -/
def skipToMemberStep (depth : Nat) : Reader (Option Nat) := do
  match ← currentKind with
  | .eof => return none
  | .symbol .semicolon =>
      advance
      if depth = 0 then return none else return some depth
  | .symbol .leftBrace =>
      advance
      return some (depth + 1)
  | .symbol .rightBrace =>
      if depth = 0 then return none
      advance
      if depth = 1 then return none else return some (depth - 1)
  | _ =>
      advance
      return some depth

/-- Skip to the next boundary between members: behind a semicolon or a balanced pair of braces, or
at the brace that closes the class. -/
def skipToMember : Reader Unit := do
  let _ ← iterate skipToMemberStep 0
  return ()

/-- A constant of an enum, or none where no name lies ahead. -/
def readEnumConstant? (enumName : String) : Reader (Option Member) := do
  let start ← currentStart
  skipAnnotations rules
  match ← currentKind with
  | .ident name =>
      advance
      let args ← if ← atSymbol .leftParen then readArgs rules else pure []
      let body ← readWhen (← atSymbol .leftBrace) (readAnonymousBody rules enumName start)
      return some (← mkMember (.enumConstant name args body) start)
  | _ => return none

/-- One more constant of an enum, where a comma stands before it or it is the first one. -/
def readEnumConstantsStep (enumName : String) :
    List Member × Bool → Reader (Option (List Member × Bool)) := fun (constants, more) => do
  if !more then return none
  match ← readEnumConstant? rules enumName with
  | none => return none
  | some constant => return some (constant :: constants, ← acceptSymbol .comma)

/-- The constants at the head of an enum body. The semicolon behind them may be missing where the
body ends. -/
def readEnumConstants (enumName : String) : Reader (List Member) := do
  let (constants, _) ← iterate (readEnumConstantsStep rules enumName) ([], true)
  if !(← atSymbol .rightBrace) then endStatement
  return constants.reverse

/-- A parameter of a method; none for the parameter that names the receiver. -/
def readParam? : Reader (Option Param) := do
  let start ← currentStart
  let modifiers ← readModifiers rules
  let type ← rules _ .type
  let isVarargs ← acceptSymbol .ellipsis
  if ← acceptKeyword .this then return none
  let name ← expectName
  let dims ← readDims
  let id ← freshId
  return some ⟨id, name, type ++ dims, modifiers, isVarargs, ← spanFrom start⟩

/-- The parameters of a method in parentheses. -/
def readParams : Reader (List Param) := do
  let _ ← expectSymbol .leftParen
  let params ← enumerated .rightParen .comma (readParam? rules)
  let _ ← expectSymbol .rightParen
  return params.filterMap id

/-- What follows the name of a method: parameters, exceptions, a default value, the body. -/
def readMethodRest (name : String) (modifiers : Modifiers) (typeParams : List String)
    (returnType : Option String) (start : Nat) : Reader MethodDecl := do
  let id ← freshId
  let params ← readParams rules
  let _ ← readDims
  let throws ← if ← acceptKeyword .throws then readTypeList rules else pure []
  if ← acceptKeyword .default then
    let _ ← rules _ .elementValue
  let body ← readWhen (!(← acceptSymbol .semicolon)) (rules _ .block)
  return ⟨id, name, modifiers, typeParams, returnType, params, throws, body, ← spanFrom start⟩

/-- An initializer block, whose opening brace lies ahead. -/
def readInitializer (isStatic : Bool) (start : Nat) : Reader Member := do
  let body ← rules _ .block
  mkMember (.initializer isStatic body) start

/-- A method or a field, from its type on. -/
def readTypedMember (modifiers : Modifiers) (typeParams : List String) (start : Nat) :
    Reader Member := do
  let type ← if ← acceptKeyword .void then pure "void" else rules _ .type
  let nameStart ← currentStart
  let name ← expectName
  if ← atSymbol .leftParen then
    let method ← readMethodRest rules name modifiers typeParams (some type) start
    mkMember (.method method) start
  else
    let declarators ← readDeclarators rules name nameStart
    endStatement
    mkMember (.field modifiers type declarators) start

/-- A member class, constructor, method or field, from its modifiers on. A constructor is the name
of the class before a parenthesis. -/
def readDeclaredMember (className : String) (start : Nat) : Reader Member := do
  let modifiers ← readModifiers rules
  let kind ← currentKind
  if beginsClass kind || (kind == .symbol .at && (← peek 1) == .keyword .interface) then
    let decl ← readClass rules modifiers start
    mkMember (.classDecl decl) start
  else
    let typeParams ← readTypeParams rules
    if (← currentKind) == .ident className && (← peek 1) == .symbol .leftParen then
      advance
      let method ← readMethodRest rules className modifiers typeParams none start
      mkMember (.method method) start
    else readTypedMember rules modifiers typeParams start

/-- A member of a class, or none for a stray semicolon. -/
def readMember? (className : String) : Reader (Option Member) := do
  let start ← currentStart
  if ← acceptSymbol .semicolon then return none
  else if ← atSymbol .leftBrace then return some (← readInitializer rules false start)
  else if (← atKeyword .static) && (← peek 1) == .symbol .leftBrace then
    advance
    return some (← readInitializer rules true start)
  else return some (← readDeclaredMember rules className start)

/-- What is known of a class body while it is read: the members, the last one first, and whether to
go on. -/
structure MemberScan where
  members : List Member
  more : Bool

/-- One more member, unless the class body ends, with recovery from an error. -/
def readMembersStep (className : String) (scan : MemberScan) : Reader (Option MemberScan) := do
  if !scan.more || (← atSymbol .rightBrace) || (← atEnd) then return none
  match ← attempt (readMember? rules className) with
  | .ok none => return some scan
  | .ok (some member) => return some { scan with members := member :: scan.members }
  | .error error =>
      if ← recordError error then
        skipToMember
        return some scan
      else
        skipToClosingBrace
        return some { scan with more := false }

/-- Members up to the closing brace, with recovery from errors. -/
def readMembers (className : String) : Reader (List Member) := do
  let scan ← iterate (readMembersStep rules className) ⟨[], true⟩
  return scan.members.reverse

/-- A class body in braces. -/
def readClassBody (className : String) (isEnum : Bool) : Reader (List Member) := do
  let _ ← expectSymbol .leftBrace
  let constants ← if isEnum then readEnumConstants rules className else pure []
  let members ← readMembers rules className
  let _ ← expectSymbol .rightBrace
  return constants ++ members

end LockDiscipline.Grammar
