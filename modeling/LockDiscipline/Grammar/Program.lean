import LockDiscipline.Grammar.Declaration
/-!
# Programs

`Grammar.rules` ties the recursive rules together up to a depth. A rule that consumes no token
before it refers to another one is at most six rules away from one that does, so `depthFor` many
levels always suffice for a token list. The two entry points read a compilation unit, which keeps
its errors and always yields a tree, and a single expression, which fails at its first error.
-/

namespace LockDiscipline.Grammar

/-- Read a nonterminal by its rule, given how to read the nonterminals inside. -/
def readNonterminal (rules : Rules) : {α : Type} → Nonterminal α → Reader α
  | _, .expr => readExpr rules
  | _, .ternary => readTernary rules
  | _, .binary least => readBinary rules least
  | _, .unary => readUnary rules
  | _, .type => readType rules
  | _, .annotationUse => readAnnotationUse rules
  | _, .elementValue => readElementValue rules
  | _, .varInit => readVarInit rules
  | _, .stmt => readStmt rules
  | _, .block => readBlock rules
  | _, .classBody className isEnum => readClassBody rules className isEnum

/-- The rules tied together to a depth. -/
def rules : Nat → Rules
  | 0 => fun _ _ => failTooDeep
  | depth + 1 => fun _ nonterminal => readNonterminal (rules depth) nonterminal

/-- A depth that suffices for a token list. -/
def depthFor (tokens : List Token) : Nat :=
  8 * (tokens.length + 1)

/-- The package declaration of a file. -/
def readPackage : Reader String := do
  let _ ← expectKeyword .package
  let name ← readQualifiedName
  let _ ← expectSymbol .semicolon
  return name

/-- The path of an import behind its first name, and whether a star ends it. -/
structure PathScan where
  path : String
  isWildcard : Bool

/-- An import declaration. -/
def readImport : Reader Import := do
  let start := (← expectKeyword .import).start
  let isStatic ← acceptKeyword .static
  let first ← expectName
  let scan ← iterate (fun (scan : PathScan) => do
    if scan.isWildcard then return none
    if ← acceptSymbol .dot then
      if ← acceptSymbol .star then return some { scan with isWildcard := true }
      else return some { scan with path := scan.path ++ "." ++ (← expectName) }
    else return none) ⟨first, false⟩
  let _ ← expectSymbol .semicolon
  return ⟨scan.path, isStatic, scan.isWildcard, ← spanFrom start⟩

/-- Skip one token, and go on unless it is a semicolon. -/
def skipPastSemicolonStep : Reader (Option Unit) := do
  if ← atEnd then return none
  if ← acceptSymbol .semicolon then return none
  advance
  return some ()

/-- Skip to the end of the file or behind the next semicolon. -/
def skipPastSemicolon : Reader Unit := do
  let _ ← iterate (fun () => skipPastSemicolonStep) ()
  return ()

/-- Skip one token on the way to a top-level declaration, inside of `depth` braces that were opened on
the way. -/
def skipToTypeDeclStep (depth : Nat) : Reader (Option Nat) := do
  match ← currentKind with
  | .eof => return none
  | .symbol .leftBrace =>
      advance
      return some (depth + 1)
  | .symbol .rightBrace =>
      advance
      if depth = 1 then return none else return some (depth - 1)
  | kind =>
      if depth = 0 && (kind.isModifier || beginsClass kind) then return none
      advance
      return some depth

/-- Skip at least one token and then to the next top-level declaration: behind a balanced pair of
braces, or before a modifier or the keyword of a class outside of braces. -/
def skipToTypeDecl : Reader Unit := do
  advance
  let _ ← iterate skipToTypeDeclStep 0
  return ()

/-- A top-level class. -/
def readTypeDecl (rules : Rules) : Reader ClassDecl := do
  let start ← currentStart
  let modifiers ← readModifiers rules
  readClass rules modifiers start

/-- The package declaration, if there is one. An error in it is kept. -/
def readPackage? : Reader (Option String) := do
  if !(← atKeyword .package) then return none
  match ← attempt readPackage with
  | .ok package => return some package
  | .error error =>
      let _ ← recordError error
      skipPastSemicolon
      return none

/-- What is known of a list of declarations while it is read: the declarations, the last one first,
and whether to go on. -/
structure DeclScan (α : Type) where
  decls : List α
  more : Bool

/-- One more import, if one lies ahead, with recovery from an error. -/
def readImportsStep (scan : DeclScan Import) : Reader (Option (DeclScan Import)) := do
  if !scan.more || !(← atKeyword .import) then return none
  match ← attempt readImport with
  | .ok decl => return some { scan with decls := decl :: scan.decls }
  | .error error =>
      if ← recordError error then
        skipPastSemicolon
        return some scan
      else return some { scan with more := false }

/-- The imports, and whether the errors among them allow to go on. -/
def readImports : Reader (DeclScan Import) := do
  let scan ← iterate readImportsStep ⟨[], true⟩
  return { scan with decls := scan.decls.reverse }

/-- One more top-level class or a stray semicolon, unless the file ends, with recovery from an
error. -/
def readTypeDeclsStep (rules : Rules) (scan : DeclScan ClassDecl) :
    Reader (Option (DeclScan ClassDecl)) := do
  if !scan.more || (← atEnd) then return none
  if ← acceptSymbol .semicolon then return some scan
  match ← attempt (readTypeDecl rules) with
  | .ok decl => return some { scan with decls := decl :: scan.decls }
  | .error error =>
      if ← recordError error then
        skipToTypeDecl
        return some scan
      else return some { scan with more := false }

/-- The top-level classes up to the end of the file. -/
def readTypeDecls (rules : Rules) : Reader (List ClassDecl) := do
  let scan ← iterate (readTypeDeclsStep rules) ⟨[], true⟩
  return scan.decls.reverse

/-- A compilation unit. -/
def readUnit (rules : Rules) : Reader CompilationUnit := do
  let package ← readPackage?
  let imports ← readImports
  let types ← if imports.more then readTypeDecls rules else pure []
  return ⟨package, imports.decls, types⟩

/-- A single expression that takes all tokens. -/
def readSoleExpr (rules : Rules) : Reader Expr := do
  let expr ← rules _ .expr
  if ← atEnd then return expr else failExpected .endOfExpression

end LockDiscipline.Grammar

namespace LockDiscipline

/-- A program text as far as it can be read, and the errors met. -/
structure ParsedUnit where
  unit : CompilationUnit
  errors : List SyntaxError

namespace ParsedUnit

/-- The unit that a token list spells, with the syntax errors recovered from. -/
def ofTokens (tokens : List Token) : ParsedUnit :=
  match (Grammar.readUnit (Grammar.rules (Grammar.depthFor tokens))).run (.start tokens) with
  | .ok unit cursor => ⟨unit, cursor.errors⟩
  | .error error cursor => ⟨⟨none, [], []⟩, cursor.errors ++ [error]⟩

/-- The unit that a source text spells. Lexical errors come first. -/
def ofSource (source : List Char) : ParsedUnit :=
  let lexed := Lexer.tokenize source
  let parsed := ofTokens lexed.tokens
  { parsed with errors := lexed.errors.map .ofLexError ++ parsed.errors }

end ParsedUnit

/-- The expression that a token list spells. -/
def Expr.ofTokens (tokens : List Token) : Except SyntaxError Expr :=
  match (Grammar.readSoleExpr (Grammar.rules (Grammar.depthFor tokens))).run (.start tokens) with
  | .ok expr _ => .ok expr
  | .error error _ => .error error

/-- The expression that a text spells; a lexical error is its first error. -/
def Expr.ofSource (source : List Char) : Except SyntaxError Expr :=
  let lexed := Lexer.tokenize source
  match lexed.errors with
  | error :: _ => .error (.ofLexError error)
  | [] => Expr.ofTokens lexed.tokens

end LockDiscipline
