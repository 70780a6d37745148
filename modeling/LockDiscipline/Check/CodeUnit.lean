import LockDiscipline.Program.Basic
import LockDiscipline.Syntax.Traversal
/-!
# Units of code

The bodies that are analysed one by one: methods, constructors, initializer blocks and lambdas, each
with the class that its `this` refers to. `CodeUnits.ofUnit` finds them in a compilation unit with
all its member, local and anonymous classes, outer ones before inner ones.
-/

namespace LockDiscipline

/-- What a unit of code is the body of. -/
inductive UnitBody where
  | method (decl : MethodDecl)
  | initializer (body : List Stmt)
  | lambda (body : LambdaBody)

/-- A body that is analysed on its own. -/
structure CodeUnit where
  body : UnitBody
  /-- The class that `this` refers to. -/
  self : SymbolId

/-- A class body with its symbol. -/
structure ClassUnit where
  decl : ClassDecl
  id : SymbolId

/-- What is found in the search for units of code. -/
inductive UnitFinding where
  | classUnit (unit : ClassUnit)
  | codeUnit (unit : CodeUnit)
  /-- A class that was not resolved. It is not searched. -/
  | unresolved (name : String)

namespace UnitFinding

/-- The finding as a class. -/
def classUnit? : UnitFinding → Option ClassUnit
  | .classUnit unit => some unit
  | _ => none

/-- The finding as a unit of code. -/
def codeUnit? : UnitFinding → Option CodeUnit
  | .codeUnit unit => some unit
  | _ => none

/-- The name of a class that was not resolved. -/
def unresolved? : UnitFinding → Option String
  | .unresolved name => some name
  | _ => none

end UnitFinding

namespace CodeUnit

/-- The nodes visited in a unit of code. -/
def visited (unit : CodeUnit) : List SyntaxNode :=
  match unit.body with
  | .method decl => visitedStmts (decl.body.getD [])
  | .initializer body => visitedStmts body
  | .lambda body => body.visited

end CodeUnit

namespace CodeUnits

section Search

variable (program : Program)

mutual

/-- The units in an expression in code of a class. -/
def inExpr (self : SymbolId) : Expr → List UnitFinding
  | ⟨_, kind, _⟩ => inExprKind self kind

/-- The units in an expression of a kind. -/
def inExprKind (self : SymbolId) : ExprKind → List UnitFinding
  | .select object _ => inExpr self object
  | .call none _ args => inExprs self args
  | .call (some receiver) _ args => inExpr self receiver ++ inExprs self args
  | .new _ args none => inExprs self args
  | .new _ args (some body) => inExprs self args ++ inClass body
  | .newArray _ dims none => inExprs self dims
  | .newArray _ dims (some items) => inExprs self dims ++ inExprs self items
  | .arrayInit items => inExprs self items
  | .index object index => inExpr self object ++ inExpr self index
  | .unary _ operand => inExpr self operand
  | .binary _ left right => inExpr self left ++ inExpr self right
  | .assign _ target value => inExpr self target ++ inExpr self value
  | .conditional cond whenTrue whenFalse =>
      inExpr self cond ++ inExpr self whenTrue ++ inExpr self whenFalse
  | .instanceOf expr _ => inExpr self expr
  | .cast _ expr => inExpr self expr
  | .lambda _ body => .codeUnit ⟨.lambda body, self⟩ :: inLambda self body
  | .methodRef target _ => inExpr self target
  | .paren inner => inExpr self inner
  | .int _ | .float _ | .string _ | .char _ | .bool _ | .null | .name _ | .this | .super
  | .qualifiedThis _ | .classLiteral _ => []

/-- The units in expressions. -/
def inExprs (self : SymbolId) : List Expr → List UnitFinding
  | [] => []
  | expr :: rest => inExpr self expr ++ inExprs self rest

/-- The units in an expression that may be missing. -/
def inOption (self : SymbolId) : Option Expr → List UnitFinding
  | none => []
  | some expr => inExpr self expr

/-- The units inside the body of a lambda. -/
def inLambda (self : SymbolId) : LambdaBody → List UnitFinding
  | .expr value => inExpr self value
  | .block body => inStmts self body

/-- The units in statements. -/
def inStmts (self : SymbolId) : List Stmt → List UnitFinding
  | [] => []
  | stmt :: rest => inStmt self stmt ++ inStmts self rest

/-- The units in a statement. -/
def inStmt (self : SymbolId) : Stmt → List UnitFinding
  | ⟨_, .expr value, _⟩ | ⟨_, .throw value, _⟩ => inExpr self value
  | ⟨_, .localVars _ declarators, _⟩ => inDeclarators self declarators
  | ⟨_, .block body, _⟩ => inStmts self body
  | ⟨_, .ifElse cond whenTrue none, _⟩ => inExpr self cond ++ inStmt self whenTrue
  | ⟨_, .ifElse cond whenTrue (some whenFalse), _⟩ =>
      inExpr self cond ++ inStmt self whenTrue ++ inStmt self whenFalse
  | ⟨_, .whileLoop cond body, _⟩ | ⟨_, .doWhile body cond, _⟩ =>
      inExpr self cond ++ inStmt self body
  | ⟨_, .forLoop init cond update body, _⟩ =>
      inStmts self init ++ inOption self cond ++ inExprs self update ++ inStmt self body
  | ⟨_, .forEach _ _ iterated body, _⟩ => inExpr self iterated ++ inStmt self body
  | ⟨_, .return value, _⟩ => inOption self value
  | ⟨_, .tryCatch resources body catches none, _⟩ =>
      inResources self resources ++ inStmts self body ++ inCatches self catches
  | ⟨_, .tryCatch resources body catches (some finallyBody), _⟩ =>
      inResources self resources ++ inStmts self body ++ inCatches self catches ++
        inStmts self finallyBody
  | ⟨_, .synchronized lock body, _⟩ => inExpr self lock ++ inStmts self body
  | ⟨_, .switch selector cases, _⟩ => inExpr self selector ++ inCases self cases
  | ⟨_, .labeled _ body, _⟩ => inStmt self body
  | ⟨_, .localClass decl, _⟩ => inClass decl
  | ⟨_, .assert cond message, _⟩ => inExpr self cond ++ inOption self message
  | ⟨_, .break _, _⟩ | ⟨_, .continue _, _⟩ | ⟨_, .empty, _⟩ => []

/-- The units in initial values. -/
def inDeclarators (self : SymbolId) : List Declarator → List UnitFinding
  | [] => []
  | ⟨_, _, init, _⟩ :: rest => inOption self init ++ inDeclarators self rest

/-- The units in resources. -/
def inResources (self : SymbolId) : List Resource → List UnitFinding
  | [] => []
  | ⟨_, _, _, init⟩ :: rest => inExpr self init ++ inResources self rest

/-- The units in handlers. -/
def inCatches (self : SymbolId) : List CatchClause → List UnitFinding
  | [] => []
  | ⟨_, _, _, body, _⟩ :: rest => inStmts self body ++ inCatches self rest

/-- The units in cases, whose labels are not searched. -/
def inCases (self : SymbolId) : List SwitchCase → List UnitFinding
  | [] => []
  | ⟨_, _, body⟩ :: rest => inStmts self body ++ inCases self rest

/-- A class and the units in it. -/
def inClass : ClassDecl → List UnitFinding
  | ⟨node, name, kind, modifiers, typeParams, superclass, interfaces, members, span⟩ =>
      match program.use? node with
      | none => [.unresolved name]
      | some id =>
          .classUnit ⟨⟨node, name, kind, modifiers, typeParams, superclass, interfaces, members,
            span⟩, id⟩ :: inMembers id members

/-- The units in the members of a class. -/
def inMembers (self : SymbolId) : List Member → List UnitFinding
  | [] => []
  | ⟨_, kind, _⟩ :: rest => inMember self kind ++ inMembers self rest

/-- The units in a member of a class. -/
def inMember (self : SymbolId) : MemberKind → List UnitFinding
  | .field _ _ declarators => inDeclarators self declarators
  | .method decl => .codeUnit ⟨.method decl, self⟩ :: inMethod self decl
  | .initializer _ body => .codeUnit ⟨.initializer body, self⟩ :: inStmts self body
  | .classDecl decl => inClass decl
  | .enumConstant _ args none => inExprs self args
  | .enumConstant _ args (some body) => inExprs self args ++ inClass body

/-- The units inside the body of a method. -/
def inMethod (self : SymbolId) : MethodDecl → List UnitFinding
  | ⟨_, _, _, _, _, _, _, none, _⟩ => []
  | ⟨_, _, _, _, _, _, _, some body, _⟩ => inStmts self body

end

end Search

/-- Everything that the search for units finds in a compilation unit. -/
def findings (program : Program) (unit : CompilationUnit) : List UnitFinding :=
  unit.types.flatMap (inClass program)

end CodeUnits

/-- The classes and the units of code of a compilation unit, outer before inner. -/
structure CodeUnits where
  classes : List ClassUnit
  bodies : List CodeUnit

/-- Find the classes and the units of code of a compilation unit. -/
def CodeUnits.ofUnit (program : Program) (unit : CompilationUnit) : CodeUnits :=
  let found := CodeUnits.findings program unit
  ⟨found.filterMap (·.classUnit?), found.filterMap (·.codeUnit?)⟩

end LockDiscipline
