import LockDiscipline.Syntax.Tree
/-!
# Visiting bodies

The nodes of a body in the order in which they are visited: a node before its parts, and the parts
as the code is read. Class bodies and lambda bodies inside are code of their own and are not
entered, and the labels of cases are not visited.
-/

namespace LockDiscipline

/-- An expression or a statement. -/
inductive SyntaxNode where
  | expr (node : Expr)
  | stmt (node : Stmt)

namespace SyntaxNode

/-- The node as an expression. -/
def expr? : SyntaxNode → Option Expr
  | .expr node => some node
  | .stmt _ => none

/-- The node as a statement. -/
def stmt? : SyntaxNode → Option Stmt
  | .expr _ => none
  | .stmt node => some node

end SyntaxNode

mutual

/-- An expression and the expressions visited inside it. -/
def Expr.visited : Expr → List Expr
  | ⟨id, kind, span⟩ => ⟨id, kind, span⟩ :: ExprKind.visited kind

/-- The expressions visited inside an expression of a kind. -/
def ExprKind.visited : ExprKind → List Expr
  | .select object _ => Expr.visited object
  | .call receiver _ args => visitedOption receiver ++ visitedExprs args
  | .new _ args _ => visitedExprs args
  | .newArray _ dims none => visitedExprs dims
  | .newArray _ dims (some items) => visitedExprs dims ++ visitedExprs items
  | .arrayInit items => visitedExprs items
  | .index object index => Expr.visited object ++ Expr.visited index
  | .unary _ operand => Expr.visited operand
  | .binary _ left right => Expr.visited left ++ Expr.visited right
  | .assign _ target value => Expr.visited target ++ Expr.visited value
  | .conditional cond whenTrue whenFalse =>
      Expr.visited cond ++ Expr.visited whenTrue ++ Expr.visited whenFalse
  | .instanceOf expr _ => Expr.visited expr
  | .cast _ expr => Expr.visited expr
  | .methodRef target _ => Expr.visited target
  | .paren inner => Expr.visited inner
  | .int _ | .float _ | .string _ | .char _ | .bool _ | .null | .name _ | .this | .super
  | .qualifiedThis _ | .classLiteral _ | .lambda _ _ => []

/-- The expressions visited in a list of expressions. -/
def visitedExprs : List Expr → List Expr
  | [] => []
  | expr :: rest => Expr.visited expr ++ visitedExprs rest

/-- The expressions visited in an expression that may be missing. -/
def visitedOption : Option Expr → List Expr
  | none => []
  | some expr => Expr.visited expr

end

/-- The nodes of an expression that may be missing. -/
def exprNodes (expr : Option Expr) : List SyntaxNode :=
  (visitedOption expr).map .expr

mutual

/-- A statement and the nodes visited inside it. -/
def Stmt.visited : Stmt → List SyntaxNode
  | ⟨id, kind, span⟩ => .stmt ⟨id, kind, span⟩ :: StmtKind.visited kind

/-- The nodes visited inside a statement of a kind. The condition of a loop comes before its
body, even where it stands behind it. -/
def StmtKind.visited : StmtKind → List SyntaxNode
  | .expr value | .throw value => value.visited.map .expr
  | .localVars _ declarators => declarators.flatMap fun declarator => exprNodes declarator.init
  | .block body => visitedStmts body
  | .ifElse cond whenTrue none => cond.visited.map .expr ++ Stmt.visited whenTrue
  | .ifElse cond whenTrue (some whenFalse) =>
      cond.visited.map .expr ++ Stmt.visited whenTrue ++ Stmt.visited whenFalse
  | .whileLoop cond body | .doWhile body cond => cond.visited.map .expr ++ Stmt.visited body
  | .forLoop init cond update body =>
      visitedStmts init ++ exprNodes cond ++ (visitedExprs update).map .expr ++ Stmt.visited body
  | .forEach _ _ iterated body => iterated.visited.map .expr ++ Stmt.visited body
  | .return value => exprNodes value
  | .tryCatch resources body catches none =>
      (visitedExprs (resources.map (·.init))).map .expr ++ visitedStmts body ++
        visitedCatches catches
  | .tryCatch resources body catches (some finallyBody) =>
      (visitedExprs (resources.map (·.init))).map .expr ++ visitedStmts body ++
        visitedCatches catches ++ visitedStmts finallyBody
  | .synchronized lock body => lock.visited.map .expr ++ visitedStmts body
  | .switch selector cases => selector.visited.map .expr ++ visitedCases cases
  | .labeled _ body => Stmt.visited body
  | .assert cond message => cond.visited.map .expr ++ exprNodes message
  | .localClass _ | .break _ | .continue _ | .empty => []

/-- The nodes visited in statements. -/
def visitedStmts : List Stmt → List SyntaxNode
  | [] => []
  | stmt :: rest => Stmt.visited stmt ++ visitedStmts rest

/-- The nodes visited in handlers. -/
def visitedCatches : List CatchClause → List SyntaxNode
  | [] => []
  | ⟨_, _, _, body, _⟩ :: rest => visitedStmts body ++ visitedCatches rest

/-- The nodes visited in cases. -/
def visitedCases : List SwitchCase → List SyntaxNode
  | [] => []
  | ⟨_, _, body⟩ :: rest => visitedStmts body ++ visitedCases rest

end

/-- The nodes visited in the body of a lambda. -/
def LambdaBody.visited : LambdaBody → List SyntaxNode
  | .expr value => value.visited.map .expr
  | .block body => visitedStmts body

/-- The expressions among the nodes of statements. -/
def exprsIn (body : List Stmt) : List Expr :=
  (visitedStmts body).filterMap (·.expr?)

end LockDiscipline
