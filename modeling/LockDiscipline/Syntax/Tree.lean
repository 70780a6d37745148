import LockDiscipline.Token.Basic
/-!
# Syntax trees

The trees of compilation units. Expressions, statements, members and classes are nodes: each has a
number that is its own in the whole unit, the span of its tokens, and its kind. A type is kept as
the text that it was written with, without blanks. A class body can stand inside an expression and
an expression inside an annotation, so all kinds of nodes are defined together.
-/

namespace LockDiscipline

/-! ### Operators

The unary and binary operators of expressions, with the spelling of the binary ones. -/

/-- The operators with one operand, before or behind it. -/
inductive UnaryOp where
  | negate | plus | not | bitNot | preIncrement | preDecrement | postIncrement | postDecrement
deriving DecidableEq, Repr, Inhabited

/-- The operators with two operands. -/
inductive BinaryOp where
  | add | sub | mul | div | mod
  | equal | notEqual | less | greater | lessEqual | greaterEqual
  | and | or
  | bitAnd | bitOr | bitXor | shiftLeft | shiftRight | unsignedShiftRight
deriving DecidableEq, Repr, Inhabited

/-- The spelling of a binary operator. -/
def BinaryOp.text : BinaryOp → String
  | .add => "+" | .sub => "-" | .mul => "*" | .div => "/" | .mod => "%"
  | .equal => "==" | .notEqual => "!=" | .less => "<" | .greater => ">" | .lessEqual => "<="
  | .greaterEqual => ">=" | .and => "&&" | .or => "||" | .bitAnd => "&" | .bitOr => "|"
  | .bitXor => "^" | .shiftLeft => "<<" | .shiftRight => ">>" | .unsignedShiftRight => ">>>"

/-! ### Nodes -/

/-- The number of a syntax node. -/
abbrev NodeId := Nat

/-- The kinds of class bodies. An anonymous class names its supertype as its superclass. -/
inductive ClassKind where
  | «class» | «interface» | «enum» | «anonymous»
deriving DecidableEq, Repr, Inhabited

mutual

/-- An expression. -/
structure Expr where
  id : NodeId
  kind : ExprKind
  span : Span

/-- The kinds of expressions. -/
inductive ExprKind where
  | int (value : Int64)
  | float (value : Binary64)
  | string (text : String)
  | char (value : Char)
  | bool (value : Bool)
  | null
  /-- A bare name. -/
  | name (name : String)
  | this
  | super
  /-- The instance `Outer.this`, with the qualifier as written. -/
  | qualifiedThis (type : String)
  /-- The literal `Type.class`, with the type as written. -/
  | classLiteral (type : String)
  | select (object : Expr) (name : String)
  /-- A call, of a method of the receiver or of a method in scope. -/
  | call (receiver : Option Expr) (method : String) (args : List Expr)
  /-- An instance creation, with the body of an anonymous class if there is one. -/
  | new (type : String) (args : List Expr) (body : Option ClassDecl)
  | newArray (element : String) (dims : List Expr) (init : Option (List Expr))
  | arrayInit (items : List Expr)
  | index (object index : Expr)
  | unary (op : UnaryOp) (operand : Expr)
  | binary (op : BinaryOp) (left right : Expr)
  /-- An assignment, a compound one with its operator. -/
  | assign (op : Option BinaryOp) (target value : Expr)
  | conditional (cond whenTrue whenFalse : Expr)
  | instanceOf (expr : Expr) (type : String)
  | cast (type : String) (expr : Expr)
  | lambda (params : List String) (body : LambdaBody)
  | methodRef (target : Expr) (name : String)
  | paren (inner : Expr)

/-- The body of a lambda expression. -/
inductive LambdaBody where
  | expr (value : Expr)
  | block (body : List Stmt)

/-- A statement. -/
structure Stmt where
  id : NodeId
  kind : StmtKind
  span : Span

/-- The kinds of statements. -/
inductive StmtKind where
  | expr (value : Expr)
  | localVars (type : String) (declarators : List Declarator)
  | block (body : List Stmt)
  | ifElse (cond : Expr) (whenTrue : Stmt) (whenFalse : Option Stmt)
  | whileLoop (cond : Expr) (body : Stmt)
  | doWhile (body : Stmt) (cond : Expr)
  | forLoop (init : List Stmt) (cond : Option Expr) (update : List Expr) (body : Stmt)
  | forEach (type name : String) (iterated : Expr) (body : Stmt)
  | return (value : Option Expr)
  | throw (value : Expr)
  | break (label : Option String)
  | continue (label : Option String)
  | tryCatch (resources : List Resource) (body : List Stmt) (catches : List CatchClause)
      (finallyBody : Option (List Stmt))
  | synchronized (lock : Expr) (body : List Stmt)
  | switch (selector : Expr) (cases : List SwitchCase)
  | labeled (label : String) (body : Stmt)
  | localClass (decl : ClassDecl)
  | assert (cond : Expr) (message : Option Expr)
  | empty

/-- One variable of a field or local declaration. -/
structure Declarator where
  id : NodeId
  name : String
  init : Option Expr
  span : Span

/-- A resource of a `try` statement: a declaration, or an expression for an existing one. -/
structure Resource where
  id : NodeId
  type : Option String
  name : Option String
  init : Expr

/-- A handler of a `try` statement, with the alternatives of its type. -/
structure CatchClause where
  id : NodeId
  types : List String
  name : String
  body : List Stmt
  span : Span

/-- A case of a `switch` statement; the default case has no labels. -/
structure SwitchCase where
  labels : List Expr
  isDefault : Bool
  body : List Stmt

/-- A class, interface, enum or anonymous class body. -/
structure ClassDecl where
  id : NodeId
  name : String
  kind : ClassKind
  modifiers : Modifiers
  typeParams : List String
  superclass : Option String
  interfaces : List String
  members : List Member
  span : Span

/-- A member of a class body. -/
structure Member where
  id : NodeId
  kind : MemberKind
  span : Span

/-- The kinds of members. -/
inductive MemberKind where
  | field (modifiers : Modifiers) (type : String) (declarators : List Declarator)
  | method (decl : MethodDecl)
  | initializer (isStatic : Bool) (body : List Stmt)
  | classDecl (decl : ClassDecl)
  | enumConstant (name : String) (args : List Expr) (body : Option ClassDecl)

/-- A method, or a constructor, which has no return type. The body is missing where the method is
only declared. -/
structure MethodDecl where
  id : NodeId
  name : String
  modifiers : Modifiers
  typeParams : List String
  returnType : Option String
  params : List Param
  throws : List String
  body : Option (List Stmt)
  span : Span

/-- A parameter of a method. -/
structure Param where
  id : NodeId
  name : String
  type : String
  modifiers : Modifiers
  isVarargs : Bool
  span : Span

/-- The modifier keywords and the annotations of a declaration. -/
structure Modifiers where
  keywords : List Keyword
  annotations : List AnnotationUse

/-- A use of an annotation, under its name as written. -/
structure AnnotationUse where
  name : String
  args : List AnnotationArg
  span : Span

/-- An argument of an annotation; a single one may stand without its name. -/
structure AnnotationArg where
  name : Option String
  value : Expr

end

/-- An import declaration. -/
structure Import where
  path : String
  isStatic : Bool
  isWildcard : Bool
  span : Span
deriving DecidableEq, Repr, Inhabited

/-- A source file. -/
structure CompilationUnit where
  package : Option String
  imports : List Import
  types : List ClassDecl

instance : Inhabited Expr := ⟨⟨0, .null, default⟩⟩
instance : Inhabited Stmt := ⟨⟨0, .empty, default⟩⟩
instance : Inhabited Modifiers := ⟨⟨[], []⟩⟩
instance : Inhabited ClassDecl := ⟨⟨0, "", .class, default, [], none, [], [], default⟩⟩

end LockDiscipline
