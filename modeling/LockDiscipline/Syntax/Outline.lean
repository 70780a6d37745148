import LockDiscipline.Number.Shortest
import LockDiscipline.Syntax.Tree
import LockDiscipline.Text.Outline
import LockDiscipline.Text.Quotation
/-!
# Outlines of syntax trees

The outline of a class shows everything that its tree holds, each node with its number and its span.
The names in it are part of the output and stand beside the constructors that they name.
-/

namespace LockDiscipline

namespace Outline

/-- A quoted text. -/
def quoted (text : String) : Outline :=
  .leaf (Text.quotation text)

/-- A number. -/
def nat (value : Nat) : Outline :=
  .leaf (toString value)

/-- Quoted texts. -/
def texts (items : List String) : Outline :=
  .list (items.map quoted)

/-- A quoted text that may be missing. -/
def textOption (text : Option String) : Outline :=
  option (text.map quoted)

/-- The layout of floating numbers. -/
def layout : Binary64.DecimalLayout :=
  ⟨-3, 16, true, "e", "inf"⟩

/-- The number of a node. -/
def nodeId (id : NodeId) : Outline :=
  .tuple "NodeId" [nat id]

end Outline

/-- The outline of a span. -/
def Span.outline (span : Span) : Outline :=
  .record "Span" [("start", .nat span.start), ("end", .nat span.stop)]

/-- The name of a kind of classes. -/
def ClassKind.title : ClassKind → String
  | .class => "Class"
  | .interface => "Interface"
  | .enum => "Enum"
  | .anonymous => "Anonymous"

/-- The name of an operator with one operand. -/
def UnaryOp.title : UnaryOp → String
  | .negate => "Neg"
  | .plus => "Plus"
  | .not => "Not"
  | .bitNot => "BitNot"
  | .preIncrement => "PreInc"
  | .preDecrement => "PreDec"
  | .postIncrement => "PostInc"
  | .postDecrement => "PostDec"

/-- The name of an operator with two operands. -/
def BinaryOp.title : BinaryOp → String
  | .add => "Add"
  | .sub => "Sub"
  | .mul => "Mul"
  | .div => "Div"
  | .mod => "Mod"
  | .equal => "Eq"
  | .notEqual => "Ne"
  | .less => "Lt"
  | .greater => "Gt"
  | .lessEqual => "Le"
  | .greaterEqual => "Ge"
  | .and => "And"
  | .or => "Or"
  | .bitAnd => "BitAnd"
  | .bitOr => "BitOr"
  | .bitXor => "BitXor"
  | .shiftLeft => "Shl"
  | .shiftRight => "Shr"
  | .unsignedShiftRight => "UShr"

/-- The name of a modifier: its word with a capital letter. -/
def Keyword.title (word : Keyword) : String :=
  match word.text.toList with
  | [] => ""
  | c :: rest => String.ofList (c.toUpper :: rest)

mutual

/-- The outline of an expression. -/
def Expr.outline : Expr → Outline
  | ⟨id, kind, span⟩ =>
      .record "Expr" [("id", .nodeId id), ("kind", ExprKind.outline kind), ("span", span.outline)]

/-- The outlines of expressions. -/
def exprOutlines : List Expr → List Outline
  | [] => []
  | expr :: rest => Expr.outline expr :: exprOutlines rest

/-- The outline of an expression that may be missing. -/
def exprOptionOutline : Option Expr → Outline
  | none => .option none
  | some expr => .option (some (Expr.outline expr))

/-- The outline of a kind of expression. -/
def ExprKind.outline : ExprKind → Outline
  | .int value => .tuple "Int" [.leaf (toString value.toInt)]
  | .float value => .tuple "Float" [.leaf (Binary64.render Outline.layout value)]
  | .string text => .tuple "String" [.quoted text]
  | .char value => .tuple "Char" [.leaf (Text.charQuotation value)]
  | .bool value => .tuple "Bool" [.bool value]
  | .null => .leaf "Null"
  | .name name => .tuple "Ident" [.quoted name]
  | .this => .leaf "This"
  | .super => .leaf "Super"
  | .qualifiedThis type => .tuple "QualifiedThis" [.quoted type]
  | .classLiteral type => .tuple "ClassLit" [.quoted type]
  | .select object name =>
      .record "Select" [("object", Expr.outline object), ("name", .quoted name)]
  | .call receiver method args =>
      .record "Call" [("receiver", exprOptionOutline receiver), ("method", .quoted method),
        ("args", .list (exprOutlines args))]
  | .new type args none =>
      .record "New" [("class", .quoted type), ("args", .list (exprOutlines args)),
        ("body", .option none)]
  | .new type args (some body) =>
      .record "New" [("class", .quoted type), ("args", .list (exprOutlines args)),
        ("body", .option (some (ClassDecl.outline body)))]
  | .newArray element dims none =>
      .record "NewArray" [("elem", .quoted element), ("dims", .list (exprOutlines dims)),
        ("init", .option none)]
  | .newArray element dims (some items) =>
      .record "NewArray" [("elem", .quoted element), ("dims", .list (exprOutlines dims)),
        ("init", .option (some (.list (exprOutlines items))))]
  | .arrayInit items => .tuple "ArrayInit" [.list (exprOutlines items)]
  | .index object index =>
      .record "Index" [("object", Expr.outline object), ("index", Expr.outline index)]
  | .unary op operand =>
      .record "Unary" [("op", .leaf op.title), ("operand", Expr.outline operand)]
  | .binary op left right =>
      .record "Binary" [("op", .leaf op.title), ("left", Expr.outline left),
        ("right", Expr.outline right)]
  | .assign op target value =>
      .record "Assign" [("op", .option (op.map fun op => .leaf op.title)),
        ("target", Expr.outline target), ("value", Expr.outline value)]
  | .conditional cond whenTrue whenFalse =>
      .record "Conditional" [("cond", Expr.outline cond), ("then_expr", Expr.outline whenTrue),
        ("else_expr", Expr.outline whenFalse)]
  | .instanceOf expr type =>
      .record "InstanceOf" [("expr", Expr.outline expr), ("ty", .quoted type)]
  | .cast type expr => .record "Cast" [("ty", .quoted type), ("expr", Expr.outline expr)]
  | .lambda params body =>
      .record "Lambda" [("params", .texts params), ("body", LambdaBody.outline body)]
  | .methodRef target name =>
      .record "MethodRef" [("target", Expr.outline target), ("name", .quoted name)]
  | .paren inner => .tuple "Paren" [Expr.outline inner]

/-- The outline of the body of a lambda. -/
def LambdaBody.outline : LambdaBody → Outline
  | .expr value => .tuple "Expr" [Expr.outline value]
  | .block body => .tuple "Block" [.list (stmtOutlines body)]

/-- The outline of a statement. -/
def Stmt.outline : Stmt → Outline
  | ⟨id, kind, span⟩ =>
      .record "Stmt" [("id", .nodeId id), ("kind", StmtKind.outline kind), ("span", span.outline)]

/-- The outlines of statements. -/
def stmtOutlines : List Stmt → List Outline
  | [] => []
  | stmt :: rest => Stmt.outline stmt :: stmtOutlines rest

/-- The outline of a statement that may be missing. -/
def stmtOptionOutline : Option Stmt → Outline
  | none => .option none
  | some stmt => .option (some (Stmt.outline stmt))

/-- The outline of a body that may be missing. -/
def bodyOptionOutline : Option (List Stmt) → Outline
  | none => .option none
  | some body => .option (some (.list (stmtOutlines body)))

/-- The outline of a kind of statement. -/
def StmtKind.outline : StmtKind → Outline
  | .expr value => .tuple "Expr" [Expr.outline value]
  | .localVars type declarators =>
      .record "Local" [
        ("ty", .quoted type), ("declarators", .list (declaratorOutlines declarators))]
  | .block body => .tuple "Block" [.list (stmtOutlines body)]
  | .ifElse cond whenTrue whenFalse =>
      .record "If" [("cond", Expr.outline cond), ("then_branch", Stmt.outline whenTrue),
        ("else_branch", stmtOptionOutline whenFalse)]
  | .whileLoop cond body =>
      .record "While" [("cond", Expr.outline cond), ("body", Stmt.outline body)]
  | .doWhile body cond =>
      .record "DoWhile" [("body", Stmt.outline body), ("cond", Expr.outline cond)]
  | .forLoop init cond update body =>
      .record "For" [("init", .list (stmtOutlines init)), ("cond", exprOptionOutline cond),
        ("update", .list (exprOutlines update)), ("body", Stmt.outline body)]
  | .forEach type name iterated body =>
      .record "ForEach" [("ty", .quoted type), ("name", .quoted name),
        ("iter", Expr.outline iterated), ("body", Stmt.outline body)]
  | .return value => .tuple "Return" [exprOptionOutline value]
  | .throw value => .tuple "Throw" [Expr.outline value]
  | .break label => .tuple "Break" [.textOption label]
  | .continue label => .tuple "Continue" [.textOption label]
  | .tryCatch resources body catches finallyBody =>
      .tuple "Try" [.record "TryStmt" [("resources", .list (resourceOutlines resources)),
        ("body", .list (stmtOutlines body)), ("catches", .list (catchOutlines catches)),
        ("finally", bodyOptionOutline finallyBody)]]
  | .synchronized lock body =>
      .record "Synchronized" [("lock", Expr.outline lock), ("body", .list (stmtOutlines body))]
  | .switch selector cases =>
      .record "Switch" [("selector", Expr.outline selector), ("cases", .list (caseOutlines cases))]
  | .labeled label body =>
      .record "Labeled" [("label", .quoted label), ("body", Stmt.outline body)]
  | .localClass decl => .tuple "LocalClass" [ClassDecl.outline decl]
  | .assert cond message =>
      .record "Assert" [("cond", Expr.outline cond), ("message", exprOptionOutline message)]
  | .empty => .leaf "Empty"

/-- The outlines of declarators. -/
def declaratorOutlines : List Declarator → List Outline
  | [] => []
  | ⟨id, name, init, span⟩ :: rest =>
      .record "VarDeclarator" [("id", .nodeId id), ("name", .quoted name),
        ("init", exprOptionOutline init), ("span", span.outline)] :: declaratorOutlines rest

/-- The outlines of resources. -/
def resourceOutlines : List Resource → List Outline
  | [] => []
  | ⟨id, type, name, init⟩ :: rest =>
      .record "Resource" [("id", .nodeId id), ("ty", .textOption type),
        ("name", .textOption name), ("init", Expr.outline init)] :: resourceOutlines rest

/-- The outlines of handlers. -/
def catchOutlines : List CatchClause → List Outline
  | [] => []
  | ⟨id, types, name, body, span⟩ :: rest =>
      .record "CatchClause" [("id", .nodeId id), ("types", .texts types), ("name", .quoted name),
        ("body", .list (stmtOutlines body)), ("span", span.outline)] :: catchOutlines rest

/-- The outlines of cases. -/
def caseOutlines : List SwitchCase → List Outline
  | [] => []
  | ⟨labels, isDefault, body⟩ :: rest =>
      .record "SwitchCase" [("labels", .list (exprOutlines labels)),
        ("is_default", .bool isDefault), ("body", .list (stmtOutlines body))] :: caseOutlines rest

/-- The outline of a class. -/
def ClassDecl.outline : ClassDecl → Outline
  | ⟨id, name, kind, modifiers, typeParams, superclass, interfaces, members, span⟩ =>
      .record "ClassDecl" [("id", .nodeId id), ("name", .quoted name), ("kind", .leaf kind.title),
        ("modifiers", Modifiers.outline modifiers), ("type_params", .texts typeParams),
        ("superclass", .textOption superclass), ("interfaces", .texts interfaces),
        ("members", .list (memberOutlines members)), ("span", span.outline)]

/-- The outlines of members. -/
def memberOutlines : List Member → List Outline
  | [] => []
  | ⟨id, kind, span⟩ :: rest =>
      .record "Member" [("id", .nodeId id), ("kind", MemberKind.outline kind),
        ("span", span.outline)] :: memberOutlines rest

/-- The outline of a kind of member. -/
def MemberKind.outline : MemberKind → Outline
  | .field modifiers type declarators =>
      .tuple "Field" [.record "FieldDecl" [("modifiers", Modifiers.outline modifiers),
        ("ty", .quoted type), ("declarators", .list (declaratorOutlines declarators))]]
  | .method decl => .tuple "Method" [MethodDecl.outline decl]
  | .initializer isStatic body =>
      .tuple "Initializer" [.record "Initializer" [("is_static", .bool isStatic),
        ("body", .list (stmtOutlines body))]]
  | .classDecl decl => .tuple "Class" [ClassDecl.outline decl]
  | .enumConstant name args none =>
      .tuple "EnumConstant" [.record "EnumConstant" [("name", .quoted name),
        ("args", .list (exprOutlines args)), ("body", .option none)]]
  | .enumConstant name args (some body) =>
      .tuple "EnumConstant" [.record "EnumConstant" [("name", .quoted name),
        ("args", .list (exprOutlines args)), ("body", .option (some (ClassDecl.outline body)))]]

/-- The outline of a method. -/
def MethodDecl.outline : MethodDecl → Outline
  | ⟨id, name, modifiers, typeParams, returnType, params, throws, body, span⟩ =>
      .record "MethodDecl" [("id", .nodeId id), ("name", .quoted name),
        ("modifiers", Modifiers.outline modifiers), ("type_params", .texts typeParams),
        ("ret_ty", .textOption returnType), ("params", .list (paramOutlines params)),
        ("throws", .texts throws), ("body", bodyOptionOutline body), ("span", span.outline)]

/-- The outlines of parameters. -/
def paramOutlines : List Param → List Outline
  | [] => []
  | ⟨id, name, type, modifiers, isVarargs, span⟩ :: rest =>
      .record "Param" [("id", .nodeId id), ("name", .quoted name), ("ty", .quoted type),
        ("modifiers", Modifiers.outline modifiers), ("is_varargs", .bool isVarargs),
        ("span", span.outline)] :: paramOutlines rest

/-- The outline of modifiers. -/
def Modifiers.outline : Modifiers → Outline
  | ⟨keywords, annotations⟩ =>
      .record "Modifiers" [("keywords", .list (keywords.map fun word => .leaf word.title)),
        ("annotations", .list (annotationOutlines annotations))]

/-- The outlines of annotations. -/
def annotationOutlines : List AnnotationUse → List Outline
  | [] => []
  | ⟨name, args, span⟩ :: rest =>
      .record "Annotation" [("name", .quoted name), ("args", .list (argumentOutlines args)),
        ("span", span.outline)] :: annotationOutlines rest

/-- The outlines of the arguments of an annotation. -/
def argumentOutlines : List AnnotationArg → List Outline
  | [] => []
  | ⟨name, value⟩ :: rest =>
      .record "AnnotationArg" [("name", .textOption name), ("value", Expr.outline value)] ::
        argumentOutlines rest

end
end LockDiscipline
