import LockDiscipline.Program.Declare
/-!
# Resolving bodies

The second part of name resolution goes through the bodies of classes in source order, keeps the
scopes and records what every name refers to. Each expression yields a `Denotation`, which is all
that the expressions around it need to know. Local and anonymous classes are declared, linked and
resolved where they stand. `Program.ofUnit` puts both parts together.
-/

namespace LockDiscipline

/-- What an expression denotes as far as the lookup of members is concerned. -/
inductive Denotation where
  /-- A value, with its static class where that is known. -/
  | value (static : Option SymbolId)
  /-- A type before one of its members. -/
  | typeName (id : SymbolId)
deriving DecidableEq, Repr, Inhabited

namespace Denotation

/-- A value of which no class is known. -/
def unknown : Denotation := .value none

/-- The static class of a value. -/
def valueClass? : Denotation → Option SymbolId
  | .value static => static
  | .typeName _ => none

/-- The class in which members of the denoted thing are found. -/
def memberClass? : Denotation → Option SymbolId
  | .value static => static
  | .typeName id => some id

end Denotation

namespace Resolving

variable {Notes : Type}

/-- Change the scopes. -/
def updateScopes (change : ScopeStack → ScopeStack) : Resolving Notes Unit :=
  modify fun draft => { draft with scopes := change draft.scopes }

/-- Run a computation in a scope of its own. -/
def inScope {α : Type} (kind : ScopeKind) (body : Resolving Notes α) : Resolving Notes α := do
  updateScopes (·.push kind)
  let value ← body
  updateScopes (·.pop)
  return value

/-- The innermost class around the current place. -/
def currentClass? : Resolving Notes (Option SymbolId) :=
  return (← get).scopes.currentClass?

/-- Take a note that an expression is resolved at the current place. -/
def visit [NoteTaking Notes] (node : NodeId) : Resolving Notes Unit :=
  modify fun draft =>
    { draft with notes := NoteTaking.visited node draft.scopes.currentClass? draft.notes }

/-- Take a note of the class in which the member of a selection or call is looked up. -/
def lookIn [NoteTaking Notes] (node : NodeId) (type : Option SymbolId) : Resolving Notes Unit :=
  modify fun draft => { draft with notes := NoteTaking.lookedIn node type draft.notes }

/-- Declare a variable in the current scope, by the node that declares it if it has one. -/
def declareVariable (name : String) (type : Option String) (node : Option NodeId) (span : Span)
    (isParameter : Bool) : Resolving Notes Unit := do
  match ← currentClass? with
  | none => return ()
  | some context =>
      let kind := if isParameter then SymbolKind.parameter context else .localVar context
      let id ← declare name kind type none span
      updateScopes (·.define name id)
      match node with
      | some node => setUse node id
      | none => return ()

/-- Declare the parameters of a method. -/
def declareParams : List Param → Resolving Notes Unit
  | [] => return ()
  | param :: rest => do
      let type := if param.isVarargs then param.type ++ "..." else param.type
      declareVariable param.name (some type) (some param.id) param.span true
      declareParams rest

/-- Declare the parameters of a lambda, which have no nodes and no types. -/
def declareLambdaParams (span : Span) : List String → Resolving Notes Unit
  | [] => return ()
  | name :: rest => do
      declareVariable name none none span true
      declareLambdaParams span rest

/-- A type as seen from the current place. -/
def findTypeHere (type : String) : Resolving Notes (Option SymbolId) := do
  match ← currentClass? with
  | none => return none
  | some context =>
      ask fun program => (TypeName.base? type).bind (program.findType? context)

/-- The denotation of a value with the type of a symbol. -/
def valueOf (id : SymbolId) : Resolving Notes Denotation :=
  ask fun program => .value (program.typeOf? id)

/-- Record that a node refers to a symbol whose value it denotes. -/
def useValue (node : NodeId) (id : SymbolId) : Resolving Notes Denotation := do
  setUse node id
  valueOf id

/-- Record that a node names a type, if there is one. -/
def useType (node : NodeId) (found : Option SymbolId) : Resolving Notes Denotation := do
  match found with
  | some id =>
      setUse node id
      return .typeName id
  | none => return .unknown

/-- The variable or field that a bare name means at the current place. -/
def findVariable (name : String) : Resolving Notes (Option SymbolId) := do
  let draft ← get
  return draft.scopes.lookup name fun id => draft.program.findField? id name

/-- Resolve a bare name: a variable or field, or else a type. -/
def resolveName (node : NodeId) (name : String) : Resolving Notes Denotation := do
  match ← findVariable name with
  | some id => useValue node id
  | none => useType node (← findTypeHere name)

/-- Resolve the selection of a name from what the qualifier denotes. Where that is of no known
class, the selection may spell a qualified type name. -/
def resolveSelect [NoteTaking Notes] (node : NodeId) (qualifier : Denotation) (name : String)
    (dotted : Option String) : Resolving Notes Denotation := do
  lookIn node qualifier.memberClass?
  match qualifier.memberClass? with
  | some owner =>
      match ← ask (·.findField? owner name) with
      | some field => useValue node field
      | none => useType node (← ask (·.memberClass? owner name))
  | none =>
      match dotted with
      | some dotted => useType node (← findTypeHere dotted)
      | none => return .unknown

/-- Record what a call refers to. -/
def useMethod (node : NodeId) (found : Option SymbolId) : Resolving Notes Denotation := do
  match found with
  | some id => useValue node id
  | none => return .unknown

/-- The method that a call without a receiver refers to, from the innermost class that has one of
the name. A constructor called as `this` or `super` is not looked up. -/
def findScopedMethod (method : String) (arity : Nat) : Resolving Notes (Option SymbolId) := do
  if method == "this" || method == "super" then return none
  else
    let draft ← get
    return draft.scopes.enclosingClasses.findSome? fun id =>
      draft.program.findMethod? id method arity

/-- The type of a local variable, which is the class of its initial value where it is declared with
`var` or without a type. -/
def localType (type : Option String) (init : Denotation) : Resolving Notes (Option String) :=
  match type.filter (· != "var") with
  | some type => return some type
  | none => ask fun program => init.valueClass?.bind program.qualifiedName?

/-- The constant of an enum that a case label names, if the selector is an enum. -/
def findConstant (selector : Option SymbolId) : ExprKind → Resolving Notes (Option SymbolId)
  | .name name =>
      ask fun program => do
        let id ← selector
        let info ← program.classInfo? id
        if info.kind = .enum then program.findField? id name else none
  | _ => return none

/-- The number of the next local or anonymous class of a class. -/
def nextNested (outer : SymbolId) : Resolving Notes Nat :=
  modifyGet fun draft =>
    let number := (draft.nestedCounts.lookup outer).getD 0 + 1
    (number, { draft with nestedCounts := (outer, number) :: draft.nestedCounts })

/-- Declare a local or anonymous class in the class around it, which numbers it. A local class becomes
a member class of the class around it. -/
def declareInside (outer : SymbolId) (symbol : NamedSymbol) (decl : ClassDecl) :
    Resolving Notes SymbolId := do
  let outerName ← ask fun program => (program.qualifiedName? outer).getD symbol.name
  let number := toString (← nextNested outer)
  if decl.kind = .anonymous then
    declareClass (some outer) (symbol.name ++ "$" ++ number) (outerName ++ "$" ++ number) false decl
  else
    let id ← declareClass (some outer) decl.name (outerName ++ "$" ++ number ++ decl.name) false decl
    let _ ← enterMemberClass outer decl.name id
    return id

/-- Declare and link a local or anonymous class where it stands. -/
def declareNested (decl : ClassDecl) : Resolving Notes (Option SymbolId) := do
  match ← currentClass? with
  | none => return none
  | some outer =>
      match ← ask (·.symbol? outer) with
      | none => return none
      | some symbol =>
          let id ← declareInside outer symbol decl
          linkClass id decl
          return some id

section Bodies

variable [NoteTaking Notes]

mutual

/-- Resolve an expression and say what it denotes. -/
def resolveExpr : Expr → Resolving Notes Denotation
  | ⟨node, kind, span⟩ => do
      visit node
      resolveExprKind node span kind

/-- Resolve an expression of a kind. -/
def resolveExprKind (node : NodeId) (span : Span) : ExprKind → Resolving Notes Denotation
  | .name name => resolveName node name
  | .this => return .value (← currentClass?)
  | .super => do
      let context ← currentClass?
      return .value (← ask fun program => context.bind program.superclass?)
  | .qualifiedThis type => do
      match ← findTypeHere type with
      | some id =>
          setUse node id
          return .value (some id)
      | none => return .unknown
  | .classLiteral type => do
      let _ ← useType node (← findTypeHere type)
      return .unknown
  | .select object name => do
      let qualifier ← resolveExpr object
      resolveSelect node qualifier name (object.dottedName?.map (· ++ "." ++ name))
  | .call receiver method args => do
      resolveExprs args
      let arity := args.length
      match receiver with
      | some receiver =>
          let target ← resolveExpr receiver
          lookIn node target.memberClass?
          useMethod node (← ask fun program =>
            target.memberClass?.bind fun owner => program.findMethod? owner method arity)
      | none => useMethod node (← findScopedMethod method arity)
  | .new type args body => do
      resolveExprs args
      let created ← match body with
        | some body => resolveNested body
        | none => findTypeHere type
      let _ ← useType node created
      return .value created
  | .newArray _ dims init => do
      resolveExprs dims
      match init with
      | some items => resolveExprs items
      | none => pure ()
      return .unknown
  | .arrayInit items => do
      resolveExprs items
      return .unknown
  | .index object index => do
      let _ ← resolveExpr object
      let _ ← resolveExpr index
      return .unknown
  | .unary _ operand => do
      let _ ← resolveExpr operand
      return .unknown
  | .binary _ left right => do
      let _ ← resolveExpr left
      let _ ← resolveExpr right
      return .unknown
  | .assign _ target value => do
      let denoted ← resolveExpr target
      let _ ← resolveExpr value
      return denoted
  | .conditional cond whenTrue whenFalse => do
      let _ ← resolveExpr cond
      let denoted ← resolveExpr whenTrue
      let _ ← resolveExpr whenFalse
      return denoted
  | .instanceOf expr _ => do
      let _ ← resolveExpr expr
      return .unknown
  | .cast type expr => do
      let _ ← resolveExpr expr
      return .value (← findTypeHere type)
  | .lambda params body => do
      inScope .lambda do
        declareLambdaParams span params
        resolveLambdaBody body
      return .unknown
  | .methodRef target _ => do
      let _ ← resolveExpr target
      return .unknown
  | .paren inner => resolveExpr inner
  | .int _ | .float _ | .string _ | .char _ | .bool _ | .null => return .unknown

/-- Resolve expressions in order. -/
def resolveExprs : List Expr → Resolving Notes Unit
  | [] => return ()
  | expr :: rest => do
      let _ ← resolveExpr expr
      resolveExprs rest

/-- Resolve the body of a lambda. -/
def resolveLambdaBody : LambdaBody → Resolving Notes Unit
  | .expr value => do
      let _ ← resolveExpr value
      return ()
  | .block body => inScope .block (resolveStmts body)

/-- Resolve statements in order, in the current scope. -/
def resolveStmts : List Stmt → Resolving Notes Unit
  | [] => return ()
  | stmt :: rest => do
      resolveStmt stmt
      resolveStmts rest

/-- Resolve a statement. A declaration is in scope from the next one on. -/
def resolveStmt : Stmt → Resolving Notes Unit
  | ⟨_, .expr value, _⟩ | ⟨_, .throw value, _⟩ => do
      let _ ← resolveExpr value
      return ()
  | ⟨_, .localVars type declarators, _⟩ => resolveDeclarators type declarators
  | ⟨_, .block body, _⟩ => inScope .block (resolveStmts body)
  | ⟨_, .ifElse cond whenTrue whenFalse, _⟩ => do
      let _ ← resolveExpr cond
      resolveStmt whenTrue
      match whenFalse with
      | some stmt => resolveStmt stmt
      | none => return ()
  | ⟨_, .whileLoop cond body, _⟩ | ⟨_, .doWhile body cond, _⟩ => do
      let _ ← resolveExpr cond
      resolveStmt body
  | ⟨_, .forLoop init cond update body, _⟩ =>
      inScope .block do
        resolveStmts init
        match cond with
        | some cond =>
            let _ ← resolveExpr cond
        | none => pure ()
        resolveExprs update
        resolveStmt body
  | ⟨node, .forEach type name iterated body, span⟩ => do
      let _ ← resolveExpr iterated
      inScope .block do
        let type := if type == "var" then none else some type
        declareVariable name type (some node) span false
        resolveStmt body
  | ⟨_, .return value, _⟩ => do
      match value with
      | some value =>
          let _ ← resolveExpr value
          return ()
      | none => return ()
  | ⟨_, .tryCatch resources body catches finallyBody, _⟩ => do
      inScope .block do
        resolveResources resources
        inScope .block (resolveStmts body)
      resolveCatches catches
      match finallyBody with
      | some body => inScope .block (resolveStmts body)
      | none => return ()
  | ⟨_, .synchronized lock body, _⟩ => do
      let _ ← resolveExpr lock
      inScope .block (resolveStmts body)
  | ⟨_, .switch selector cases, _⟩ => do
      let denoted ← resolveExpr selector
      inScope .block (resolveCases denoted.valueClass? cases)
  | ⟨_, .labeled _ body, _⟩ => resolveStmt body
  | ⟨_, .localClass decl, _⟩ => do
      let _ ← resolveNested decl
      return ()
  | ⟨_, .assert cond message, _⟩ => do
      let _ ← resolveExpr cond
      match message with
      | some message =>
          let _ ← resolveExpr message
          return ()
      | none => return ()
  | ⟨_, .break _, _⟩ | ⟨_, .continue _, _⟩ | ⟨_, .empty, _⟩ => return ()

/-- Resolve the variables of a local declaration, each initial value before its variable. -/
def resolveDeclarators (type : String) : List Declarator → Resolving Notes Unit
  | [] => return ()
  | ⟨node, name, init, span⟩ :: rest => do
      let denoted ← match init with
        | some init => resolveExpr init
        | none => pure .unknown
      let declared ← localType (some type) denoted
      declareVariable name declared (some node) span false
      resolveDeclarators type rest

/-- Resolve the resources of a `try` statement, each in the scope of those before it. -/
def resolveResources : List Resource → Resolving Notes Unit
  | [] => return ()
  | ⟨node, type, name, init⟩ :: rest => do
      let denoted ← resolveExpr init
      match name with
      | some name =>
          let declared ← localType type denoted
          declareVariable name declared (some node) init.span false
      | none => pure ()
      resolveResources rest

/-- Resolve the handlers of a `try` statement. The variable of a handler for several types has no
type. -/
def resolveCatches : List CatchClause → Resolving Notes Unit
  | [] => return ()
  | ⟨node, types, name, body, span⟩ :: rest => do
      inScope .block do
        let type := match types with
          | [single] => some single
          | _ => none
        declareVariable name type (some node) span true
        resolveStmts body
      resolveCatches rest

/-- Resolve the cases of a `switch` statement, which share one scope. -/
def resolveCases (selector : Option SymbolId) : List SwitchCase → Resolving Notes Unit
  | [] => return ()
  | ⟨labels, _, body⟩ :: rest => do
      resolveLabels selector labels
      resolveStmts body
      resolveCases selector rest

/-- Resolve the labels of a case. A bare name names a constant where the selector is an enum. -/
def resolveLabels (selector : Option SymbolId) : List Expr → Resolving Notes Unit
  | [] => return ()
  | label :: rest => do
      match ← findConstant selector label.kind with
      | some constant => setUse label.id constant
      | none =>
          let _ ← resolveExpr label
      resolveLabels selector rest

/-- Declare, link and resolve a local or anonymous class where it stands. -/
def resolveNested : ClassDecl → Resolving Notes (Option SymbolId)
  | ⟨node, name, kind, modifiers, typeParams, superclass, interfaces, members, span⟩ => do
      let decl := ⟨node, name, kind, modifiers, typeParams, superclass, interfaces, members, span⟩
      match ← declareNested decl with
      | some id =>
          inScope (.classBody id) (resolveMembers members)
          return some id
      | none => return none

/-- Resolve the members of a class in the scope of the class. -/
def resolveMembers : List Member → Resolving Notes Unit
  | [] => return ()
  | ⟨_, kind, _⟩ :: rest => do
      resolveMember kind
      resolveMembers rest

/-- Resolve a member of a class. -/
def resolveMember : MemberKind → Resolving Notes Unit
  | .field _ _ declarators => resolveInits declarators
  | .enumConstant _ args body => do
      resolveExprs args
      match body with
      | some body =>
          let _ ← resolveNested body
          return ()
      | none => return ()
  | .method method => resolveMethod method
  | .initializer _ body => inScope (.method none) (resolveStmts body)
  | .classDecl decl => resolveMemberClass decl

/-- Resolve the initial values of fields. -/
def resolveInits : List Declarator → Resolving Notes Unit
  | [] => return ()
  | ⟨_, _, init, _⟩ :: rest => do
      match init with
      | some init =>
          let _ ← resolveExpr init
      | none => pure ()
      resolveInits rest

/-- Resolve the body of a method in the scope of its parameters. -/
def resolveMethod : MethodDecl → Resolving Notes Unit
  | ⟨node, _, _, _, _, params, _, body, _⟩ => do
      let symbol ← ask (·.use? node)
      inScope (.method symbol) do
        declareParams params
        match body with
        | some body => resolveStmts body
        | none => return ()

/-- Resolve the body of a class that is declared already. -/
def resolveMemberClass : ClassDecl → Resolving Notes Unit
  | ⟨node, _, _, _, _, _, _, members, _⟩ => do
      match ← ask (·.use? node) with
      | some id => inScope (.classBody id) (resolveMembers members)
      | none => return ()

end

end Bodies

/-- The qualified name of a top-level class. -/
def topLevelName (package : Option String) (name : String) : String :=
  match package with
  | some package => package ++ "." ++ name
  | none => name

/-- Enter a top-level class under its name. Of classes with one name the first counts. -/
def enterTopLevel (name : String) (id : SymbolId) (span : Span) : Resolving Notes Unit := do
  match enterOnce name id (← ask (·.topLevel)) with
  | (some previous, _) =>
      update fun program =>
        program.addProblem (.duplicateClass name span (program.spanOf previous))
  | (none, topLevel) => update ({ · with topLevel })

/-- Declare the top-level classes of a unit. -/
def declareTopLevel (package : Option String) : List ClassDecl → Resolving Notes (List SymbolId)
  | [] => return []
  | decl :: rest => do
      let id ← declareClass none decl.name (topLevelName package decl.name) false decl
      enterTopLevel decl.name id decl.span
      return id :: (← declareTopLevel package rest)

/-- Link top-level classes. -/
def linkTopLevel : List (SymbolId × ClassDecl) → Resolving Notes Unit
  | [] => return ()
  | (id, decl) :: rest => do
      linkClass id decl
      linkTopLevel rest

/-- Resolve the bodies of top-level classes. -/
def resolveTopLevel [NoteTaking Notes] : List (SymbolId × ClassDecl) → Resolving Notes Unit
  | [] => return ()
  | (id, decl) :: rest => do
      inScope (.classBody id) (resolveMembers decl.members)
      resolveTopLevel rest

/-- Resolve all names of a unit: declare its classes, link their supertypes, resolve their bodies.
-/
def resolveUnit [NoteTaking Notes] (unit : CompilationUnit) : Resolving Notes Unit := do
  let ids ← declareTopLevel unit.package unit.types
  let classes := ids.zip unit.types
  linkTopLevel classes
  resolveTopLevel classes
  let program ← ask id
  tell (.resolved ids.length program.symbols.size program.uses.size program.problems.length)

end Resolving

namespace Program

/-- The imports of single types by the simple name that they claim, the last one first. -/
def typeImports (imports : List Import) : List (String × String) :=
  ((imports.filter fun decl => !decl.isStatic && !decl.isWildcard).map fun decl =>
    (Text.lastSegment decl.path, decl.path)).reverse

/-- The draft from which the names of a unit are resolved: the library and the imports. -/
def start {Notes : Type} (unit : CompilationUnit) (notes : Notes) : Draft Notes where
  program :=
    { Library.declareAll (.empty unit.package) with imports := typeImports unit.imports }
  scopes := .empty
  nestedCounts := []
  notes
  trace := []

/-- A unit with all its names resolved, and the events of the resolution. -/
def resolve (unit : CompilationUnit) : Program × List TraceEvent :=
  let draft := ((Resolving.resolveUnit unit).run (start unit ())).2
  (draft.program, draft.trace)

/-- A unit with all its names resolved. -/
def ofUnit (unit : CompilationUnit) : Program :=
  (resolve unit).1

end Program
end LockDiscipline
