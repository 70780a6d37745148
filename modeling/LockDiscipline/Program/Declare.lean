import LockDiscipline.Program.Library
import LockDiscipline.Program.Scope
import LockDiscipline.Syntax.Basic
import LockDiscipline.Trace
/-!
# Declaring classes

The first part of name resolution: the symbols of a class, its members and its member classes, and
then its supertypes. A supertype that would close a cycle is dropped with a problem, so the classes
with their supertypes never form a cycle.
-/

namespace LockDiscipline

/-- A program while its names are resolved, with the notes that are taken meanwhile. -/
structure Draft (Notes : Type) where
  program : Program
  scopes : ScopeStack
  /-- How many local and anonymous classes each class has so far. -/
  nestedCounts : List (SymbolId × Nat)
  notes : Notes
  trace : List TraceEvent

/-- Computations that extend a program. -/
abbrev Resolving (Notes : Type) := StateM (Draft Notes)

/-- Notes on how names are resolved. Nothing that is resolved depends on them. -/
class NoteTaking (Notes : Type) where
  /-- An expression is resolved in the code of a class. -/
  visited : NodeId → Option SymbolId → Notes → Notes
  /-- The member that a selection or a call names is looked up in a class. -/
  lookedIn : NodeId → Option SymbolId → Notes → Notes

/-- No notes are taken. -/
instance : NoteTaking Unit where
  visited _ _ _ := ()
  lookedIn _ _ _ := ()

namespace Resolving

variable {Notes : Type}

/-- Change the program. -/
def update (change : Program → Program) : Resolving Notes Unit :=
  modify fun draft => { draft with program := change draft.program }

/-- What a function makes of the program. -/
def ask {α : Type} (question : Program → α) : Resolving Notes α :=
  return question (← get).program

/-- Declare a symbol. -/
def declare (name : String) (kind : SymbolKind) (type guard : Option String) (span : Span) :
    Resolving Notes SymbolId :=
  modifyGet fun draft =>
    let (id, program) := draft.program.declare name kind type guard span
    (id, { draft with program })

/-- Record what a node declares or refers to. -/
def setUse (node : NodeId) (id : SymbolId) : Resolving Notes Unit :=
  update (·.setUse node id)

/-- Record an event. -/
def tell (event : TraceEvent) : Resolving Notes Unit :=
  modify fun draft => { draft with trace := draft.trace ++ [event] }

/-- Enter a name into a table unless it is there, in which case the symbol that it names stays and
is returned. -/
def enterOnce (name : String) (id : SymbolId) (entries : List (String × SymbolId)) :
    Option SymbolId × List (String × SymbolId) :=
  match entries.lookup name with
  | some previous => (some previous, entries)
  | none => (none, entries ++ [(name, id)])

/-- Enter a field into the table of its class. Of fields with one name in a class the first counts.
-/
def enterField (owner : SymbolId) (name : String) (id : SymbolId) (span : Span) :
    Resolving Notes Unit := do
  let fields ← ask fun program => (program.members owner).fields
  match enterOnce name id fields with
  | (some previous, _) =>
      update fun program =>
        program.addProblem (.duplicateField name span (program.spanOf previous))
  | (none, fields) => update (·.updateMembers owner fun members => { members with fields })

/-- Declare a field. -/
def declareField (owner : SymbolId) (name : String) (type : Option String)
    (guard : Option String) (isStatic : Bool) (node : NodeId) (span : Span) : Resolving Notes Unit := do
  let id ← declare name (.field owner isStatic) type guard span
  setUse node id
  enterField owner name id span

/-- Declare the variables of a field declaration. -/
def declareFields (owner : SymbolId) (modifiers : Modifiers) (type : String) (isStatic : Bool) :
    List Declarator → Resolving Notes Unit
  | [] => return ()
  | declarator :: rest => do
      declareField owner declarator.name (some type) modifiers.guardedBy? isStatic
        declarator.id declarator.span
      declareFields owner modifiers type isStatic rest

/-- Declare a method or constructor. A method of an interface never takes its monitor. -/
def declareMethod (owner : SymbolId) (method : MethodDecl) (inInterface : Bool) :
    Resolving Notes Unit := do
  let kind := SymbolKind.method owner (method.modifiers.has .static)
    (method.modifiers.has .synchronized && !inInterface) method.params.length
  let id ← declare method.name kind method.returnType method.modifiers.guardedBy? method.span
  setUse method.id id
  update (·.updateMembers owner fun members =>
    { members with methods := members.methods ++ [(method.name, id)] })

/-- Make a class a member class of another, unless that has one of the same name. -/
def enterMemberClass (owner : SymbolId) (name : String) (id : SymbolId) :
    Resolving Notes (Option SymbolId) := do
  let classes ← ask fun program => (program.members owner).classes
  let (previous?, classes) := enterOnce name id classes
  update (·.updateMembers owner fun members => { members with classes })
  return previous?

/-- Declare the symbol of a class, without its members. -/
def declareClassSymbol (node : NodeId) (name : String) (kind : ClassKind)
    (outer : Option SymbolId) (qualifiedName : String) (isStatic : Bool) (span : Span) :
    Resolving Notes SymbolId := do
  let info : ClassInfo :=
    { outer, isStatic, kind, qualifiedName, superclass := none, interfaces := []
      members := default }
  let id ← declare name (.classType info) none none span
  setUse node id
  update fun program => { program with qualified := program.qualified ++ [(qualifiedName, id)] }
  return id

mutual

/-- Declare a class with its members and member classes, under a name of the caller's choice. -/
def declareClass (outer : Option SymbolId) (name qualifiedName : String) (isStatic : Bool) :
    ClassDecl → Resolving Notes SymbolId
  | ⟨node, ownName, kind, _, _, _, _, members, span⟩ => do
      let id ← declareClassSymbol node name kind outer qualifiedName isStatic span
      declareMembers id qualifiedName ownName (kind == .interface) members
      return id

/-- Declare the members of a class. -/
def declareMembers (owner : SymbolId) (qualifiedName className : String) (inInterface : Bool) :
    List Member → Resolving Notes Unit
  | [] => return ()
  | ⟨node, kind, span⟩ :: rest => do
      declareMember owner qualifiedName className inInterface node span kind
      declareMembers owner qualifiedName className inInterface rest

/-- Declare a member of a class. Members of interfaces and member types other than classes are
static; the constants of an enum are static fields of its type. -/
def declareMember (owner : SymbolId) (qualifiedName className : String) (inInterface : Bool)
    (node : NodeId) (span : Span) : MemberKind → Resolving Notes Unit
  | .field modifiers type declarators =>
      declareFields owner modifiers type (modifiers.has .static || inInterface) declarators
  | .enumConstant name _ _ => declareField owner name (some className) none true node span
  | .method method => declareMethod owner method inInterface
  | .initializer _ _ => return ()
  | .classDecl decl => do
      let isStatic := decl.modifiers.has .static || decl.kind != .class || inInterface
      let id ← declareClass (some owner) decl.name (qualifiedName ++ "." ++ decl.name) isStatic decl
      match ← enterMemberClass owner decl.name id with
      | some previous =>
          update fun program =>
            program.addProblem (.duplicateClass decl.name decl.span (program.spanOf previous))
      | none => return ()

end

/-- The class that a supertype clause names, as seen from a class. -/
def findSupertype (scope : SymbolId) (type : String) : Resolving Notes (Option SymbolId) := do
  let found ← ask fun program => (TypeName.base? type).bind (program.findType? scope)
  if found.isNone then tell (.supertypeUnknown type)
  return found

/-- The classes that the clauses of a list name. -/
def findSupertypes (scope : SymbolId) : List String → Resolving Notes (List SymbolId)
  | [] => return []
  | type :: rest => do
      let found ← findSupertype scope type
      return found.toList ++ (← findSupertypes scope rest)

/-- Set the supertypes of a class, without those that inherit from the class themselves. -/
def setSupertypes (id : SymbolId) (superclass : Option SymbolId) (interfaces : List SymbolId)
    (span : Span) : Resolving Notes Unit := do
  let program ← ask fun program => program
  let isAcyclic (supertype : SymbolId) : Bool := !program.isSubclass supertype id
  if !(superclass.toList ++ interfaces).all isAcyclic then
    let name := ((program.symbol? id).map (·.name)).getD ""
    update (·.addProblem (.cyclicInheritance name span))
  update (·.updateClass id fun info =>
    { info with
      superclass := superclass.filter isAcyclic, interfaces := interfaces.filter isAcyclic })

mutual

/-- Resolve the supertypes of a class and then of its member classes. The names are those visible
around the class. -/
def linkClass (id : SymbolId) : ClassDecl → Resolving Notes Unit
  | ⟨_, _, _, _, _, superclass, interfaces, members, span⟩ => do
      let scope ← ask fun program => (program.outerClass? id).getD id
      let superclass ← match superclass with
        | some type => findSupertype scope type
        | none => pure none
      let interfaces ← findSupertypes scope interfaces
      setSupertypes id superclass interfaces span
      linkMembers members

/-- Resolve the supertypes of member classes. -/
def linkMembers : List Member → Resolving Notes Unit
  | [] => return ()
  | ⟨_, kind, _⟩ :: rest => do
      linkMember kind
      linkMembers rest

/-- Resolve the supertypes of a member that is a class. -/
def linkMember : MemberKind → Resolving Notes Unit
  | .classDecl decl => do
      match ← ask (·.use? decl.id) with
      | some id => linkClass id decl
      | none => return ()
  | _ => return ()

end

end Resolving
end LockDiscipline
