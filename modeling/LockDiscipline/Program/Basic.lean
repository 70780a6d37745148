import Std.Data.TreeMap.Basic
import LockDiscipline.Program.Problem
import LockDiscipline.Program.Symbol
import LockDiscipline.Program.TypeName
/-!
# Programs with their names

A `Program` is a compilation unit as far as names go: the symbols that it and the library declare,
and the symbol that each syntax node declares or refers to. Its queries find types and members from
the view of a class. Supertypes are searched breadth first, enclosing classes from the inside, and
of several places that may explain a type name the nearest wins: an enclosing class or a member of
one, the unit, its imports, the library.
-/

namespace LockDiscipline

/-- The symbols of a compilation unit and of the library, and what its syntax nodes refer to. -/
structure Program where
  symbols : Array NamedSymbol
  /-- The symbol that a node declares or refers to. -/
  uses : Std.TreeMap NodeId SymbolId
  problems : List NameProblem
  package : Option String
  /-- The top-level classes of the unit, by name in declaration order. -/
  topLevel : List (String × SymbolId)
  /-- The classes by qualified name; the first of a name counts. -/
  qualified : List (String × SymbolId)
  /-- The classes of the library by simple name. -/
  library : List (String × SymbolId)
  /-- The imports of single types: the qualified name for a simple name, the last import first. -/
  imports : List (String × String)

namespace Program

/-- A program without symbols. -/
def empty (package : Option String) : Program :=
  ⟨#[], ∅, [], package, [], [], [], []⟩

/-- The symbol with a number. -/
def symbol? (program : Program) (id : SymbolId) : Option NamedSymbol :=
  program.symbols[id]?

/-- The symbol number that a node declares or refers to. -/
def use? (program : Program) (node : NodeId) : Option SymbolId :=
  program.uses[node]?

/-- The symbol that a node declares or refers to. -/
def usedSymbol? (program : Program) (node : NodeId) : Option NamedSymbol :=
  (program.use? node).bind program.symbol?

/-- What is known of a class. -/
def classInfo? (program : Program) (id : SymbolId) : Option ClassInfo :=
  (program.symbol? id).bind (·.classInfo?)

/-- The class around a class. -/
def outerClass? (program : Program) (id : SymbolId) : Option SymbolId :=
  (program.classInfo? id).bind (·.outer)

/-- The qualified name of a class. -/
def qualifiedName? (program : Program) (id : SymbolId) : Option String :=
  (program.classInfo? id).map (·.qualifiedName)

/-- The superclass of a class. -/
def superclass? (program : Program) (id : SymbolId) : Option SymbolId :=
  (program.classInfo? id).bind (·.superclass)

/-- The superclass and the interfaces of a class. -/
def supertypes (program : Program) (id : SymbolId) : List SymbolId :=
  match program.classInfo? id with
  | some info => info.superclass.toList ++ info.interfaces
  | none => []

/-- Those of `found` that were not seen before, each once. -/
def unseen (seen : List SymbolId) : List SymbolId → List SymbolId
  | [] => []
  | id :: rest =>
      if seen.contains id then unseen seen rest else id :: unseen (id :: seen) rest

/-- Search from `pending` on, breadth first, for at most `steps` classes. -/
def searchSupertypes (program : Program) :
    (steps : Nat) → (pending seen : List SymbolId) → List SymbolId
  | 0, _, seen => seen
  | _, [], seen => seen
  | steps + 1, id :: pending, seen =>
      let fresh := unseen seen (program.supertypes id)
      searchSupertypes program steps (pending ++ fresh) (seen ++ fresh)

/-- A class and all its supertypes, breadth first. Every class is searched once, so the number of
symbols bounds the search. -/
def ancestors (program : Program) (id : SymbolId) : List SymbolId :=
  program.searchSupertypes (program.symbols.size + 1) [id] [id]

/-- A class and the classes around it, innermost first, for at most `steps` of them. -/
def enclosingUpTo (program : Program) : (steps : Nat) → (id : SymbolId) → List SymbolId
  | 0, _ => []
  | steps + 1, id =>
      id :: match program.outerClass? id with
        | some outer => enclosingUpTo program steps outer
        | none => []

/-- A class and the classes around it, innermost first. A class is declared after the one around
it, so the number of symbols bounds the chain. -/
def enclosing (program : Program) (id : SymbolId) : List SymbolId :=
  program.enclosingUpTo (program.symbols.size + 1) id

/-- The members that a class declares itself. -/
def members (program : Program) (id : SymbolId) : MemberTable :=
  ((program.classInfo? id).map (·.members)).getD default

/-- The field that a class declares or inherits under a name. -/
def findField? (program : Program) (id : SymbolId) (name : String) : Option SymbolId :=
  (program.ancestors id).findSome? fun ancestor => (program.members ancestor).fields.lookup name

/-- The member class that a class declares or inherits under a name. -/
def memberClass? (program : Program) (id : SymbolId) (name : String) : Option SymbolId :=
  (program.ancestors id).findSome? fun ancestor => (program.members ancestor).classes.lookup name

/-- The methods that a class declares or inherits under a name, nearest first. -/
def methodsNamed (program : Program) (id : SymbolId) (name : String) : List SymbolId :=
  (program.ancestors id).flatMap fun ancestor =>
    ((program.members ancestor).methods.filter (·.1 == name)).map (·.2)

/-- Whether a symbol is a method with this number of parameters. -/
def hasArity (program : Program) (arity : Nat) (id : SymbolId) : Bool :=
  (program.symbol? id).any (·.isMethodOfArity arity)

/-- The method that a class declares or inherits under a name: the nearest with this number of
parameters, or else the nearest of all. -/
def findMethod? (program : Program) (id : SymbolId) (name : String) (arity : Nat) :
    Option SymbolId :=
  let candidates := program.methodsNamed id name
  (candidates.find? (program.hasArity arity)).or candidates.head?

/-- The field or else the method that a class declares or inherits under a name. -/
def findMember? (program : Program) (id : SymbolId) (name : String) : Option SymbolId :=
  (program.findField? id name).or (program.methodsNamed id name).head?

/-- A class by its qualified name, or by its name within the package of the unit. -/
def findQualified? (program : Program) (name : String) : Option SymbolId :=
  (program.qualified.lookup name).or <|
    program.package.bind fun package => program.qualified.lookup (package ++ "." ++ name)

/-- What a class makes of a simple type name: itself if it bears the name, or a member class. -/
def typeWithin? (program : Program) (name : String) (id : SymbolId) : Option SymbolId :=
  if (program.symbol? id).any (·.name == name) then some id else program.memberClass? id name

/-- A type by its simple name, as seen from a class. -/
def findSimpleType? (program : Program) (fromClass : SymbolId) (name : String) :
    Option SymbolId :=
  ((program.enclosing fromClass).findSome? (program.typeWithin? name)).or <|
    (program.topLevel.lookup name).or <|
      ((program.imports.lookup name).bind fun full => program.qualified.lookup full).or <|
        (program.library.lookup name).or (program.qualified.lookup name)

/-- A type by its name, as seen from a class. A dotted name is a qualified name, or else a simple
name with member classes behind it. -/
def findType? (program : Program) (fromClass : SymbolId) (name : String) : Option SymbolId :=
  match Text.segments name with
  | head :: next :: rest =>
      (program.findQualified? name).or <| do
        let first ← program.findSimpleType? fromClass head
        (next :: rest).foldlM program.memberClass? first
  | _ => program.findSimpleType? fromClass name

/-- The declared type of a field or variable, or the return type of a method, as a class. -/
def typeOf? (program : Program) (id : SymbolId) : Option SymbolId := do
  let symbol ← program.symbol? id
  if symbol.isClass then none
  else
    let name ← TypeName.base? (← symbol.type)
    program.findType? symbol.contextClass name

/-- Whether one class is another or one of its supertypes. -/
def isSubclass (program : Program) (id ancestor : SymbolId) : Bool :=
  (program.ancestors id).contains ancestor

/-- Whether a class is, or inherits from, the class with a qualified name. -/
def isSubtype (program : Program) (id : SymbolId) (qualifiedName : String) : Bool :=
  (program.ancestors id).any fun ancestor =>
    program.qualifiedName? ancestor == some qualifiedName

/-! ### Building programs -/

/-- Declare a symbol under the next number. -/
def declare (program : Program) (name : String) (kind : SymbolKind) (type guard : Option String)
    (span : Span) : SymbolId × Program :=
  let id := program.symbols.size
  (id, { program with symbols := program.symbols.push ⟨id, name, kind, type, guard, span⟩ })

/-- Record what a node declares or refers to. -/
def setUse (program : Program) (node : NodeId) (id : SymbolId) : Program :=
  { program with uses := program.uses.insert node id }

/-- Change what is known of a class. -/
def updateClass (program : Program) (id : SymbolId) (change : ClassInfo → ClassInfo) : Program :=
  { program with
    symbols := program.symbols.modify id fun symbol =>
      match symbol.kind with
      | .classType info => { symbol with kind := .classType (change info) }
      | _ => symbol }

/-- Change the table of the members that a class declares. -/
def updateMembers (program : Program) (id : SymbolId) (change : MemberTable → MemberTable) :
    Program :=
  program.updateClass id fun info => { info with members := change info.members }

/-- Record a problem. -/
def addProblem (program : Program) (problem : NameProblem) : Program :=
  { program with problems := program.problems ++ [problem] }

/-- Where a symbol was declared. -/
def spanOf (program : Program) (id : SymbolId) : Span :=
  ((program.symbol? id).map (·.span)).getD default

end Program
end LockDiscipline
