import LockDiscipline.Syntax.Tree
/-!
# Symbols

A symbol is a declared class, field, method or variable. Symbols are numbered in the order of their
declaration. A class symbol carries its place among the other classes and the members that it
declares itself; inherited members are found through its supertypes.
-/

namespace LockDiscipline

/-- The number of a symbol. -/
abbrev SymbolId := Nat

/-- The members that a class declares, by name in the order of their declaration. Fields and classes
have one entry for each name, methods one for each overload. -/
structure MemberTable where
  fields : List (String × SymbolId)
  methods : List (String × SymbolId)
  classes : List (String × SymbolId)
deriving DecidableEq, Repr, Inhabited

/-- What is known of a class. -/
structure ClassInfo where
  /-- The class around this one. -/
  outer : Option SymbolId
  isStatic : Bool
  kind : ClassKind
  /-- The dotted name with package and enclosing classes. Local and anonymous classes have the
  number that their enclosing class gives them, after a dollar sign. -/
  qualifiedName : String
  superclass : Option SymbolId
  interfaces : List SymbolId
  members : MemberTable
deriving DecidableEq, Repr, Inhabited

/-- The kinds of symbols. Variables know the class whose code declares them. -/
inductive SymbolKind where
  | classType (info : ClassInfo)
  | field (owner : SymbolId) (isStatic : Bool)
  | method (owner : SymbolId) (isStatic isSynchronized : Bool) (arity : Nat)
  | parameter (context : SymbolId)
  | localVar (context : SymbolId)
deriving DecidableEq, Repr, Inhabited

/-- A declared name. The type is the declared one as written, the return type for methods; the
guard is the text of its guard declaration. -/
structure NamedSymbol where
  id : SymbolId
  name : String
  kind : SymbolKind
  type : Option String
  guard : Option String
  span : Span
deriving DecidableEq, Repr, Inhabited

namespace NamedSymbol

/-- The class that declares a field or method. -/
def owner? (symbol : NamedSymbol) : Option SymbolId :=
  match symbol.kind with
  | .field owner _ | .method owner .. => some owner
  | _ => none

/-- What is known of a class symbol. -/
def classInfo? (symbol : NamedSymbol) : Option ClassInfo :=
  match symbol.kind with
  | .classType info => some info
  | _ => none

/-- Whether the symbol is a class. -/
def isClass (symbol : NamedSymbol) : Bool :=
  symbol.classInfo?.isSome

/-- Whether the symbol is a field. -/
def isField (symbol : NamedSymbol) : Bool :=
  match symbol.kind with
  | .field .. => true
  | _ => false

/-- Whether the symbol is a method. -/
def isMethod (symbol : NamedSymbol) : Bool :=
  match symbol.kind with
  | .method .. => true
  | _ => false

/-- Whether the symbol is a method with this number of parameters. -/
def isMethodOfArity (symbol : NamedSymbol) (count : Nat) : Bool :=
  match symbol.kind with
  | .method _ _ _ arity => arity == count
  | _ => false

/-- Whether the symbol belongs to a class and not to its instances. -/
def isStatic (symbol : NamedSymbol) : Bool :=
  match symbol.kind with
  | .classType info => info.isStatic
  | .field _ isStatic | .method _ isStatic _ _ => isStatic
  | .parameter _ | .localVar _ => false

/-- Whether the symbol is a method that takes its monitor. -/
def isSynchronized (symbol : NamedSymbol) : Bool :=
  match symbol.kind with
  | .method _ _ isSynchronized _ => isSynchronized
  | _ => false

/-- Whether the symbol is a local variable or a parameter. -/
def isVariable (symbol : NamedSymbol) : Bool :=
  match symbol.kind with
  | .parameter _ | .localVar _ => true
  | _ => false

/-- The class in whose context the declared type is looked up. -/
def contextClass (symbol : NamedSymbol) : SymbolId :=
  match symbol.kind with
  | .classType _ => symbol.id
  | .field owner _ | .method owner .. => owner
  | .parameter context | .localVar context => context

end NamedSymbol
end LockDiscipline
