import LockDiscipline.Text.Dotted
/-!
# Types as names

A declared type is kept as its text. The class that it refers to is named by the part before its
type arguments; primitive types and arrays refer to no class.
-/

namespace LockDiscipline.TypeName

/-- The types that are no classes. -/
def primitives : List String :=
  ["boolean", "byte", "char", "short", "int", "long", "float", "double", "void"]

/-- Whether a type is written as an array, or as the type of a variable number of arguments. -/
def isArray (type : List Char) : Bool :=
  [']'].isSuffixOf type || ['.', '.', '.'].isSuffixOf type

/-- The name of the class that a declared type refers to. -/
def base? (type : String) : Option String :=
  let text := type.toList
  if isArray text then none
  else
    let name := String.ofList (text.takeWhile (· ≠ '<'))
    if name.isEmpty || primitives.contains name then none else some name

end LockDiscipline.TypeName
