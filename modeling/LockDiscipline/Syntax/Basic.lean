import LockDiscipline.Syntax.Tree
import LockDiscipline.Text.Dotted
/-!
# Names, parentheses and guards in syntax trees

What can be read off a tree without knowing its context: the dotted name that an expression spells,
the expression inside parentheses, and the guard that the annotations of a declaration name.
-/

namespace LockDiscipline

namespace Expr

/-- The expression inside any number of parentheses. -/
def peelParens : Expr → Expr
  | ⟨_, .paren inner, _⟩ => inner.peelParens
  | expr => expr

/-- The dotted name that a chain of identifiers spells. -/
def dottedName? : Expr → Option String
  | ⟨_, .name name, _⟩ => some name
  | ⟨_, .select object name, _⟩ => object.dottedName?.map (· ++ "." ++ name)
  | _ => none

end Expr

namespace AnnotationUse

/-- The last segment of the annotation's name. -/
def simpleName (use : AnnotationUse) : String :=
  Text.lastSegment use.name

/-- The argument that sets the element `value`, by name or as the only one. -/
def valueArg? (use : AnnotationUse) : Option AnnotationArg :=
  use.args.find? fun arg =>
    match arg.name with
    | none => true
    | some name => name == "value"

/-- The text of the element `value`, if that is a string literal. -/
def value? (use : AnnotationUse) : Option String :=
  match use.valueArg? with
  | some ⟨_, ⟨_, .string text, _⟩⟩ => some text
  | _ => none

end AnnotationUse

namespace Modifiers

/-- The simple name of the annotation that declares a guard, in whatever package it is. -/
def guardAnnotationName : String := "GuardedBy"

/-- Whether a keyword is among the modifiers. -/
def has (modifiers : Modifiers) (keyword : Keyword) : Bool :=
  modifiers.keywords.contains keyword

/-- The first annotation that declares a guard. -/
def guardUse? (modifiers : Modifiers) : Option AnnotationUse :=
  modifiers.annotations.find? (·.simpleName == guardAnnotationName)

/-- The text of the guard that the annotations declare. -/
def guardedBy? (modifiers : Modifiers) : Option String :=
  modifiers.guardUse?.bind (·.value?)

end Modifiers

/-- A method without a return type is a constructor. -/
def MethodDecl.isConstructor (method : MethodDecl) : Bool :=
  method.returnType.isNone

end LockDiscipline
