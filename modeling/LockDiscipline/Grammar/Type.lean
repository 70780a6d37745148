import LockDiscipline.Grammar.Rules
import LockDiscipline.Text.Dotted
/-!
# Types, annotations and modifiers

Types are read into the text that denotes them: identifiers, dots, type arguments and brackets
without blanks, and one blank on either side of the bound of a wildcard.
-/

namespace LockDiscipline.Grammar

variable (rules : Rules)

/-- Names with dots between them. A dot that no name follows is left alone. -/
def readQualifiedName : Reader String := do
  let first ← expectName
  iterate (fun name => do
    if (← atSymbol .dot) && (← peek 1).isIdent then
      advance
      return some (name ++ "." ++ (← expectName))
    else return none) first

/-- Pairs of square brackets, as text. -/
def readDims : Reader String :=
  iterate (fun text => do
    if (← atSymbol .leftBracket) && (← peek 1) == .symbol .rightBracket then
      advance
      advance
      return some (text ++ "[]")
    else return none) ""

/-- Annotations, which carry no guard where they stand. -/
def skipAnnotations : Reader Unit := do
  let _ ← collect do
    if ← atSymbol .at then return some (← rules _ .annotationUse) else return none
  return ()

/-- A type argument: a type or a wildcard with its bound. -/
def readTypeArg : Reader String := do
  if ← acceptSymbol .question then
    if ← acceptKeyword .extends then
      return "? extends " ++ (← rules _ .type)
    else if ← acceptKeyword .super then
      return "? super " ++ (← rules _ .type)
    else return "?"
  else rules _ .type

/-- Type arguments in angle brackets; there may be none between them. -/
def readTypeArgs : Reader String := do
  let _ ← expectSymbol .less
  if ← acceptSymbol .greater then return "<>"
  let args ← separated .comma (readTypeArg rules)
  let _ ← expectSymbol .greater
  return "<" ++ Text.join "," args ++ ">"

/-- A dotted chain of names, each with its type arguments. -/
def readTypeName : Reader String := do
  let (text, _) ← iterate (fun ((text, more) : String × Bool) => do
    if !more then return none
    let name ← expectName
    let args ← if ← atSymbol .less then readTypeArgs rules else pure ""
    if (← atSymbol .dot) && (← peek 1).isIdent then
      advance
      return some (text ++ name ++ args ++ ".", true)
    else return some (text ++ name ++ args, false)) ("", true)
  return text

/-- A type, as text. -/
def readType : Reader String := do
  skipAnnotations rules
  if !(← currentKind).isIdent then failExpected .type
  let name ← readTypeName rules
  return name ++ (← readDims)

/-- Types with commas between them. -/
def readTypeList : Reader (List String) :=
  separated .comma (rules _ .type)

/-- A type parameter; its bounds are read and dropped. -/
def readTypeParam : Reader String := do
  skipAnnotations rules
  let name ← expectName
  if ← acceptKeyword .extends then
    let _ ← separated .amp (rules _ .type)
  return name

/-- Type parameters in angle brackets, if there are any. -/
def readTypeParams : Reader (List String) := do
  if !(← acceptSymbol .less) then return []
  let params ← separated .comma (readTypeParam rules)
  let _ ← expectSymbol .greater
  return params

/-- Items in braces, as an array of values. -/
def readArrayItems (item : Reader Expr) : Reader (List Expr) := do
  let _ ← expectSymbol .leftBrace
  let items ← enumerated .rightBrace .comma item
  let _ ← expectSymbol .rightBrace
  return items

/-- The value of an annotation argument. A nested annotation carries no guard, so it counts as the
null literal. -/
def readElementValue : Reader Expr := do
  let start ← currentStart
  match ← currentKind with
  | .symbol .leftBrace =>
      let items ← readArrayItems (rules _ .elementValue)
      mkExpr (.arrayInit items) start
  | .symbol .at =>
      let _ ← rules _ .annotationUse
      mkExpr .null start
  | _ => rules _ .ternary

/-- An annotation argument with its name. -/
def readNamedArg : Reader AnnotationArg := do
  let name ← expectName
  let _ ← expectSymbol .assign
  return ⟨some name, ← rules _ .elementValue⟩

/-- The arguments of an annotation: none, named ones, or a single value. -/
def readAnnotationArgs : Reader (List AnnotationArg) := do
  if ← atSymbol .rightParen then return []
  else if (← currentKind).isIdent && (← peek 1) == .symbol .assign then
    separated .comma (readNamedArg rules)
  else return [⟨none, ← rules _ .elementValue⟩]

/-- An annotation with its arguments in parentheses, if it has any. -/
def readAnnotationUse : Reader AnnotationUse := do
  let start := (← expectSymbol .at).start
  let name ← readQualifiedName
  if ← acceptSymbol .leftParen then
    let args ← readAnnotationArgs rules
    let _ ← expectSymbol .rightParen
    return ⟨name, args, ← spanFrom start⟩
  else return ⟨name, [], ← spanFrom start⟩

/-- The modifier keywords and annotations before a declaration, in either order. The sign of an
annotation belongs to the declaration if the keyword `interface` follows it. -/
def readModifiers : Reader Modifiers := do
  let modifiers ← iterate (fun (modifiers : Modifiers) => do
    match ← currentKind with
    | .symbol .at =>
        if (← peek 1) == .keyword .interface then return none
        let use ← rules _ .annotationUse
        return some { modifiers with annotations := use :: modifiers.annotations }
    | .keyword word =>
        if word.isModifier then
          advance
          return some { modifiers with keywords := word :: modifiers.keywords }
        else return none
    | _ => return none) ⟨[], []⟩
  return ⟨modifiers.keywords.reverse, modifiers.annotations.reverse⟩

end LockDiscipline.Grammar
