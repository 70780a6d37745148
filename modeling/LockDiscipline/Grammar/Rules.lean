import LockDiscipline.Grammar.Lookahead
/-!
# The recursive rules of the grammar

The rules of the grammar refer to each other. Each rule is written as a function of a `Rules` value,
which says how to read the nonterminals inside it; only `Grammar.Program` ties the rules together.
So every rule is an ordinary definition, and what holds of all rules is shown once, by induction on
the depth to which they are tied.
-/

namespace LockDiscipline.Grammar

/-- What the recursive rules read, with the type of its tree. -/
inductive Nonterminal : Type → Type where
  | expr : Nonterminal Expr
  /-- An expression without assignments. -/
  | ternary : Nonterminal Expr
  /-- Operands and binary operators of at least the given precedence. -/
  | binary (least : Nat) : Nonterminal Expr
  | unary : Nonterminal Expr
  | type : Nonterminal String
  | annotationUse : Nonterminal AnnotationUse
  /-- The value of an annotation argument. -/
  | elementValue : Nonterminal Expr
  /-- An initial value, which may be a bare array. -/
  | varInit : Nonterminal Expr
  | stmt : Nonterminal Stmt
  | block : Nonterminal (List Stmt)
  /-- A class body. Constructors bear the name of the class. -/
  | classBody (className : String) (isEnum : Bool) : Nonterminal (List Member)

/-- How to read each nonterminal. -/
abbrev Rules := (α : Type) → Nonterminal α → Reader α

/-- Whether the tokens that lie ahead pass a test. -/
def ahead (test : List Token → Bool) : Reader Bool :=
  return test (← get).rest

end LockDiscipline.Grammar
