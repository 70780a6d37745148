import LockDiscipline.Text.Pad
/-!
# Outlines

An outline shows a nested value over many lines, one part a line and four blanks of indentation at
each depth. Every part ends with a comma, and an empty list takes no line of its own.
-/

namespace LockDiscipline

/-- A nested value with the names of its parts. -/
inductive Outline where
  /-- A value without parts. -/
  | leaf (text : String)
  | list (items : List Outline)
  /-- A named value with parts in an order. -/
  | tuple (name : String) (parts : List Outline)
  /-- A named value with named parts. -/
  | record (name : String) (parts : List (String × Outline))
deriving Inhabited

namespace Outline

/-- The start of a line at a depth. -/
def newline (depth : Nat) : String :=
  "\n" ++ Text.blank (4 * depth)

mutual

/-- The text of an outline at a depth. -/
def textAt (depth : Nat) : Outline → String
  | .leaf text => text
  | .list [] => "[]"
  | .list (item :: rest) =>
      "[" ++ partsAt (depth + 1) (item :: rest) ++ newline depth ++ "]"
  | .tuple name parts => name ++ "(" ++ partsAt (depth + 1) parts ++ newline depth ++ ")"
  | .record name parts =>
      name ++ " \x7b" ++ namedPartsAt (depth + 1) parts ++ newline depth ++ "\x7d"

/-- Parts, each on lines of its own. -/
def partsAt (depth : Nat) : List Outline → String
  | [] => ""
  | part :: rest => newline depth ++ textAt depth part ++ "," ++ partsAt depth rest

/-- Named parts, each on lines of its own. -/
def namedPartsAt (depth : Nat) : List (String × Outline) → String
  | [] => ""
  | (name, part) :: rest =>
      newline depth ++ name ++ ": " ++ textAt depth part ++ "," ++ namedPartsAt depth rest

end

/-- The text of an outline. -/
def text (outline : Outline) : String :=
  outline.textAt 0

/-- A value that may be missing. -/
def option : Option Outline → Outline
  | none => .leaf "None"
  | some part => .tuple "Some" [part]

/-- A truth value. -/
def bool (value : Bool) : Outline :=
  .leaf (if value then "true" else "false")

end Outline
end LockDiscipline
