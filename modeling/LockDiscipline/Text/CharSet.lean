/-!
# Sets of characters

A set of characters is given by the numbers at which membership changes, in increasing order: a
character is in the set when an odd number of changes lie at or below it. Large properties of
characters are tables of this form.
-/

namespace LockDiscipline.Text

/-- A set of characters, as the increasing list of the numbers at which membership changes. -/
structure CharSet where
  changes : List Nat

namespace CharSet

/-- Whether an odd number of changes lie at or below a number. -/
def insideAt (number : Nat) : List Nat → Bool
  | [] => false
  | change :: rest => if number < change then false else !insideAt number rest

/-- Whether a character is in a set. -/
def contains (set : CharSet) (c : Char) : Bool :=
  insideAt c.toNat set.changes

end CharSet
end LockDiscipline.Text
