import LockDiscipline.Text.EditDistance
/-!
# Suggestions

For a name that is not known, the known name that was probably meant: the one at the least edit
distance, if that is small for the length of the name. Of several at the same distance the first
counts.
-/

namespace LockDiscipline.Suggestion

/-- The greatest distance at which a candidate is a likely misspelling of a name. -/
def limit (name : String) : Nat :=
  if name.utf8ByteSize ≤ 2 then 1 else if name.utf8ByteSize ≤ 5 then 2 else 3

/-- Whether the lengths of two names in bytes differ by at most a number. -/
def lengthsWithin (most : Nat) (first second : String) : Bool :=
  first.utf8ByteSize ≤ second.utf8ByteSize + most && second.utf8ByteSize ≤ first.utf8ByteSize + most

/-- The edit distance of two names. -/
def distance (first second : String) : Nat :=
  Text.editDistance first.toList second.toList

/-- The best candidate so far with its distance, once one more was looked at. The distance is
computed only where the lengths do not rule the candidate out. -/
def better (name : String) (best : Option (String × Nat)) (candidate : String) :
    Option (String × Nat) :=
  if candidate = name || !lengthsWithin (limit name) name candidate then best
  else
    let apart := distance name candidate
    if apart ≤ limit name && best.all (apart < ·.2) then some (candidate, apart) else best

/-- The candidate that was probably meant by a name. -/
def closest? (name : String) (candidates : List String) : Option String :=
  (candidates.foldl (better name) none).map (·.1)

/-- The advice to use the closest candidate. -/
def advice? (name : String) (candidates : List String) : Option String :=
  (closest? name candidates).map fun meant => "did you mean `" ++ meant ++ "`?"

end LockDiscipline.Suggestion
