import LockDiscipline.Lock.Expr
import LockDiscipline.Text.Dotted
/-!
# Sets of locks

The locks held at a point of the code, each once, in the order in which they were found to be held.
The set displays its locks in the order of their texts.
-/

namespace LockDiscipline

/-- Locks of which no two are the same. -/
structure LockSet where
  toList : List LockExpr
deriving Repr, Inhabited

namespace LockSet

/-- The set without locks. -/
def empty : LockSet := ⟨[]⟩

/-- Whether a lock is in a set. -/
def contains (locks : LockSet) (lock : LockExpr) : Bool :=
  locks.toList.any lock.same

/-- A set with one more lock. If the same lock is there already, that one stays. -/
def insert (locks : LockSet) (lock : LockExpr) : LockSet :=
  if locks.contains lock then locks else ⟨locks.toList ++ [lock]⟩

/-- A set with more locks, inserted in order. -/
def insertAll (locks : LockSet) (more : List LockExpr) : LockSet :=
  more.foldl insert locks

/-- The set of the locks of a list. -/
def ofList (locks : List LockExpr) : LockSet :=
  empty.insertAll locks

/-- The number of locks. -/
def size (locks : LockSet) : Nat :=
  locks.toList.length

/-- Whether there is no lock. -/
def isEmpty (locks : LockSet) : Bool :=
  locks.toList.isEmpty

/-- Whether two sets hold the same locks. -/
def same (first second : LockSet) : Bool :=
  first.toList.all second.contains && second.toList.all first.contains

/-- The set as messages show it. -/
def text (locks : LockSet) : String :=
  let names := (locks.toList.map (·.text)).mergeSort (fun first second => first ≤ second)
  "\x7b" ++ Text.join ", " names ++ "\x7d"

end LockSet
end LockDiscipline
