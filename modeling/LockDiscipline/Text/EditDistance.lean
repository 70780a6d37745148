/-!
# Edit distance

The distance between two texts is the least number of characters that have to be inserted, deleted
or replaced to turn one into the other. It is computed with two rows, which hold the distances from
a part of the source to every beginning of the target: the row below is filled from left to right,
and then the rows change places, so that the next one is written over the older.
-/

namespace LockDiscipline.Text

namespace EditDistance

/-- One number for each beginning of a target with so many characters, the empty one first. -/
abbrev Row (width : Nat) :=
  Vector Nat (width + 1)

/-- The row that is complete, and the row that is filled next. -/
structure Rows (width : Nat) where
  previous : Row width
  current : Row width
deriving DecidableEq, Repr

/-- The distance in a cell, from those in the cells above, to the left, and to the left above. -/
def cell (above left diagonal : Nat) (replaced : Bool) : Nat :=
  min (min (above + 1) (left + 1)) (diagonal + replaced.toNat)

/-- The row with its cell behind one more character of the target. -/
def fillCell (target : List Char) (previous : Row target.length) (c : Char)
    (current : Row target.length) (column : Fin target.length) : Row target.length :=
  current.set (column + 1)
    (cell previous[column.val + 1] current[column.val] previous[column.val] (c != target[column]))

/-- The row below, written over another one. It belongs to the beginning of the source that ends
with this character, behind `before` others. -/
def fillRow (target : List Char) (previous : Row target.length) (c : Char) (before : Nat)
    (current : Row target.length) : Row target.length :=
  Fin.foldl target.length (fillCell target previous c) (current.set 0 (before + 1))

namespace Rows

/-- The rows for the empty source: the complete row holds the lengths, the other nothing yet. -/
def start (width : Nat) : Rows width :=
  ⟨.ofFn fun column => column.val, .replicate (width + 1) 0⟩

/-- The rows after one more character of the source. -/
def next {target : List Char} (rows : Rows target.length) (character : Char × Nat) :
    Rows target.length :=
  ⟨fillRow target rows.previous character.1 character.2 rows.current, rows.previous⟩

/-- The rows after a source. -/
def after (source target : List Char) : Rows target.length :=
  source.zipIdx.foldl next (start target.length)

end Rows
end EditDistance

/-- The edit distance of two texts. -/
def editDistance (source target : List Char) : Nat :=
  if source.isEmpty then target.length
  else if target.isEmpty then source.length
  else (EditDistance.Rows.after source target).previous[target.length]

end LockDiscipline.Text
