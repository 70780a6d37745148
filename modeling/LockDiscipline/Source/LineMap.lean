import LockDiscipline.Source.Text
/-!
# Lines and columns

A `LineMap` holds the offset at which each line of a source begins. A line begins at offset zero
and after every newline, so the starts increase strictly and the line of an offset is the last one
that does not begin behind it. It is looked up by bisection. Lines and columns count from one;
columns count bytes.
-/

namespace LockDiscipline

namespace LineMap

/-- The offsets just behind the newlines of a text that begins at `offset`. -/
def newlineEnds (offset : Nat) : List Char → List Nat
  | [] => []
  | c :: rest =>
      if c = '\n' then (offset + 1) :: newlineEnds (offset + 1) rest
      else newlineEnds (offset + c.utf8Size) rest

theorem lt_of_mem_newlineEnds {offset stop : Nat} {text : List Char}
    (hends : stop ∈ newlineEnds offset text) : offset < stop := by
  fun_induction newlineEnds offset text with
  | case1 => cases hends
  | case2 offset rest ih =>
      rcases List.mem_cons.mp hends with rfl | hlater
      · exact Nat.lt_succ_self offset
      · exact Nat.lt_of_succ_lt (ih hlater)
  | case3 offset c rest hother ih => exact Nat.lt_of_le_of_lt (Nat.le_add_right _ _) (ih hends)

theorem pairwise_newlineEnds (offset : Nat) (text : List Char) :
    (newlineEnds offset text).Pairwise (· < ·) := by
  fun_induction newlineEnds offset text with
  | case1 => exact .nil
  | case2 offset rest ih => exact .cons (fun _ hlater => lt_of_mem_newlineEnds hlater) ih
  | case3 offset c rest hother ih => exact ih

/-- Where a number is in a table, or where it would have to be put in. -/
inductive Place where
  | hit (index : Nat)
  | miss (index : Nat)
deriving DecidableEq, Repr

/-- The place of a number in a sorted table, between two indices. -/
def search (table : Array Nat) (key low high : Nat) (hinside : high ≤ table.size) : Place :=
  if hwindow : low < high then
    let middle := low + (high - low) / 2
    have : middle < table.size := by omega
    if table[middle] = key then .hit middle
    else if table[middle] < key then search table key (middle + 1) high hinside
    else search table key low middle (by omega)
  else .miss low
termination_by high - low

end LineMap

/-- The offsets at which the lines of a source begin. The first line begins at zero, and each other
one behind the one before it. -/
structure LineMap where
  starts : Array Nat
  first : starts[0]? = some 0
  sorted : starts.toList.Pairwise (· < ·)
deriving DecidableEq, Repr

namespace LineMap

/-- The line map of a source text. -/
def ofText (source : List Char) : LineMap where
  starts := (0 :: newlineEnds 0 source).toArray
  first := rfl
  sorted := .cons (fun _ hends => lt_of_mem_newlineEnds hends) (pairwise_newlineEnds 0 source)

/-- The number of lines; the empty text has one. -/
def lineCount (lines : LineMap) : Nat :=
  lines.starts.size

/-- The index of the line in which an offset lies: its own where a line begins there, and else the
one before the place where it would be put in. -/
def lineIndex (lines : LineMap) (offset : Nat) : Nat :=
  match search lines.starts offset 0 lines.starts.size (Nat.le_refl _) with
  | .hit index => index
  | .miss index => index - 1

/-- The line and the column of a byte offset. -/
def lineCol (lines : LineMap) (offset : Nat) : Nat × Nat :=
  let index := lines.lineIndex offset
  (index + 1, offset - lines.starts.getD index 0 + 1)

/-- The offset at which the line with this number, counted from one, begins. -/
def lineStart? (lines : LineMap) : Nat → Option Nat
  | 0 => none
  | index + 1 => lines.starts[index]?

/-- The offset at which the line with this number ends: before the newline in front of the next
line, or with the source. -/
def lineStop (lines : LineMap) (source : List Char) (number : Nat) : Nat :=
  match lines.lineStart? (number + 1) with
  | some next => next - 1
  | none => Text.byteLength source

/-- The text of a line without its newline and without carriage returns at its end. -/
def lineText? (lines : LineMap) (source : List Char) (number : Nat) : Option (List Char) := do
  let start ← lines.lineStart? number
  let line ← Text.slice? source start (lines.lineStop source number)
  return Text.dropRightWhile (· == '\r') line

end LineMap

/-! ### Sources with their lines

Reports point at lines of a source again and again, so they take the source together with its line
map. -/

/-- A source and its lines. -/
structure MappedSource where
  source : List Char
  lines : LineMap

namespace MappedSource

/-- A source with the lines that are in it. -/
def of (source : List Char) : MappedSource :=
  ⟨source, .ofText source⟩

/-- The text of a line, which is empty where there is no such line. -/
def lineText (mapped : MappedSource) (number : Nat) : List Char :=
  (mapped.lines.lineText? mapped.source number).getD []

end MappedSource
end LockDiscipline
