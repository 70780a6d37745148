/-!
# Padding

Texts at a fixed width. A text that is already wide enough stays as it is.
-/

namespace LockDiscipline.Text

/-- A text of blanks. -/
def blank (count : Nat) : String :=
  String.ofList (List.replicate count ' ')

/-- A text at the right end of a field. -/
def padLeft (width : Nat) (text : String) : String :=
  blank (width - text.length) ++ text

/-- A text at the left end of a field. -/
def padRight (width : Nat) (text : String) : String :=
  text ++ blank (width - text.length)

end LockDiscipline.Text
