/-!
# Dotted names

Qualified names are written with dots between their segments. The functions here take names apart at
a separator and put them together again.
-/

namespace LockDiscipline.Text

/-- The pieces of a text between the occurrences of a separator; there is always one. -/
def splitAt (separator : Char) : List Char → List (List Char)
  | [] => [[]]
  | c :: rest =>
      match splitAt separator rest with
      | [] => [[]]
      | piece :: pieces =>
          if c = separator then [] :: piece :: pieces else (c :: piece) :: pieces

/-- The segments of a dotted name. -/
def segments (name : String) : List String :=
  (splitAt '.' name.toList).map String.ofList

/-- The last segment of a dotted name. -/
def lastSegment (name : String) : String :=
  (segments name).getLastD name

/-- Names with a separator between them. -/
def join (separator : String) : List String → String
  | [] => ""
  | [name] => name
  | name :: rest => name ++ separator ++ join separator rest

end LockDiscipline.Text
