import LockDiscipline.Text.Dotted
/-!
# Text styles of terminals

A styled text stands between a code that turns its style on and a code that turns all styles off. A
palette without color leaves every text as it is.
-/

namespace LockDiscipline

/-- The colors that reports use. -/
inductive TextColor where
  | red | green | yellow | blue | cyan
deriving DecidableEq, Repr, Inhabited

/-- The number of a color. -/
def TextColor.code : TextColor → Nat
  | .red => 31
  | .green => 32
  | .yellow => 33
  | .blue => 34
  | .cyan => 36

/-- How a text looks. -/
structure TextStyle where
  bold : Bool := false
  dimmed : Bool := false
  underlined : Bool := false
  color : Option TextColor := none
deriving DecidableEq, Repr, Inhabited

namespace TextStyle

/-- A color alone. -/
def of (color : TextColor) : TextStyle :=
  { color := some color }

/-- A color in bold letters. -/
def strong (color : TextColor) : TextStyle :=
  { bold := true, color := some color }

/-- The numbers that turn a style on. The color comes last. -/
def codes (style : TextStyle) : List Nat :=
  (if style.bold then [1] else []) ++ (if style.dimmed then [2] else []) ++
    (if style.underlined then [4] else []) ++ (style.color.map (·.code)).toList

/-- The text that turns a style on. -/
def start (style : TextStyle) : String :=
  "\x1b[" ++ Text.join ";" (style.codes.map toString) ++ "m"

/-- The text that turns all styles off. -/
def reset : String := "\x1b[0m"

end TextStyle

/-- Whether texts are styled. -/
structure Palette where
  colored : Bool
deriving DecidableEq, Repr, Inhabited

namespace Palette

/-- A text in a style. -/
def paint (palette : Palette) (style : TextStyle) (text : String) : String :=
  if palette.colored then
    style.start ++ text.replace TextStyle.reset (TextStyle.reset ++ style.start) ++
      TextStyle.reset
  else text

end Palette
end LockDiscipline
