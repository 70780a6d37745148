import LockDiscipline.Json.Number
import LockDiscipline.Token.Literal
/-!
# The tokens of a JSON text

A JSON text is cut into tokens that know where they begin and end. What is no token becomes a single
malformed one, behind which nothing is read; a text without such ends with a token of its own. So a
reader meets the first problem of a text first, whatever stands behind it.
-/

namespace LockDiscipline

/-- A place in a text: the line, counted from one, and the bytes before it on the line. -/
structure TextPosition where
  line : Nat
  column : Nat
deriving DecidableEq, Repr, Inhabited

namespace TextPosition

/-- The beginning of a text. -/
def start : TextPosition := ⟨1, 0⟩

/-- The place behind a character. -/
def after (position : TextPosition) (c : Char) : TextPosition :=
  if c = '\n' then ⟨position.line + 1, 0⟩ else ⟨position.line, position.column + c.utf8Size⟩

end TextPosition

/-- The kinds of tokens. -/
inductive JsonTokenKind where
  | openRecord | closeRecord | openList | closeList | colon | comma
  | null
  | bool (value : Bool)
  | number (value : JsonNumber)
  | string (text : String)
  | malformed
  | ending
deriving DecidableEq, Repr, Inhabited

/-- A token with the places where it begins and ends. -/
structure JsonToken where
  kind : JsonTokenKind
  start : TextPosition
  stop : TextPosition
deriving DecidableEq, Repr, Inhabited

namespace JsonToken

/-- The characters that stand between tokens. -/
def isBlank (c : Char) : Bool :=
  c == ' ' || c == '\n' || c == '\t' || c == '\r'

/-- The character that an escape of one letter stands for. -/
def simpleEscape? : Char → Option Char
  | '"' => some '"'
  | '\\' => some '\\'
  | '/' => some '/'
  | 'b' => some '\x08'
  | 'f' => some '\x0c'
  | 'n' => some '\n'
  | 'r' => some '\r'
  | 't' => some '\t'
  | _ => none

/-- The number that four hexadecimal digits denote. -/
def unit? (digits : List Char) : Option Nat :=
  Literal.natural? 16 digits

/-- The character of a surrogate pair. -/
def pairedChar? (high low : Nat) : Option Char :=
  if 0xD800 ≤ high && high ≤ 0xDBFF && 0xDC00 ≤ low && low ≤ 0xDFFF then
    Literal.charOfCode? (0x10000 + 0x400 * (high - 0xD800) + (low - 0xDC00))
  else none

/-- The characters of a string up to its closing quote, and the text behind that. Surrogates have to
come in pairs, and control characters have to be escaped. -/
def readString? : List Char → Option (List Char × List Char)
  | '"' :: rest => some ([], rest)
  | '\\' :: 'u' :: a :: b :: c :: d :: rest => do
      let first ← unit? [a, b, c, d]
      match Literal.charOfCode? first with
      | some found =>
          let (more, rest) ← readString? rest
          return (found :: more, rest)
      | none =>
          match rest with
          | '\\' :: 'u' :: e :: f :: g :: h :: rest =>
              let found ← pairedChar? first (← unit? [e, f, g, h])
              let (more, rest) ← readString? rest
              return (found :: more, rest)
          | _ => none
  | '\\' :: letter :: rest => do
      let found ← simpleEscape? letter
      let (more, rest) ← readString? rest
      return (found :: more, rest)
  | c :: rest =>
      if c.toNat < 0x20 || c == '\\' then none
      else do
        let (more, rest) ← readString? rest
        return (c :: more, rest)
  | [] => none

/-- The token at the start of a text that does not begin with a blank, and the text behind it. -/
def read? : List Char → Option (JsonTokenKind × List Char)
  | '{' :: rest => some (.openRecord, rest)
  | '}' :: rest => some (.closeRecord, rest)
  | '[' :: rest => some (.openList, rest)
  | ']' :: rest => some (.closeList, rest)
  | ':' :: rest => some (.colon, rest)
  | ',' :: rest => some (.comma, rest)
  | 'n' :: 'u' :: 'l' :: 'l' :: rest => some (.null, rest)
  | 't' :: 'r' :: 'u' :: 'e' :: rest => some (.bool true, rest)
  | 'f' :: 'a' :: 'l' :: 's' :: 'e' :: rest => some (.bool false, rest)
  | '"' :: rest => (readString? rest).map fun (text, rest) => (.string (String.ofList text), rest)
  | text => (JsonNumber.read? text).map fun (value, rest) => (.number value, rest)

/-- The place behind the part of a text that was read. -/
def positionBehind (position : TextPosition) (text rest : List Char) : TextPosition :=
  (text.take (text.length - rest.length)).foldl TextPosition.after position

/-- The tokens of a text, of which at most a number are read. -/
def readAll : (most : Nat) → TextPosition → List Char → List JsonToken
  | 0, position, _ => [⟨.ending, position, position⟩]
  | most + 1, position, text =>
      let visible := text.dropWhile isBlank
      let start := positionBehind position text visible
      match visible, read? visible with
      | [], _ => [⟨.ending, start, start⟩]
      | _, none => [⟨.malformed, start, start⟩]
      | _, some (kind, rest) =>
          let stop := positionBehind start visible rest
          ⟨kind, start, stop⟩ :: readAll most stop rest

/-- The tokens of a text. Every token takes a character at least, so there are no more tokens than
characters. -/
def ofText (text : String) : List JsonToken :=
  readAll (text.length + 1) .start text.toList

end JsonToken
end LockDiscipline
